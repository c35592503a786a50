import OtaBoot.Device

set_option autoImplicit false

namespace OtaBoot

open Mem

inductive OtaState
  | idle
  | receiving
  | verify
  | confirm
  | done
  | error
  deriving DecidableEq

/-- The receiver's variables, and how many of the connections it accepted lwIP still
holds: a `connected` one delivers data and its close, a `closing` one can only fail. The
two pcbs are only tested for NULL, and `ota_client_pcb` may have forgotten a connection. -/
structure Ota where
  serverPcb : Bool
  clientPcb : Bool
  connected : Nat
  closing : Nat
  state : OtaState
  headerParsed : Bool
  expected : Nat
  received : Nat
  crcExpected : Word
  stage : Mem
  buf : Mem

abbrev otaMagic : Word := 0x0041544F

/-- One buffer of a received chain; its length is a 16-bit field. -/
structure Pbuf where
  payload : List Byte
  short : payload.length < 65536

/-- Whether `tcp_new`, `tcp_bind` and `tcp_listen` work. -/
inductive StartResult
  | newFails
  | bindFails
  | listenFails
  | listening
  deriving DecidableEq

namespace Ota

/-- The variables after a reset; the buffer is not initialised. -/
def initial (buf : Mem) : Ota where
  serverPcb := false
  clientPcb := false
  connected := 0
  closing := 0
  state := .idle
  headerParsed := false
  expected := 0
  received := 0
  crcExpected := 0
  stage := fun _ => 0
  buf := buf

def errCb (o : Ota) : Ota :=
  { o with clientPcb := false, state := if o.state = .receiving then .error else o.state }

/-- A connection fails, or one that is already closed: the callback does not tell them apart. -/
def fail (closing : Bool) (o : Ota) : Ota :=
  if closing then { o with closing := o.closing - 1 }.errCb
  else { o with connected := o.connected - 1 }.errCb

/-- Aborting a client runs its error callback. -/
def serverStop (o : Ota) : Ota :=
  let o := if o.clientPcb then o.fail false else o
  { o with clientPcb := false, serverPcb := false, state := .idle }

/-- The flag is the return value 0. -/
def serverStart (result : StartResult) (o : Ota) : Ota × Bool :=
  let o := { o.serverStop with
    state := .receiving
    headerParsed := false
    expected := 0
    received := 0 }
  match result with
  | .newFails => ({ o with state := .error }, false)
  | .bindFails => ({ o with serverPcb := true }.serverStop, false)
  | .listenFails => (o, true)
  | .listening => ({ o with serverPcb := true }, true)

def resetState (o : Ota) : Ota := { o with state := .idle }

/-- A second client is aborted before it has callbacks. -/
def acceptCb (o : Ota) : Ota :=
  if o.clientPcb then o else { o with clientPcb := true, connected := o.connected + 1 }

/-- `ota_recv_cb` with no buffer: the peer closed. If the pcb cannot be closed it is
aborted, which runs the error callback. -/
def recvFin (closed : Bool) (o : Ota) : Ota :=
  let o := { o with clientPcb := false }
  let o := if closed then { o with connected := o.connected - 1, closing := o.closing + 1 }
    else o.fail false
  if o.state = .receiving then
    if o.expected ≠ 0 ∧ o.expected ≤ o.received then { o with state := .verify }
    else { o with state := .error }
  else o

/-- `memcpy(ota_buf + ota_received, data, len)`. -/
def append (o : Ota) (data : List Byte) : Ota :=
  { o with
    buf := o.buf.store o.received data.length fun i => data.getD i 0
    received := o.received + data.length }

/-- The header bytes still missing go to `ota_stage`. -/
def stageHeader (o : Ota) (data : List Byte) : Ota :=
  let take := min data.length (8 - o.received)
  { o with
    stage := o.stage.store o.received take fun i => data.getD i 0
    received := o.received + take }

/-- Start of the payload. -/
def parseHeader (o : Ota) : Ota :=
  { o with expected := (o.stage.word 4).toNat, received := 0, headerParsed := true }

/-- One buffer of the chain; the flag is false if the callback returns there. The
`while` loop runs at most twice: once for the header, once for the rest. -/
def takePbuf (o : Ota) (data : List Byte) : Ota × Bool :=
  if o.received + data.length > otaBufSize then ({ o with state := .error }, false)
  else if data = [] then (o, true)
  else if o.headerParsed then (o.append data, true)
  else
    let staged := o.stageHeader data
    if staged.received = 8 then
      if staged.stage.word 0 ≠ otaMagic then ({ staged with state := .error }, false)
      else (staged.parseHeader.append (data.drop (8 - o.received)), true)
    else (staged, true)

/-- `ota_recv_cb` with data. -/
def recvData : Ota → List Pbuf → Ota
  | o, [] => o
  | o, p :: rest =>
    match o.takePbuf p.payload with
    | (next, true) => next.recvData rest
    | (next, false) => next

end Ota

/-- Faults of one `OTA_Poll` in VERIFY. -/
structure PollFaults where
  erase : Qspi.EraseFaults
  init : Status
  write : Nat → ChipFault
  reinit : Status
  rewrite : Nat → ChipFault
  read : Nat → Status

/-- Write the staging area, with one retry after a reset whose result is ignored. -/
def stagingWrite (faults : PollFaults) (o : Ota) : Op Mem Bool := do
  if ← Qspi.bspQspiWrite faults.write o.buf 0 o.received then pure true
  else
    let _ ← Qspi.bspQspiInit faults.reinit
    Qspi.bspQspiWrite faults.rewrite o.buf 0 o.received

/-- The read-back loop, 64 bytes a pass; `none` if a read fails. -/
def readbackFrom (reads : Nat → Status) (size : Nat) : Nat → Nat → Word → Op Mem (Option Word)
  | 0, _, crc => pure (some crc)
  | passes + 1, pass, crc =>
    if pass * 64 < size then do
      let chunk := if size - pass * 64 < 64 then size - pass * 64 else 64
      match ← Qspi.bspQspiRead (reads pass) (pass * 64) chunk with
      | none => pure none
      | some data => readbackFrom reads size passes (pass + 1) (data.foldl crcByte crc)
    else pure (some crc)

/-- The bit-by-bit CRC of the read-back bytes. -/
def readbackCrc (data : List Byte) : Word := data.foldl crcByte 0xFFFFFFFF ^^^ 0xFFFFFFFF

/-- Erase, write and read back the staging area; the result is the new state. -/
def stageImage (faults : PollFaults) (o : Ota) : Op Mem OtaState := do
  let _ ← Qspi.qspiEraseBlocks faults.erase 0 (2 * 1024 * 1024)
  if ← Qspi.bspQspiInit faults.init then
    if ← stagingWrite faults o then
      match ← readbackFrom faults.read o.received (o.received + 1) 0 0xFFFFFFFF with
      | none => pure .error
      | some crc => pure (if crc ^^^ 0xFFFFFFFF = o.crcExpected then .confirm else .error)
    else pure .error
  else pure .error

/-- The new `ota_state`. -/
def otaPoll (faults : PollFaults) (o : Ota) : Op Mem OtaState :=
  if o.state ≠ .verify then pure o.state
  else if crc32Calculate (o.buf.bytes 0 o.received) ≠ o.crcExpected then pure .error
  else stageImage faults o

end OtaBoot
