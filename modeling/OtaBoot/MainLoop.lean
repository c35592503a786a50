import OtaBoot.Lib.Follow
import OtaBoot.Connections
import OtaBoot.VersionCheck
import OtaBoot.Delay

set_option autoImplicit false

/- `main`, `interactive_mode` and the menu as the source writes them: nested loops that
wait, over the receiver and the version check with the connections they have. -/
namespace OtaBoot

/-- What lwIP may deliver in one pass: to the receiver, or to the version check. -/
inductive Traffic
  | server (event : NetEvent)
  | connected (id : Nat)
  | response (id : Nat) (chain : List Pbuf)
  | responseFin (id : Nat)
  | lost (id : Nat)

/-- The variables of the whole program. `numbers` are those that the missing
`Version_Check_GetVersionNumbers` returns. -/
structure Loop where
  board : Board
  server : Connections
  check : VersionNet
  numbers : Version
  ethInited : Bool
  iwdg : Bool

/-- A part of the program: it ends, or waits at a place. -/
abbrev Control (α : Type) : Type := Prog Loop Loc α

/-- A pass of a wait in `Firmware_Update`: what `ethernetif_input` and
`sys_check_timeouts` deliver in it, and when it reads the clock. -/
structure WaitPass where
  burst : List Traffic
  elapsed : Nat

/-- A pass of a wait for a key, as `WaitKey_WithLwIP` makes it. -/
structure KeyPass where
  burst : List Traffic
  key : Nat

structure TriggerRound where
  tw0 : Word
  passes : List WaitPass

/-- What `Firmware_Update` meets between two passes of its label `retry`. -/
structure UpdateTry where
  connect : ConnectResult
  aborted : List Nat
  t0 : Word
  wait : List WaitPass
  numbers : Version
  keys : List KeyPass
  listen : StartResult
  rounds : Nat → TriggerRound

/-- One pass of the loop of `interactive_mode`. -/
structure Pass where
  burst : List Traffic
  poll : PollFaults
  answer : Nat
  write : UpdateFaults
  key : Nat
  menu : MenuFaults
  tries : List UpdateTry

namespace Loop

open Prog

def deliver (s : Loop) : Traffic → Loop
  | .server event => { s with server := s.server.net event }
  | .connected id => { s with check := s.check.connect id }
  | .response id chain => { s with check := s.check.data id chain }
  | .responseFin id => { s with check := s.check.fin id }
  | .lost id => { s with check := s.check.lose id }

/-- `ethernetif_input` and `sys_check_timeouts`. -/
def ethernetifInput (burst : List Traffic) : Control Unit := modify fun s => burst.foldl deliver s

/-- An operation on the board; power may be lost in it. -/
def onBoard {α : Type} (op : Op Board α) : Control α := fun s =>
  match op s.board with
  | (.done value, b) => .next value { s with board := b }
  | (.cut, b) => .stop .off { s with board := b }

def serverStop : Control Unit := modify fun s => { s with server := s.server.stop }

def resetState : Control Unit :=
  modify fun s => { s with server := { s.server with ota := s.server.ota.resetState } }

/-- The flag is the return value 0. -/
def serverStart (result : StartResult) : Control Bool := fun s =>
  .next (s.server.ota.serverStart result).2 { s with server := s.server.start result }

def setExpectedCRC (crc : Word) : Control Unit :=
  modify fun s => { s with server := { s.server with ota := { s.server.ota with crcExpected := crc } } }

def isReceiving : Control Bool := gets fun s => s.server.ota.state == .receiving

def isConfirm : Control Bool := gets fun s => s.server.ota.state == .confirm

/-- `while (!Version_Check_IsDone())`. -/
def versionWait (t0 : Word) : List WaitPass → Control Unit
  | [] => do if ← gets fun s => s.check.check.done then pure () else halt .connecting
  | pass :: rest => do
    if ← gets fun s => s.check.check.done then pure ()
    else
      ethernetifInput pass.burst
      if versionTimeout t0 pass.elapsed then pure () else versionWait t0 rest

/-- `WaitKey_WithLwIP`. -/
def waitKey (pass : KeyPass) : Control Nat := do
  ethernetifInput pass.burst
  pure pass.key

/-- The window of round `t`; the flag is `connected`. -/
def triggerRound (t : Nat) (tw0 : Word) : List WaitPass → Control Bool
  | [] => halt (.trigger t)
  | pass :: rest => do
    if triggerWindow tw0 pass.elapsed then
      ethernetifInput pass.burst
      if ← gets fun s => s.server.client.isSome then pure true else triggerRound t tw0 rest
    else pure false

/-- The rounds from `t` on, `left` of them. -/
def triggerRounds (rounds : Nat → TriggerRound) : Nat → Nat → Control Bool
  | 0, _ => pure false
  | left + 1, t => do
    if ← triggerRound t (rounds t).tw0 (rounds t).passes then pure true
    else triggerRounds rounds left (t + 1)

/-- The way back to the menu, and the return value 1. -/
def cancelUpdate : Control Bool := do
  serverStop
  resetState
  pure false

/-- `Firmware_Update` once the user has said yes. -/
def acceptUpdate (turn : UpdateTry) (crc : Word) : Control Bool := do
  setExpectedCRC crc
  if ← serverStart turn.listen then
    if ← triggerRounds turn.rounds 3 0 then pure true else cancelUpdate
  else cancelUpdate

/-- "Update now? (y/n)". -/
def promptLoop (turn : UpdateTry) (crc : Word) : List KeyPass → Control Bool
  | [] => halt (.prompt crc)
  | pass :: rest => do
    let c ← waitKey pass
    if isYes c then acceptUpdate turn crc
    else if isNo c then pure false
    else promptLoop turn crc rest

/-- "Press ESC to return to main menu". -/
def upToDateLoop : List KeyPass → Control Bool
  | [] => halt .upToDate
  | pass :: rest => do
    let c ← waitKey pass
    if c = keyEsc then pure false else upToDateLoop rest

/-- "(1)Return to menu (2)Retry connection"; the flag is `goto retry`. -/
def noServerLoop : List KeyPass → Control Bool
  | [] => halt .noServer
  | pass :: rest => do
    let c ← waitKey pass
    if c = key1 then pure false
    else if c = key2 then pure true
    else noServerLoop rest

/-- `Firmware_Update` from its label `retry` on; the flag is the return value 0. -/
def firmwareUpdate : List UpdateTry → Control Bool
  | [] => halt .connecting
  | turn :: rest => do
    modify fun s => { s with check := s.check.start turn.connect turn.aborted }
    versionWait turn.t0 turn.wait
    if ← gets fun s => s.check.check.ok then
      let (_, _, crc) ← gets fun s => s.check.check.get
      modify fun s => { s with numbers := turn.numbers }
      promptLoop turn crc turn.keys
    else if ← gets fun s => s.check.check.connected then upToDateLoop turn.keys
    else if ← noServerLoop turn.keys then firmwareUpdate rest
    else pure false

/-- `Eth_Init_Once`. -/
def ethInitOnce : Control Unit := modify fun s => { s with ethInited := true }

/-- `Menu_HandleKey`. -/
def menuHandleKey (key : Nat) (faults : MenuFaults) (tries : List UpdateTry) : Control Unit := do
  if key = key2 then
    if (← isReceiving) || (← isConfirm) then pure ()
    else
      ethInitOnce
      let _ ← firmwareUpdate tries
      pure ()
  else if key = key3 then onBoard (backupSlotA faults.backup)
  else if key = key4 then onBoard (restoreSlotA faults.restore faults.record)
  else if key = key6 then halt .off
  else if key = key5 then halt .app
  else if key = keyEsc then
    if (← isReceiving) || (← isConfirm) then serverStop else pure ()
  else pure ()

/-- What `OTA_Flash_Write` reads. -/
def update (s : Loop) : Update where
  received := s.server.ota.received
  crcExpected := s.server.ota.crcExpected
  major := s.numbers.major
  minor := s.numbers.minor
  patch := s.numbers.patch

def setState (state : OtaState) : Control Unit :=
  modify fun s => { s with server := { s.server with ota := { s.server.ota with state := state } } }

/-- `OTA_Poll`. -/
def poll (faults : PollFaults) : Control Unit := do
  let ota ← gets fun s => s.server.ota
  let state ← onBoard (onNor (otaPoll faults ota))
  setState state

/-- The answer to the question whether to write the App; after a write that works the
program resets itself. -/
def confirmAnswer (answer : Nat) (faults : UpdateFaults) : Control Unit := do
  if isYes answer then
    let update ← gets update
    if ← onBoard (otaFlashWrite faults update) then
      setState .done
      halt .off
    else
      serverStop
      resetState
  else if isNo answer then
    serverStop
    resetState
  else pure ()

def confirmStep (answer : Nat) (faults : UpdateFaults) : Control Unit := do
  if ← isConfirm then confirmAnswer answer faults else pure ()

/-- The network part of the loop: nothing is processed before the first update. -/
def inputStep (burst : List Traffic) : Control Unit := do
  if ← gets fun s => s.ethInited then ethernetifInput burst else pure ()

def keyStep (key : Nat) (faults : MenuFaults) (tries : List UpdateTry) : Control Unit := do
  if key ≠ 0 then menuHandleKey key faults tries else pure ()

/-- The body of the loop of `interactive_mode`. -/
def mainPass (pass : Pass) : Control Unit := do
  inputStep pass.burst
  poll pass.poll
  confirmStep pass.answer pass.write
  keyStep pass.key pass.menu pass.tries

/-- The start of the QSPI; its result is only printed. -/
def qspiInitOnce (qspi : Status) : Control Unit := do
  if ← gets fun s => s.board.qspiInited then pure ()
  else
    let _ ← onBoard (onNor (Qspi.bspQspiInit qspi))
    modify fun s => { s with board := { s.board with qspiInited := true } }

def interactiveMode (qspi : Status) (passes : List Pass) : Control Unit := do
  qspiInitOnce qspi
  passes.forM mainPass

/-- The variables after a reset. -/
def restarted (s : Loop) : Loop where
  board := s.board
  server := Connections.initial s.server.ota.buf
  check := VersionNet.initial
  numbers := ⟨0, 0, 0⟩
  ethInited := false
  iwdg := false

/-- A reset and `main`. -/
def main (boot : Boot) (keyOn : Bool) (qspi : Status) (passes : List Pass) : Control Unit := do
  modify restarted
  let bootReq ← onBoard boot.run
  if keyOn then interactiveMode qspi passes
  else if bootReq = 0 then interactiveMode qspi passes
  else if bootReq = 1 then
    modify fun s => { s with iwdg := true }
    halt .app
  else halt .app

end Loop

/-- The time from one reset to the next: `main`, and the confirmations of an App that it
may have started. -/
structure Cycle where
  boot : Boot
  keyOn : Bool
  qspi : Status
  passes : List Pass
  confirms : List MetaFaults

namespace Loop

def confirmations (confirms : List MetaFaults) : Control Unit :=
  confirms.forM fun faults => onBoard (appConfirm faults)

/-- The variables and the place where the next reset finds the program. -/
def cycle (s : Loop) (c : Cycle) : Loop × Loc :=
  match main c.boot c.keyOn c.qspi c.passes s with
  | .next () t => (t, .input)
  | .stop place t =>
    if place = .app then
      match confirmations c.confirms t with
      | .next () u => (u, .app)
      | .stop place u => (u, place)
    else (t, place)

/-- A device that has never run. -/
def fresh (board : Board) (buf : Mem) : Loop where
  board := board
  server := Connections.initial buf
  check := VersionNet.initial
  numbers := ⟨0, 0, 0⟩
  ethInited := false
  iwdg := false

/-- Where the program is after a history of resets. -/
def history (s : Loop) (cycles : List Cycle) : Loop × Loc :=
  cycles.foldl (fun now c => now.1.cycle c) (s, .off)

end Loop

end OtaBoot
