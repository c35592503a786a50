import OtaBoot.Qspi
import OtaBoot.Lib.Oracle

set_option autoImplicit false

/- The driver of `bsp_qspi_flash.c` command by command, with the chip as it works by
itself: it is busy after a program or an erase, and ignores what it is told meanwhile. -/
namespace OtaBoot.Qspi

/-- How an operation of the chip ends: it completes, or a reset or the loss of power
interrupts it and some bits keep their old value. -/
inductive Fate
  | completes
  | interrupted (keep : Nat → Byte → Byte → Byte)

def Fate.leaves (fate : Fate) (offset : Nat) (old want : Byte) : Byte :=
  match fate with
  | .completes => want
  | .interrupted keep => (old &&& keep offset old want) ||| (want &&& ~~~ keep offset old want)

/-- An operation the chip has started: its target, and what each byte is to become. -/
structure Job where
  address : Nat
  size : Nat
  want : Nat → Byte → Byte
  fate : Fate

/-- The array once the operation is over. -/
def Job.result (job : Job) (m : Mem) : Mem := m.store job.address job.size fun i =>
  job.fate.leaves i (m (job.address + i)) (job.want i (m (job.address + i)))

/-- `wel` is the write enable latch; `job` is what makes the chip report WIP. -/
structure W25Q where
  mem : Mem
  wel : Bool
  resetEnabled : Bool
  job : Option Job

namespace W25Q

/-- What the array will hold when the chip is ready. -/
def settled (c : W25Q) : Mem :=
  match c.job with
  | none => c.mem
  | some job => job.result c.mem

/-- The end of an operation clears the latch. -/
def finish (c : W25Q) : W25Q :=
  match c.job with
  | none => c
  | some job => { c with mem := job.result c.mem, wel := false, job := none }

/-- Time passes: an operation that completes has done so. -/
def advance (c : W25Q) : W25Q :=
  match c.job with
  | none => c
  | some job =>
    match job.fate with
    | .completes => c.finish
    | .interrupted _ => c

/-- `0x06`. A busy chip takes no command but a status read and a reset. -/
def writeEnable (c : W25Q) : W25Q :=
  match c.job with
  | none => { c with wel := true, resetEnabled := false }
  | some _ => c

/-- A program or erase command: without the latch it is ignored. -/
def start (job : Job) (c : W25Q) : W25Q :=
  match c.job with
  | none => if c.wel then { c with resetEnabled := false, job := some job }
    else { c with resetEnabled := false }
  | some _ => c

/-- `0x66`. -/
def resetEnable (c : W25Q) : W25Q := { c with resetEnabled := true }

/-- `0x99`: it ends what the chip is doing. -/
def resetMemory (c : W25Q) : W25Q :=
  if c.resetEnabled then { c.finish with wel := false, resetEnabled := false } else c

/-- `0xB7`; the driver's other commands have four address bytes in either mode. -/
def enter4BAddr (c : W25Q) : W25Q := { c with resetEnabled := false }

def powerLoss (c : W25Q) : W25Q := ⟨c.settled, false, false, none⟩

end W25Q

/-- A call of the HAL: whether the chip has become ready before it, what the call
reports, and whether one that fails has reached the chip. -/
structure HalCall where
  advances : Bool
  status : Status
  sent : Bool

/-- The chip as the call finds it. -/
def HalCall.chip (call : HalCall) (c : W25Q) : W25Q := if call.advances then c.advance else c

namespace Driver

/-- A call that works has its whole effect, another one perhaps a part of it. -/
def halCall (call : HalCall) (whole part : W25Q → W25Q) : Op W25Q Bool := fun c =>
  match call.status with
  | .ok => (.done true, whole (call.chip c))
  | .error => (.done false, part (call.chip c))
  | .cut => (.cut, (part (call.chip c)).powerLoss)

/-- `HAL_QSPI_Command` without data. -/
def halQspiCommand (call : HalCall) (effect : W25Q → W25Q) : Op W25Q Bool :=
  halCall call effect fun c => if call.sent then effect c else c

/-- `HAL_QSPI_AutoPolling` reports success only if the status matches. -/
def halQspiAutoPolling (call : HalCall) (matched : W25Q → Bool) : Op W25Q Bool := fun c =>
  match call.status with
  | .ok => (.done (matched (call.chip c)), call.chip c)
  | .error => (.done false, call.chip c)
  | .cut => (.cut, (call.chip c).powerLoss)

/-- `QSPI_WriteEnable`. -/
def qspiWriteEnable (enable poll : HalCall) : Op W25Q Bool := do
  if ← halQspiCommand enable W25Q.writeEnable then halQspiAutoPolling poll fun c => c.wel
  else pure false

/-- `QSPI_AutoPollingMemReady`. -/
def qspiAutoPollingMemReady (poll : HalCall) : Op W25Q Bool :=
  halQspiAutoPolling poll fun c => c.job.isNone

/-- The calls of one pass of `BSP_QSPI_Write`. If the transfer fails, `bytes` of the data
have reached the chip. -/
structure PageCalls where
  enable : HalCall
  latched : HalCall
  command : HalCall
  transmit : HalCall
  bytes : Nat
  fate : Fate
  ready : HalCall

/-- What the chip starts when `count` data bytes of a page program have come. -/
def pageJob (fate : Fate) (address count : Nat) (data : Nat → Byte) : Job where
  address := address - address % qspiPageSize
  size := qspiPageSize
  want := pageWant (address % qspiPageSize) count data
  fate := fate

/-- Without data there is no program. -/
def program (fate : Fate) (address count : Nat) (data : Nat → Byte) (c : W25Q) : W25Q :=
  if count = 0 then c else c.start (pageJob fate address count data)

/-- The body of the loop of `BSP_QSPI_Write`. -/
def writePage (calls : PageCalls) (address size : Nat) (data : Nat → Byte) : Op W25Q Bool := do
  if ← qspiWriteEnable calls.enable calls.latched then
    -- The instruction goes out with its data.
    if ← halCall calls.command id id then
      if ← halCall calls.transmit (program calls.fate address size data)
          (program calls.fate address (min calls.bytes size) data) then
        qspiAutoPollingMemReady calls.ready
      else pure false
    else pure false
  else pure false

def bspQspiWriteFrom (calls : Nat → PageCalls) (data : Nat → Byte) :
    Nat → Nat → Nat → Nat → Nat → Op W25Q Bool
  | 0, _, _, _, _ => pure true
  | passes + 1, pass, address, offset, remaining =>
    if remaining = 0 then pure true
    else
      let pageAvail := qspiPageSize - address % qspiPageSize
      let chunk := if remaining < pageAvail then remaining else pageAvail
      do
        if ← writePage (calls pass) address chunk (fun i => data (offset + i)) then
          bspQspiWriteFrom calls data passes (pass + 1) (address + chunk) (offset + chunk)
            (remaining - chunk)
        else pure false

def bspQspiWrite (calls : Nat → PageCalls) (data : Nat → Byte) (address size : Nat) :
    Op W25Q Bool :=
  bspQspiWriteFrom calls data size 0 address 0 size

/-- The calls of one try at an erase. -/
structure EraseCalls where
  enable : HalCall
  latched : HalCall
  command : HalCall
  fate : Fate
  ready : HalCall

/-- The chip erases the block that the address is in. -/
def eraseJob (fate : Fate) (address size : Nat) : Job where
  address := address - address % size
  size := size
  want := fun _ _ => 0xFF
  fate := fate

/-- The part that `BSP_QSPI_Erase_Sector` and the tries of `BSP_QSPI_Erase_Block64K` share. -/
def erase (size : Nat) (calls : EraseCalls) (address : Nat) : Op W25Q Bool := do
  if ← qspiWriteEnable calls.enable calls.latched then
    if ← halQspiCommand calls.command (W25Q.start (eraseJob calls.fate address size)) then
      qspiAutoPollingMemReady calls.ready
    else pure false
  else pure false

abbrev qspiSectorSize : Nat := 4096

def bspQspiEraseSector (calls : EraseCalls) (address : Nat) : Op W25Q Bool :=
  erase qspiSectorSize calls address

/-- Between two tries the controller is aborted, which the chip does not see. -/
def bspQspiEraseBlock64K (calls : Nat → EraseCalls) (address : Nat) : Op W25Q Bool :=
  Op.anyFrom (fun attempt => erase qspiBlock64KSize (calls attempt) address) 3 0

/-- The calls of `BSP_QSPI_Init`; the first two only concern the controller. -/
structure InitCalls where
  deInit : HalCall
  init : HalCall
  resetEnable : HalCall
  resetMemory : HalCall
  ready : HalCall
  enter4B : HalCall

def bspQspiInit (calls : InitCalls) : Op W25Q Bool := do
  if ← halCall calls.deInit id id then
    if ← halCall calls.init id id then
      if ← halQspiCommand calls.resetEnable W25Q.resetEnable then
        if ← halQspiCommand calls.resetMemory W25Q.resetMemory then
          if ← qspiAutoPollingMemReady calls.ready then
            halQspiCommand calls.enter4B W25Q.enter4BAddr
          else pure false
        else pure false
      else pure false
    else pure false
  else pure false

/-- The calls of `QSPI_Erase_Blocks`, by block. -/
structure BlocksCalls where
  first : Nat → Nat → EraseCalls
  reinit : Nat → InitCalls
  second : Nat → Nat → EraseCalls
  periodic : Nat → InitCalls

def qspiEraseOrReset (calls : BlocksCalls) (block address : Nat) : Op W25Q Bool := do
  if ← bspQspiEraseBlock64K (calls.first block) address then pure true
  else
    let _ ← bspQspiInit (calls.reinit block)
    bspQspiEraseBlock64K (calls.second block) address

def qspiErasePass (calls : BlocksCalls) (start block : Nat) : Op W25Q Bool := do
  if ← qspiEraseOrReset calls block (start + block * qspiBlock64KSize) then
    if (block + 1) % 8 = 0 then
      let _ ← bspQspiInit (calls.periodic block)
      pure true
    else pure true
  else pure false

def qspiEraseBlocks (calls : BlocksCalls) (start size : Nat) : Op W25Q Bool :=
  Op.allFrom (qspiErasePass calls start)
    ((size + qspiBlock64KSize - 1) / qspiBlock64KSize) 0

end Driver

end OtaBoot.Qspi
