import OtaBoot.Lib.Chip

set_option autoImplicit false

/- The W25Q256JV driver of `bsp_qspi_flash.c` on the NOR array alone. One page
program or block erase stands for its write enable, command, transfer and status
poll: any of these may fail, and what the array then holds is the fault's. -/
namespace OtaBoot.Qspi

abbrev qspiPageSize : Nat := 256
abbrev qspiBlock64KSize : Nat := 65536

/-- Controller reset and flash reset. It never touches the array. -/
def bspQspiInit (status : Status) : Op Mem Bool := status.check

/-- A read that reports success returns the bytes of the array. -/
def bspQspiRead (status : Status) (address size : Nat) : Op Mem (Option (List Byte)) := fun m =>
  match status with
  | .ok => (.done (some (m.bytes address size)), m)
  | .error => (.done none, m)
  | .cut => (.cut, m)

/-- The byte the chip should hold at `offset` of the page after a program command
for `size` bytes at column `column`: the transfer wraps inside the page. -/
def pageWant (column size : Nat) (data : Nat → Byte) (offset : Nat) (old : Byte) : Byte :=
  let index := (offset + qspiPageSize - column) % qspiPageSize
  if index < size then old &&& data index else old

def pageProgram (fault : ChipFault) (address size : Nat) (data : Nat → Byte) : Op Mem Bool :=
  fault.command (address - address % qspiPageSize) qspiPageSize
    (pageWant (address % qspiPageSize) size data)

/-- The page loop of `BSP_QSPI_Write`. Every pass writes at least one byte, so
`Size` passes always suffice. -/
def bspQspiWriteFrom (faults : Nat → ChipFault) (data : Nat → Byte) :
    Nat → Nat → Nat → Nat → Nat → Op Mem Bool
  | 0, _, _, _, _ => pure true
  | passes + 1, pass, address, offset, remaining =>
    if remaining = 0 then pure true
    else
      let pageAvail := qspiPageSize - address % qspiPageSize
      let chunk := if remaining < pageAvail then remaining else pageAvail
      do
        if ← pageProgram (faults pass) address chunk (fun i => data (offset + i)) then
          bspQspiWriteFrom faults data passes (pass + 1) (address + chunk) (offset + chunk)
            (remaining - chunk)
        else pure false

def bspQspiWrite (faults : Nat → ChipFault) (data : Nat → Byte) (address size : Nat) :
    Op Mem Bool :=
  bspQspiWriteFrom faults data size 0 address 0 size

/-- Three tries; a failed one only aborts the controller before the next. -/
def bspQspiEraseBlock64K (faults : Nat → ChipFault) (address : Nat) : Op Mem Bool :=
  Op.anyFrom (fun attempt =>
    (faults attempt).command address qspiBlock64KSize fun _ _ => 0xFF) 3 0

/-- Faults of a batch erase, by block index. -/
structure EraseFaults where
  first : Nat → Nat → ChipFault
  reinit : Nat → Status
  second : Nat → Nat → ChipFault
  periodic : Nat → Status

namespace EraseFaults

def clean : EraseFaults :=
  ⟨fun _ _ => .clean, fun _ => .ok, fun _ _ => .clean, fun _ => .ok⟩

/-- Every block erase that reports success erased its block. -/
def Sound (faults : EraseFaults) : Prop :=
  (∀ block k, (faults.first block k).Sound) ∧ ∀ block k, (faults.second block k).Sound

end EraseFaults

/-- Erase a block; on failure reset the controller, whatever that reports, and
erase once more. -/
def qspiEraseOrReset (faults : EraseFaults) (block address : Nat) : Op Mem Bool := do
  if ← bspQspiEraseBlock64K (faults.first block) address then pure true
  else
    let _ ← bspQspiInit (faults.reinit block)
    bspQspiEraseBlock64K (faults.second block) address

/-- One pass of `QSPI_Erase_Blocks`; the controller is also reset after every
eighth block. -/
def qspiErasePass (faults : EraseFaults) (start block : Nat) : Op Mem Bool := do
  if ← qspiEraseOrReset faults block (start + block * qspiBlock64KSize) then
    if (block + 1) % 8 = 0 then
      let _ ← bspQspiInit (faults.periodic block)
      pure true
    else pure true
  else pure false

def qspiEraseBlocks (faults : EraseFaults) (start size : Nat) : Op Mem Bool :=
  Op.allFrom (qspiErasePass faults start)
    ((size + qspiBlock64KSize - 1) / qspiBlock64KSize) 0

end OtaBoot.Qspi
