import OtaBoot.Qspi
import OtaBoot.Metadata

set_option autoImplicit false

namespace OtaBoot

/-- 0x08100000: Bank 2, the 1 MB App area. Its addresses below are offsets. -/
abbrev appSize : Nat := 0x100000
/-- NOR offset of the backup area. -/
abbrev backupOffset : Nat := 0x200000

/-- The part of the device the bootloader's flash code works on: the three flash
areas, the reset flags and the RAM flag `qspi_inited`. -/
structure Board where
  bank2 : Mem
  sector1 : Mem
  nor : Mem
  rsr : Word
  qspiInited : Bool

namespace Board

/-- The record `Metadata_Read` returns now. -/
def record (b : Board) : Metadata := metadataRead b.sector1

def eraseSector (sector : Nat) (b : Board) : Board :=
  { b with bank2 := b.bank2.erase (sector * sectorSize) sectorSize }

def programWord (offset : Nat) (data : Nat → Byte) (b : Board) : Board :=
  { b with bank2 := b.bank2.program offset flashWord data }

-- Stated for any memory: by `rfl` at an erased or programmed one, the kernel would
-- first compare the memories byte by byte.
theorem bank2_withNor (b : Board) (m : Mem) : Board.bank2 { b with nor := m } = b.bank2 := rfl

theorem record_withNor (b : Board) (m : Mem) : Board.record { b with nor := m } = b.record := rfl

end Board

def onNor {α : Type} (c : Op Mem α) : Op Board α :=
  Op.zoom Board.nor (fun b m => { b with nor := m }) c

def onSector1 {α : Type} (c : Op Mem α) : Op Board α :=
  Op.zoom Board.sector1 (fun b m => { b with sector1 := m }) c

/-- Erase the Bank 2 sectors that start below `limit`, each with up to `budget`
tries. The source leaves the loop at the first sector past the limit. -/
def eraseBank2 (budget : Nat) (tries : Nat → Nat → Attempt) (limit : Nat) : Op Board Bool :=
  Op.allFrom (fun sector =>
    if sector * sectorSize ≥ limit then pure true
    else Op.anyFrom (fun k => (tries sector k).perform (Board.eraseSector sector)) budget 0) 8 0

/-- A flash word buffer: `memset` to 0xFF, then the bytes that were read. -/
def wordBuffer (data : List Byte) : Nat → Byte := fun i => data.getD i 0xFF

/-- One pass of the copy loop: read up to 32 bytes from the NOR, program them with
up to three tries. -/
def copyPass (reads : Nat → Status) (programs : Nat → Nat → Attempt) (source size k : Nat) :
    Op Board Bool := do
  let offset := k * flashWord
  let chunk := if size - offset ≥ flashWord then flashWord else size - offset
  match ← onNor (Qspi.bspQspiRead (reads k) (source + offset) chunk) with
  | none => pure false
  | some data =>
    Op.anyFrom (fun t => (programs k t).perform (Board.programWord offset (wordBuffer data))) 3 0

/-- Copy `size` bytes from NOR offset `source` to the start of Bank 2. Pass `k`
has `off = 32 k` and `remain = size - off`. -/
def copyToBank2 (reads : Nat → Status) (programs : Nat → Nat → Attempt) (source size : Nat) :
    Op Board Bool :=
  Op.allFrom (copyPass reads programs source size) ((size + flashWord - 1) / flashWord) 0

/-- The backed-up version becomes the rollback version. -/
def Metadata.backedUp (record : Metadata) : Metadata :=
  { record with
    bakMajor := record.curMajor
    bakMinor := record.curMinor
    bakPatch := record.curPatch
    bakCrc32 := record.crc32
    bakFwSize := record.fwSize }

/-- The rollback version becomes the current one. -/
def Metadata.restored (record : Metadata) : Metadata :=
  { record with
    curMajor := record.bakMajor
    curMinor := record.bakMinor
    curPatch := record.bakPatch
    crc32 := record.bakCrc32
    fwSize := record.bakFwSize
    state := stateConfirmed }

end OtaBoot
