import OtaBoot.Lib.Memory
import OtaBoot.Lib.Attempts

set_option autoImplicit false

namespace OtaBoot

abbrev metadataMagic : Word := 0x4D455441
abbrev stateEmpty : Word := 0xFFFFFFFF
abbrev statePendingUpdate : Word := 0x50454E44
abbrev stateTesting : Word := 0x54455354
abbrev stateConfirmed : Word := 0x434F4E46

/-- The sixteen words of the record. The first seven are where `metadata.h` puts
them, with `cur_*` for `version_*`; the eight words that `ota.c` and `menu.c` also
access are taken from the front of `reserved`. -/
structure Metadata where
  magic : Word
  state : Word
  curMajor : Word
  curMinor : Word
  curPatch : Word
  crc32 : Word
  fwSize : Word
  bakMajor : Word
  bakMinor : Word
  bakPatch : Word
  bakCrc32 : Word
  bakFwSize : Word
  otaMajor : Word
  otaMinor : Word
  otaPatch : Word
  reserved : Word
  deriving DecidableEq

namespace Metadata

def words (record : Metadata) : Nat → Word
  | 0 => record.magic
  | 1 => record.state
  | 2 => record.curMajor
  | 3 => record.curMinor
  | 4 => record.curPatch
  | 5 => record.crc32
  | 6 => record.fwSize
  | 7 => record.bakMajor
  | 8 => record.bakMinor
  | 9 => record.bakPatch
  | 10 => record.bakCrc32
  | 11 => record.bakFwSize
  | 12 => record.otaMajor
  | 13 => record.otaMinor
  | 14 => record.otaPatch
  | 15 => record.reserved
  | _ => 0

/-- The bytes of the record as the compiler lays it out. -/
def image (record : Metadata) : Mem := wordsImage record.words

/-- `memcpy(meta, METADATA_ADDR, sizeof(*meta))`. -/
def ofBytes (m : Mem) : Metadata where
  magic := m.word 0
  state := m.word 4
  curMajor := m.word 8
  curMinor := m.word 12
  curPatch := m.word 16
  crc32 := m.word 20
  fwSize := m.word 24
  bakMajor := m.word 28
  bakMinor := m.word 32
  bakPatch := m.word 36
  bakCrc32 := m.word 40
  bakFwSize := m.word 44
  otaMajor := m.word 48
  otaMinor := m.word 52
  otaPatch := m.word 56
  reserved := m.word 60

/-- What `Metadata_Read` assigns when the stored magic is wrong. -/
def fresh : Metadata where
  magic := metadataMagic
  state := stateEmpty
  curMajor := 0
  curMinor := 0
  curPatch := 0
  crc32 := 0
  fwSize := 0
  bakMajor := 0
  bakMinor := 0
  bakPatch := 0
  bakCrc32 := 0
  bakFwSize := 0
  otaMajor := 0
  otaMinor := 0
  otaPatch := 0
  reserved := 0

/-- `Metadata_Write` sets the magic before it copies the record. -/
def sealed (record : Metadata) : Metadata := { record with magic := metadataMagic }

end Metadata

def metadataRead (m : Mem) : Metadata :=
  let record := Metadata.ofBytes m
  if record.magic ≠ metadataMagic then Metadata.fresh else record

/-- Faults of one `Metadata_Write`: tries of the sector erase, and of the program
of each of the two flash words. -/
structure MetaFaults where
  erase : Nat → Attempt
  program : Nat → Nat → Attempt

abbrev sectorSize : Nat := 131072
abbrev flashWord : Nat := 32

def MetaFaults.clean : MetaFaults := ⟨fun _ => .ok, fun _ _ => .ok⟩

/-- Erase of sector 1, up to ten tries. -/
def metadataErase (faults : MetaFaults) : Op Mem Bool :=
  Op.anyFrom (fun k => (faults.erase k).perform fun m => m.erase 0 sectorSize) 10 0

/-- Program flash word `i` of the record, up to three tries. -/
def metadataProgram (faults : MetaFaults) (record : Metadata) (i : Nat) : Op Mem Bool :=
  Op.anyFrom (fun k => (faults.program i k).perform fun m =>
    m.program (i * flashWord) flashWord fun j => record.image (i * flashWord + j)) 3 0

/-- The read-back `memcmp`. -/
def metadataVerify (record : Metadata) : Op Mem Bool := fun m =>
  (.done (decide (m.bytes 0 64 = record.image.bytes 0 64)), m)

/-- `true` stands for the return value 0, `false` for -1. -/
def metadataWrite (faults : MetaFaults) (record : Metadata) : Op Mem Bool := do
  if ← metadataErase faults then
    if ← Op.allFrom (metadataProgram faults record.sealed) 2 0 then
      metadataVerify record.sealed
    else pure false
  else pure false

end OtaBoot
