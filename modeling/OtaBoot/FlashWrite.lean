import OtaBoot.Board

set_option autoImplicit false

namespace OtaBoot

/-- Faults of the backup in step 1: the batch erase; for each 64-byte chunk the
reset every 128 KB, three write tries with a reset after each failed one, and the
reset before giving up. -/
structure BackupFaults where
  erase : Qspi.EraseFaults
  periodic : Nat → Status
  write : Nat → Nat → Nat → ChipFault
  reinit : Nat → Nat → Status
  giveUp : Nat → Status

structure UpdateFaults where
  backup : BackupFaults
  recordBackup : MetaFaults
  erase : Nat → Nat → Attempt
  read : Nat → Status
  program : Nat → Nat → Attempt
  publish : MetaFaults

/-- What `OTA_Flash_Write` takes from the receiver and from the version check. -/
structure Update where
  received : Nat
  crcExpected : Word
  major : Word
  minor : Word
  patch : Word

/-- A controller reset whose result is ignored. -/
def resetQspi (status : Status) : Op Board Unit := do
  let _ ← onNor (Qspi.bspQspiInit status)
  pure ()

/-- One try at a chunk, followed by a reset if it fails. -/
def backupTry (faults : BackupFaults) (chunk : Nat) (data : Nat → Byte) (attempt : Nat) :
    Op Board Bool := do
  if ← onNor (Qspi.bspQspiWrite (faults.write chunk attempt) data (backupOffset + chunk * 64) 64)
  then pure true
  else
    resetQspi (faults.reinit chunk attempt)
    pure false

def backupChunk (faults : BackupFaults) (chunk : Nat) : Op Board Bool := do
  if chunk * 64 ≠ 0 ∧ chunk * 64 % (128 * 1024) = 0 then resetQspi (faults.periodic chunk)
  let data ← Op.gets fun b i => b.bank2 (chunk * 64 + i)
  if ← Op.anyFrom (backupTry faults chunk data) 3 0 then pure true
  else
    resetQspi (faults.giveUp chunk)
    pure false

/-- Step 1 up to "Backup OK". -/
def backupOldSlot (faults : BackupFaults) : Op Board Bool := do
  if ← onNor (Qspi.qspiEraseBlocks faults.erase backupOffset appSize) then
    Op.allFrom (backupChunk faults) (appSize / 64) 0
  else pure false

/-- Record the version just backed up. The result of the write is ignored. -/
def recordBackup (faults : MetaFaults) : Op Board Unit := do
  let record ← Op.gets Board.record
  let _ ← onSector1 (metadataWrite faults record.backedUp)
  pure ()

/-- The record step 3 stores. -/
def Metadata.pending (record : Metadata) (update : Update) : Metadata :=
  { record with
    otaMajor := update.major
    curMajor := update.major
    otaMinor := update.minor
    curMinor := update.minor
    otaPatch := update.patch
    curPatch := update.patch
    crc32 := update.crcExpected
    fwSize := BitVec.ofNat 32 update.received
    state := statePendingUpdate }

def publishPending (faults : MetaFaults) (update : Update) : Op Board Bool := do
  let record ← Op.gets Board.record
  onSector1 (metadataWrite faults (record.pending update))

/-- Step 2: only the sectors the image needs are erased. -/
def writeSlot (faults : UpdateFaults) (size : Nat) : Op Board Bool := do
  if ← eraseBank2 8 faults.erase size then copyToBank2 faults.read faults.program 0 size
  else pure false

/-- Steps 2 and 3. -/
def installImage (faults : UpdateFaults) (update : Update) : Op Board Bool := do
  if ← writeSlot faults update.received then publishPending faults.publish update
  else pure false

/-- `true` stands for the return value 0, `false` for 1. -/
def otaFlashWrite (faults : UpdateFaults) (update : Update) : Op Board Bool := do
  if ← backupOldSlot faults.backup then
    recordBackup faults.recordBackup
    installImage faults update
  else pure false

end OtaBoot
