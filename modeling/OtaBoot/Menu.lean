import OtaBoot.FlashWrite

set_option autoImplicit false

namespace OtaBoot

/-- Faults of `Backup_SlotA`: writes by 4096-byte chunk and page, without retry. -/
structure ManualBackupFaults where
  erase : Qspi.EraseFaults
  write : Nat → Nat → ChipFault
  record : MetaFaults

/-- One 4096-byte chunk of the manual backup. -/
def manualChunk (faults : ManualBackupFaults) (chunk : Nat) : Op Board Bool := do
  let data ← Op.gets fun b i => b.bank2 (chunk * 4096 + i)
  onNor (Qspi.bspQspiWrite (faults.write chunk) data (backupOffset + chunk * 4096) 4096)

/-- The full 1 MB of Bank 2 to the NOR backup. -/
def copySlotA (faults : ManualBackupFaults) : Op Board Bool := do
  if ← onNor (Qspi.qspiEraseBlocks faults.erase backupOffset appSize) then
    Op.allFrom (manualChunk faults) (appSize / 4096) 0
  else pure false

/-- Back Bank 2 up if its first word looks like a stack pointer; then the current
version is recorded as the rollback version. -/
def backupSlotA (faults : ManualBackupFaults) : Op Board Unit := do
  let msp ← Op.gets fun b => b.bank2.word 0
  if msp = 0xFFFFFFFF ∨ msp = 0 then pure ()
  else if ← copySlotA faults then recordBackup faults.record
  else pure ()

/-- Faults of copying the backup into Bank 2. -/
structure RestoreFaults where
  header : Status
  erase : Nat → Nat → Attempt
  read : Nat → Status
  program : Nat → Nat → Attempt

/-- The part `Restore_SlotA` and `Boot_DoRollback` share: check that the backup is
not blank, erase all eight sectors with four tries each, copy 1 MB back. -/
def restoreBank2 (faults : RestoreFaults) : Op Board Bool := do
  match ← onNor (Qspi.bspQspiRead faults.header backupOffset 4) with
  | none => pure false
  | some hdr =>
    if hdr = [0xFF, 0xFF, 0xFF, 0xFF] then pure false
    else if ← eraseBank2 4 faults.erase appSize then
      copyToBank2 faults.read faults.program backupOffset appSize
    else pure false

/-- Mark the restored version as current and confirmed. -/
def confirmRestored (faults : MetaFaults) : Op Board Bool := do
  let record ← Op.gets Board.record
  onSector1 (metadataWrite faults record.restored)

def restoreSlotA (restore : RestoreFaults) (record : MetaFaults) : Op Board Unit := do
  if ← restoreBank2 restore then
    let _ ← confirmRestored record
    pure ()
  else pure ()

/-- Bit 26 of `RCC_RSR`. -/
abbrev rccRsrIwdg1Rstf : Word := 1 <<< 26

/-- Read the watchdog flag; setting `RMVF` clears every reset flag. -/
def resetReasonIsIwdg : Op Board Bool := fun b =>
  (.done (decide (b.rsr &&& rccRsrIwdg1Rstf ≠ 0)), { b with rsr := 0 })

/-- A normal boot has not initialised the QSPI yet. -/
def ensureQspi (status : Status) : Op Board Bool := do
  if ← Op.gets Board.qspiInited then pure true
  else if ← onNor (Qspi.bspQspiInit status) then
    fun b => (.done true, { b with qspiInited := true })
  else pure false

structure BootFaults where
  init : Status
  restore : RestoreFaults
  record : MetaFaults

/-- `true` stands for the return value 0. -/
def bootDoRollback (init : Status) (faults : RestoreFaults) : Op Board Bool := do
  if ← ensureQspi init then restoreBank2 faults else pure false

/-- The boot requirement: 0 enter the menu, 1 jump with the watchdog, 2 jump. -/
def bootMetadataStep (faults : BootFaults) : Op Board Nat := do
  let record ← Op.gets Board.record
  if record.magic ≠ metadataMagic ∨ record.state = stateEmpty then pure 0
  else if record.state = statePendingUpdate then
    let _ ← onSector1 (metadataWrite faults.record { record with state := stateTesting })
    pure 1
  else if record.state = stateTesting then
    if ← resetReasonIsIwdg then
      if ← bootDoRollback faults.init faults.restore then
        let _ ← onSector1 (metadataWrite faults.record record.restored)
        pure 2
      else pure 0
    else pure 1
  else pure 2

end OtaBoot
