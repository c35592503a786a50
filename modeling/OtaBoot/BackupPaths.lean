import OtaBoot.KnownGood
import OtaBoot.UpdateResult

set_option autoImplicit false

namespace OtaBoot

open Mem

/-- Step 1 of `OTA_Flash_Write`: the backup and the record of its version. -/
def backupStep (backup : BackupFaults) (record : MetaFaults) : Op Board Bool := do
  if ← backupOldSlot backup then
    recordBackup record
    pure true
  else pure false

theorem otaFlashWrite_backupStep (faults : UpdateFaults) (update : Update) :
    otaFlashWrite faults update = (do
      if ← backupStep faults.backup faults.recordBackup then installImage faults update
      else pure false) := by
  unfold otaFlashWrite backupStep
  rw [Op.bind_assoc]
  congr 1
  funext backed
  cases backed with
  | false => rfl
  | true =>
      simp only [↓reduceIte]
      rw [Op.bind_assoc]
      rfl

/-- The board with Bank 2 in the backup area and its version in the rollback fields. -/
def Board.backupRecorded (b : Board) : Board := b.backedUp.recorded .clean

theorem Board.recorded_of_exit {faults : MetaFaults} (stored : faults.exit = .done true)
    (b : Board) : b.recorded faults = b.recorded .clean := by
  have clean : MetaFaults.clean.exit = .done true := by decide
  unfold Board.recorded
  rw [faults.stage_of_exit stored, MetaFaults.clean.stage_of_exit clean]

theorem recordBackup_of_exit {faults : MetaFaults} (stored : faults.exit = .done true)
    (b : Board) : recordBackup faults b = (.done (), b.recorded .clean) := by
  rw [recordBackup_run, stored, b.recorded_of_exit stored]

theorem Board.backupRecorded_record (b : Board) : b.backupRecorded.record = b.record.backedUp := by
  have clean : MetaFaults.clean.exit = .done true := by decide
  have magic : b.record.backedUp.magic = metadataMagic := metadataRead_magic b.sector1
  exact MetaFaults.metadataRead_of_exit clean magic b.sector1

/-- What succeeds and ends at `b.backedUp` when it does, ends there. -/
theorem backedUp_run {copy : Op Board Bool} {completes : Prop} (b : Board)
    (succeeds : Op.Succeeds copy completes) (all : completes)
    (ensures : Op.Ensures copy b (fun ok t => OnlyBackup b t ∧ (ok = true → t = b.backedUp))
      (fun t => OnlyBackup b t)) : copy b = (.done true, b.backedUp) := by
  have ending := (succeeds b).mpr all
  have reached := Op.ensures_of_run ensures (Prod.ext ending rfl)
  exact Prod.ext ending (reached.2 rfl)

theorem backupSlotA_run {faults : ManualBackupFaults} (physical : faults.Physical)
    (completes : faults.Completes) (stored : faults.record.exit = .done true) {b : Board}
    (valid : ¬ b.NoApp) : backupSlotA faults b = (.done (), b.backupRecorded) := by
  have copy := backedUp_run b (copySlotA_succeeds faults) completes
    (copySlotA_ensures faults physical b)
  have go : ¬ (b.bank2.word 0 = 0xFFFFFFFF ∨ b.bank2.word 0 = 0) := valid
  unfold backupSlotA
  rw [Op.gets_bind_run, if_neg go, Op.bind_run_done _ _ _ _ _ copy]
  exact recordBackup_of_exit stored b.backedUp

theorem backupStep_run {faults : BackupFaults} (physical : faults.Physical)
    (completes : faults.Completes) {record : MetaFaults} (stored : record.exit = .done true)
    (b : Board) : backupStep faults record b = (.done true, b.backupRecorded) := by
  have copy := backedUp_run b (backupOldSlot_succeeds faults) completes
    (backupOldSlot_ensures faults physical b)
  unfold backupStep
  rw [Op.bind_run_done _ _ _ _ _ copy]
  simp only [↓reduceIte]
  rw [Op.bind_run_done _ _ _ _ _ (recordBackup_of_exit stored b.backedUp)]
  rfl

/-- Backups that run to their end, chunk by chunk of 4096 bytes or of 64 with retries and
resets, leave the same board. -/
theorem backup_paths_agree (manual : ManualBackupFaults) (update : BackupFaults)
    (record : MetaFaults) (b : Board) (valid : ¬ b.NoApp)
    (manualPhysical : manual.Physical) (manualCompletes : manual.Completes)
    (manualStored : manual.record.exit = .done true)
    (updatePhysical : update.Physical) (updateCompletes : update.Completes)
    (updateStored : record.exit = .done true) :
    ∃ t, backupSlotA manual b = (.done (), t) ∧ backupStep update record b = (.done true, t) ∧
      (∀ i < appSize, t.nor (backupOffset + i) = b.bank2 i) ∧
      Framed b.nor t.nor backupOffset (backupOffset + appSize) ∧
      t.bank2 = b.bank2 ∧ t.record = b.record.backedUp := by
  refine ⟨b.backupRecorded, backupSlotA_run manualPhysical manualCompletes manualStored valid,
    backupStep_run updatePhysical updateCompletes updateStored b, ?_, ?_, ?_, ?_⟩
  · intro i inside
    exact b.backedUp_nor i inside
  · exact b.backedUp_only.frame
  · exact b.backedUp_bank2
  · exact b.backupRecorded_record

/-- An application in Bank 2, an old backup in the NOR and no record yet. -/
def installedBoard : Board := ⟨fun _ => 0x11, fun _ => 0xFF, fun _ => 0x22, 0, true⟩

theorem backup_paths_agree_installed :
    ∃ t, backupSlotA .clean installedBoard = (.done (), t) ∧
      backupStep .clean .clean installedBoard = (.done true, t) ∧
      t.nor backupOffset = 0x11 ∧ t.nor 0 = 0x22 := by
  have valid : ¬ installedBoard.NoApp := by decide
  obtain ⟨t, manual, update, copied, kept, _, _⟩ := backup_paths_agree .clean .clean .clean
    installedBoard valid ManualBackupFaults.clean_physical ManualBackupFaults.clean_completes
    (by decide) BackupFaults.clean_physical BackupFaults.clean_completes (by decide)
  exact ⟨t, manual, update, copied 0 (by decide), kept 0 (by decide)⟩

end OtaBoot
