import OtaBoot.UpdateRun
import OtaBoot.MetadataAtomic
import OtaBoot.Lib.Trace

set_option autoImplicit false

namespace OtaBoot

open Mem

/-- No operation of the update fails for good, as far as the result shows: the write
of the backup record only has to return. -/
structure UpdateFaults.Returns0 (faults : UpdateFaults) (size : Nat) : Prop where
  backup : faults.backup.Completes
  recordBackup : faults.recordBackup.exit ≠ .cut
  slot : faults.WritesSlot size
  publish : faults.publish.exit = .done true

theorem recordBackup_run (faults : MetaFaults) (b : Board) :
    recordBackup faults b =
      (match faults.exit with
        | .done _ => .done ()
        | .cut => .cut, b.recorded faults) := by
  unfold recordBackup
  rw [Op.gets_bind_run, Op.bind_run, recordWrite_run]
  generalize faults.exit = ending
  cases ending <;> rfl

theorem installImage_succeeds (faults : UpdateFaults) (update : Update) :
    Op.Succeeds (installImage faults update)
      (faults.WritesSlot update.received ∧ faults.publish.exit = .done true) := by
  apply (writeSlot_succeeds faults update.received).and
  intro b
  rw [publishPending_run]

/-- `OTA_Flash_Write` returns 0 whatever becomes of its first metadata write. -/
theorem otaFlashWrite_succeeds (faults : UpdateFaults) (update : Update) :
    Op.Succeeds (otaFlashWrite faults update) (faults.Returns0 update.received) := by
  have rest : Op.Succeeds (do
      recordBackup faults.recordBackup
      installImage faults update) (faults.recordBackup.exit ≠ .cut ∧
        faults.WritesSlot update.received ∧ faults.publish.exit = .done true) := by
    intro b
    have install := installImage_succeeds faults update (b.recorded faults.recordBackup)
    have record := recordBackup_run faults.recordBackup b
    generalize faults.recordBackup.exit = ending at record
    cases ending with
    | cut =>
        rw [Op.bind_run_cut _ _ _ _ record]
        simp
    | done ok =>
        rw [Op.bind_run_done _ _ _ _ _ record, install]
        simp
  have whole := (backupOldSlot_succeeds faults.backup).and rest
  intro b
  have run := whole b
  unfold otaFlashWrite
  rw [run]
  exact ⟨fun all => ⟨all.1, all.2.1, all.2.2.1, all.2.2.2⟩,
    fun all => ⟨all.backup, all.recordBackup, all.slot, all.publish⟩⟩

theorem keeps_writeSlot (faults : UpdateFaults) (size : Nat) :
    Op.Keeps Board.sector1 (writeSlot faults size) := by
  apply (keeps_eraseBank2 (fun _ _ => rfl) _ _ _).bind
  intro ok
  exact (keeps_copyToBank2 (fun _ _ => rfl) (fun _ _ => rfl) _ _ _ _).ite (Op.keeps_pure false)

theorem installImage_record (faults : UpdateFaults) (update : Update) (b : Board)
    (success : (installImage faults update b).1 = .done true) :
    (installImage faults update b).2.record = (b.record.pending update).sealed := by
  have all := (installImage_succeeds faults update b).mp success
  have kept := keeps_writeSlot faults update.received b
  have slot := (writeSlot_succeeds faults update.received b).mpr all.1
  unfold installImage
  generalize run : writeSlot faults update.received b = result at kept slot
  obtain ⟨ending, t⟩ := result
  simp only at kept slot
  subst slot
  have record : t.record = b.record := by
    unfold Board.record
    rw [kept]
  rw [Op.bind_run_done _ _ _ _ _ run]
  simp only [↓reduceIte]
  rw [publishPending_run, faults.publish.stage_of_exit all.2, record]
  exact metadataRead_full _ _

/-- The record a successful update leaves is made from what its first metadata write
left, whatever the commands to the NOR did. -/
theorem otaFlashWrite_record (faults : UpdateFaults) (update : Update) (b : Board)
    (success : (otaFlashWrite faults update b).1 = .done true) :
    (otaFlashWrite faults update b).2.record =
      ((metadataRead (faults.recordBackup.stage.memory b.record.backedUp b.sector1)).pending
        update).sealed := by
  have all := (otaFlashWrite_succeeds faults update b).mp success
  have kept : (backupOldSlot faults.backup b).2.sector1 = b.sector1 :=
    keeps_backupOldSlot (fun _ _ => rfl) faults.backup b
  have backup := (backupOldSlot_succeeds faults.backup b).mpr all.backup
  unfold otaFlashWrite at success ⊢
  generalize run : backupOldSlot faults.backup b = result at kept backup
  obtain ⟨ending, t⟩ := result
  simp only at kept backup
  subst backup
  have read : t.record = b.record := by
    unfold Board.record
    rw [kept]
  have recorded : (t.recorded faults.recordBackup).record =
      metadataRead (faults.recordBackup.stage.memory b.record.backedUp b.sector1) := by
    unfold Board.recorded Board.record at *
    simp only
    rw [kept]
  have record := recordBackup_run faults.recordBackup t
  have returned := all.recordBackup
  generalize faults.recordBackup.exit = ending at record returned
  cases ending with
  | cut => exact absurd rfl returned
  | done ok =>
      rw [Op.bind_run_done _ _ _ _ _ run] at success ⊢
      simp only [↓reduceIte] at success ⊢
      rw [Op.bind_run_done _ _ _ _ _ record] at success ⊢
      rw [installImage_record _ _ _ success, recorded]

/-- The rollback fields of `stored` are the current fields of `old`. -/
structure Metadata.BacksUp (stored old : Metadata) : Prop where
  major : stored.bakMajor = old.curMajor
  minor : stored.bakMinor = old.curMinor
  patch : stored.bakPatch = old.curPatch
  crc32 : stored.bakCrc32 = old.crc32
  fwSize : stored.bakFwSize = old.fwSize

/-- The write of the backup record stores it, or what it leaves happens to be the
current version already: the old record, zeros, or ones from the second flash word on. -/
def MetaStage.RecordsBackup (stage : MetaStage) (record : Metadata) : Prop :=
  match stage with
  | .full => True
  | .unchanged => record.BacksUp record
  | .erased => record.curMajor = 0 ∧ record.curMinor = 0 ∧ record.curPatch = 0 ∧
      record.crc32 = 0 ∧ record.fwSize = 0
  | .half => record.curMinor = 0xFFFFFFFF ∧ record.curPatch = 0xFFFFFFFF ∧
      record.crc32 = 0xFFFFFFFF ∧ record.fwSize = 0xFFFFFFFF

theorem recordsBackup_iff (stage : MetaStage) (m : Mem) :
    (metadataRead (stage.memory (metadataRead m).backedUp m)).BacksUp (metadataRead m) ↔
      stage.RecordsBackup (metadataRead m) := by
  generalize old : metadataRead m = record
  cases stage with
  | full =>
      rw [metadataRead_full]
      exact ⟨fun _ => trivial, fun _ => ⟨rfl, rfl, rfl, rfl, rfl⟩⟩
  | unchanged =>
      simp only [MetaStage.memory, old]
      exact Iff.rfl
  | erased =>
      rw [metadataRead_erased]
      constructor
      · intro backs
        exact ⟨backs.major.symm, backs.minor.symm, backs.patch.symm, backs.crc32.symm,
          backs.fwSize.symm⟩
      · rintro ⟨major, minor, patch, crc32, fwSize⟩
        exact ⟨major.symm, minor.symm, patch.symm, crc32.symm, fwSize.symm⟩
  | half =>
      rw [metadataRead_half]
      constructor
      · intro backs
        exact ⟨backs.minor.symm, backs.patch.symm, backs.crc32.symm, backs.fwSize.symm⟩
      · rintro ⟨minor, patch, crc32, fwSize⟩
        exact ⟨rfl, minor.symm, patch.symm, crc32.symm, fwSize.symm⟩

theorem pending_backsUp (record old : Metadata) (update : Update) :
    (record.pending update).sealed.BacksUp old ↔ record.BacksUp old :=
  ⟨fun backs => ⟨backs.major, backs.minor, backs.patch, backs.crc32, backs.fwSize⟩,
    fun backs => ⟨backs.major, backs.minor, backs.patch, backs.crc32, backs.fwSize⟩⟩

/-- A returned 0 means that the version in use before is recorded as the backup exactly
if the write of the backup record, which is not checked, stored it. -/
theorem otaFlashWrite_backsUp_iff (faults : UpdateFaults) (update : Update) (b : Board) :
    ((otaFlashWrite faults update b).1 = .done true →
      (otaFlashWrite faults update b).2.record.BacksUp b.record) ↔
    (faults.Returns0 update.received → faults.recordBackup.stage.RecordsBackup b.record) := by
  have stored : (otaFlashWrite faults update b).1 = .done true →
      ((otaFlashWrite faults update b).2.record.BacksUp b.record ↔
        faults.recordBackup.stage.RecordsBackup b.record) := by
    intro success
    rw [otaFlashWrite_record faults update b success, pending_backsUp]
    exact recordsBackup_iff faults.recordBackup.stage b.sector1
  rw [otaFlashWrite_succeeds faults update b] at stored ⊢
  constructor
  · intro backs returns
    exact (stored returns).mp (backs returns)
  · intro records returns
    exact (stored returns).mpr (records returns)

/-- The sector of the record cannot be erased while the backup is recorded. -/
def UpdateFaults.recordLost : UpdateFaults :=
  { UpdateFaults.clean with recordBackup := ⟨fun _ => .failed false, fun _ _ => .ok⟩ }

/-- A confirmed device that runs version 1.0.0 and has no backup yet. -/
def unbackedBoard : Board :=
  Board.holding { Metadata.fresh with state := stateConfirmed, curMajor := 1 } (fun _ => 0x11)
    (fun _ => 0x22)

/-- The update to version 2.0.0 returns 0 and the backup is recorded as 0.0.0. -/
theorem update_loses_backup_record :
    (otaFlashWrite .recordLost ⟨1, 0, 2, 0, 0⟩ unbackedBoard).1 = .done true ∧
      unbackedBoard.record.curMajor = 1 ∧
      (otaFlashWrite .recordLost ⟨1, 0, 2, 0, 0⟩ unbackedBoard).2.record.bakMajor = 0 ∧
      ¬ ((otaFlashWrite .recordLost ⟨1, 0, 2, 0, 0⟩ unbackedBoard).1 = .done true →
        (otaFlashWrite .recordLost ⟨1, 0, 2, 0, 0⟩ unbackedBoard).2.record.BacksUp
          unbackedBoard.record) := by
  have slot := UpdateFaults.clean_writesSlot 1
  have returns : UpdateFaults.recordLost.Returns0 1 :=
    ⟨BackupFaults.clean_completes, by decide, ⟨slot.erase, slot.copy⟩, by decide⟩
  have success := (otaFlashWrite_succeeds .recordLost ⟨1, 0, 2, 0, 0⟩ unbackedBoard).mpr returns
  have read : unbackedBoard.record =
      Metadata.sealed { Metadata.fresh with state := stateConfirmed, curMajor := 1 } :=
    Board.holding_record _ _ _
  have current : unbackedBoard.record.curMajor = 1 := by
    rw [read]
    rfl
  have stage : UpdateFaults.recordLost.recordBackup.stage = .unchanged := by decide
  have lost := otaFlashWrite_record .recordLost ⟨1, 0, 2, 0, 0⟩ unbackedBoard success
  have old : metadataRead unbackedBoard.sector1 = unbackedBoard.record := rfl
  simp only [stage, MetaStage.memory, old, read] at lost
  generalize otaFlashWrite .recordLost ⟨1, 0, 2, 0, 0⟩ unbackedBoard = run at success lost
  have none : run.2.record.bakMajor = 0 := by
    rw [lost]
    rfl
  refine ⟨success, current, none, ?_⟩
  intro backs
  have major := (backs success).major
  rw [none, current] at major
  exact absurd major (by decide)

end OtaBoot
