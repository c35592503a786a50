import OtaBoot.RollbackRun
import OtaBoot.UpdateRun

set_option autoImplicit false

namespace OtaBoot

open Mem

theorem pendingStep_run (faults : BootFaults) (record : Metadata) (b : Board) :
    pendingStep faults record b =
      (match faults.record.exit with
        | .done _ => .done 1
        | .cut => .cut,
       { b with sector1 :=
          faults.record.stage.memory { record with state := stateTesting } b.sector1 }) := by
  unfold pendingStep
  rw [Op.bind_run, recordWrite_run]
  generalize faults.record.exit = ending
  cases ending <;> rfl

/-- No operation of the boot step fails. -/
def BootFaults.clean : BootFaults := ⟨.ok, .clean, .clean⟩

theorem bootBranch_pending (b : Board) (cause : ResetCause)
    (pending : b.record.state = statePendingUpdate) : (b.reset cause).bootBranch = .pending := by
  have kept : (b.reset cause).record.state = statePendingUpdate := pending
  unfold Board.bootBranch
  rw [kept]
  simp [stateEmpty, statePendingUpdate]

/-- The first boot of a new image starts its trial. -/
theorem boot_pending (b : Board) (cause : ResetCause)
    (pending : b.record.state = statePendingUpdate) :
    ((Boot.mk cause .clean).run b).1 = .done 1 ∧
      ((Boot.mk cause .clean).run b).2.bank2 = b.bank2 ∧
      ((Boot.mk cause .clean).run b).2.nor = b.nor ∧
      ((Boot.mk cause .clean).run b).2.record =
        Metadata.sealed { b.record with state := stateTesting } := by
  have branch := bootBranch_pending b cause pending
  unfold Boot.run
  rw [bootMetadataStep_run]
  simp only [branch]
  rw [pendingStep_run]
  exact ⟨rfl, rfl, rfl, metadataRead_full _ _⟩

/-- A flagged watchdog reset during the trial brings the backup back. -/
theorem boot_rollback (b : Board) (cause : ResetCause) (flagged : (b.reset cause).watchdog)
    (testing : b.record.state = stateTesting) (present : ¬ b.backupBlank) :
    ((Boot.mk cause .clean).run b).1 = .done 2 ∧
      (∀ i < appSize, ((Boot.mk cause .clean).run b).2.bank2 i = b.nor (backupOffset + i)) ∧
      ((Boot.mk cause .clean).run b).2.record = b.record.restored.sealed := by
  have branch := bootBranch_testing b cause testing
  rw [if_pos flagged] at branch
  have completed : ((Boot.mk cause .clean).attempt b).1 = .done true :=
    ((completes_iff (Boot.mk cause .clean) b).mpr
      ⟨branch, rfl, present, RestoreFaults.clean_completes⟩).2
  have restored := attempt_bank2 (Boot.mk cause .clean) b completed
  have run := rollbackStep_completed .clean b.record { b.reset cause with rsr := 0 } completed
  have step : (Boot.mk cause .clean).run b =
      rollbackStep .clean b.record { b.reset cause with rsr := 0 } := by
    unfold Boot.run
    rw [bootMetadataStep_run]
    simp only [branch]
    rfl
  rw [step, run]
  exact ⟨rfl, restored, metadataRead_full _ _⟩

/-- The fields of the record before an update come back with the restored version. -/
theorem Metadata.restored_pending (record : Metadata) (update : Update) :
    let after := (Metadata.restored (Metadata.sealed
      { (record.backedUp.sealed.pending update).sealed with state := stateTesting })).sealed
    after.curMajor = record.curMajor ∧ after.curMinor = record.curMinor ∧
      after.curPatch = record.curPatch ∧ after.crc32 = record.crc32 ∧
      after.fwSize = record.fwSize ∧ after.state = stateConfirmed :=
  ⟨rfl, rfl, rfl, rfl, rfl, rfl⟩

/-- An update, the first boot and the boot after a hang, taken together, left the
device as it was. -/
structure Unharmed (b : Board) (updated : Exit Bool × Board) (trial final : Exit Nat × Board) :
    Prop where
  written : updated.1 = .done true
  watched : trial.1 = .done 1
  jumped : final.1 = .done 2
  bank2 : ∀ i < appSize, final.2.bank2 i = b.bank2 i
  curMajor : final.2.record.curMajor = b.record.curMajor
  curMinor : final.2.record.curMinor = b.record.curMinor
  curPatch : final.2.record.curPatch = b.record.curPatch
  crc32 : final.2.record.crc32 = b.record.crc32
  fwSize : final.2.record.fwSize = b.record.fwSize
  state : final.2.record.state = stateConfirmed

theorem unharmed_of_steps (b : Board) (update : Update) (updated : Exit Bool × Board)
    (trial final : Exit Nat × Board)
    (present : b.bank2.bytes 0 4 ≠ [0xFF, 0xFF, 0xFF, 0xFF])
    (first : updated.1 = .done true ∧ Installed update.received b updated.2 ∧
      updated.2.record = (b.record.backedUp.sealed.pending update).sealed)
    (second : updated.2.record.state = statePendingUpdate → trial.1 = .done 1 ∧
      trial.2.bank2 = updated.2.bank2 ∧ trial.2.nor = updated.2.nor ∧
      trial.2.record = Metadata.sealed { updated.2.record with state := stateTesting })
    (third : trial.2.record.state = stateTesting → ¬ trial.2.backupBlank →
      final.1 = .done 2 ∧ (∀ i < appSize, final.2.bank2 i = trial.2.nor (backupOffset + i)) ∧
      final.2.record = trial.2.record.restored.sealed) : Unharmed b updated trial final := by
  obtain ⟨success, installed, published⟩ := first
  have pending : updated.2.record.state = statePendingUpdate := by
    rw [published]
    rfl
  obtain ⟨started, -, nor, tested⟩ := second pending
  have testing : trial.2.record.state = stateTesting := by
    rw [tested]
    rfl
  have backup : ∀ i < appSize, trial.2.nor (backupOffset + i) = b.bank2 i := by
    intro i below
    rw [nor]
    exact installed.backup i below
  have header : ¬ trial.2.backupBlank := by
    intro blank
    apply present
    have same : b.bank2.bytes 0 4 = trial.2.nor.bytes backupOffset 4 := by
      apply bytes_congr
      intro i below
      rw [backup i (by simp only [appSize]; omega), Nat.zero_add]
    rw [same]
    exact blank
  obtain ⟨rolled, restored, confirmed⟩ := third testing header
  have fields := Metadata.restored_pending b.record update
  rw [published] at tested
  rw [tested] at confirmed
  rw [← confirmed] at fields
  obtain ⟨major, minor, patch, crc32, size, state⟩ := fields
  refine ⟨success, started, rolled, ?_, major, minor, patch, crc32, size, state⟩
  intro i below
  rw [restored i below, backup i below]

/-- Update, then hang: without flash failures a new image that never confirms leaves
the device as it was, whatever record it started with. -/
theorem update_hang_identity (b : Board) (update : Update) (cause : ResetCause)
    (present : b.bank2.bytes 0 4 ≠ [0xFF, 0xFF, 0xFF, 0xFF])
    (fits : update.received ≤ 512 * 1024) :
    Unharmed b (otaFlashWrite .clean update b)
      ((Boot.mk cause .clean).run (otaFlashWrite .clean update b).2)
      ((Boot.mk .iwdg .clean).run
        ((Boot.mk cause .clean).run (otaFlashWrite .clean update b).2).2) := by
  have inside : update.received ≤ appSize := by
    simp only [appSize]
    omega
  exact unharmed_of_steps b update _ _ _ present (otaFlashWrite_clean update inside b)
    (boot_pending _ cause) (boot_rollback _ .iwdg (watchdog_iwdg _))

theorem update_hang_identity_confirmedBoard :
    ((Boot.mk .iwdg .clean).run ((Boot.mk .software .clean).run
      (otaFlashWrite .clean ⟨1, 0, 1, 2, 3⟩ confirmedBoard).2).2).1 = .done 2 := by
  have result := update_hang_identity confirmedBoard ⟨1, 0, 1, 2, 3⟩ .software
    (by decide) (by decide)
  exact result.jumped

end OtaBoot
