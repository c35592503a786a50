import OtaBoot.Menu
import OtaBoot.Lib.Run

set_option autoImplicit false

namespace OtaBoot

inductive ResetCause
  | powerOn
  | pin
  | software
  | iwdg
  deriving DecidableEq

/-- The reset flags after a reset: a power-on reset starts them afresh, any other
reset adds its own. -/
def ResetCause.flags (cause : ResetCause) (rsr : Word) : Word :=
  match cause with
  | .powerOn => 1 <<< 23 ||| 1 <<< 22 ||| 1 <<< 21
  | .pin => rsr ||| 1 <<< 22
  | .software => rsr ||| 1 <<< 24 ||| 1 <<< 22
  | .iwdg => rsr ||| rccRsrIwdg1Rstf ||| 1 <<< 22

/-- A reset keeps the flash and starts RAM from its initial values. -/
def Board.reset (b : Board) (cause : ResetCause) : Board :=
  { b with rsr := cause.flags b.rsr, qspiInited := false }

/-- One reset and the boot step that follows it. -/
structure Boot where
  cause : ResetCause
  faults : BootFaults

def Boot.run (boot : Boot) : Op Board Nat := fun b =>
  bootMetadataStep boot.faults (b.reset boot.cause)

/-- The watchdog flag as `Reset_Reason_Is_IWDG` reads it. -/
def Board.watchdog (b : Board) : Prop := b.rsr &&& rccRsrIwdg1Rstf ≠ 0

instance (b : Board) : Decidable b.watchdog := inferInstanceAs (Decidable (_ ≠ _))

/-- The ways through `Boot_Metadata_Step`. -/
inductive BootBranch
  | empty
  | pending
  | rollback
  | stay
  | direct
  deriving DecidableEq

def Board.bootBranch (b : Board) : BootBranch :=
  if b.record.state = stateEmpty then .empty
  else if b.record.state = statePendingUpdate then .pending
  else if b.record.state = stateTesting then if b.watchdog then .rollback else .stay
  else .direct

theorem metadataRead_magic (m : Mem) : (metadataRead m).magic = metadataMagic := by
  unfold metadataRead
  dsimp only
  split
  · rfl
  · rename_i right
    exact not_not.mp right

/-- The rollback branch after the flags have been read and cleared. -/
def rollbackStep (faults : BootFaults) (record : Metadata) : Op Board Nat := do
  if ← bootDoRollback faults.init faults.restore then
    let _ ← onSector1 (metadataWrite faults.record record.restored)
    pure 2
  else pure 0

/-- The pending branch. -/
def pendingStep (faults : BootFaults) (record : Metadata) : Op Board Nat := do
  let _ ← onSector1 (metadataWrite faults.record { record with state := stateTesting })
  pure 1

/-- One equation for the whole boot step. -/
theorem bootMetadataStep_run (faults : BootFaults) (b : Board) :
    bootMetadataStep faults b =
      match b.bootBranch with
      | .empty => (.done 0, b)
      | .pending => pendingStep faults b.record b
      | .rollback => rollbackStep faults b.record { b with rsr := 0 }
      | .stay => (.done 1, { b with rsr := 0 })
      | .direct => (.done 2, b) := by
  have magic : b.record.magic = metadataMagic := metadataRead_magic b.sector1
  unfold bootMetadataStep Board.bootBranch
  rw [Op.gets_bind_run]
  by_cases empty : b.record.state = stateEmpty
  · simp only [empty, or_true, ↓reduceIte, Op.pure_run]
  · simp only [magic, empty, ne_eq, not_true_eq_false, or_self, ↓reduceIte]
    by_cases pending : b.record.state = statePendingUpdate
    · simp only [pending, ↓reduceIte]
      rfl
    · simp only [pending, ↓reduceIte]
      by_cases testing : b.record.state = stateTesting
      · simp only [testing, ↓reduceIte]
        by_cases watchdog : b.watchdog
        · have flagged : resetReasonIsIwdg b = (.done true, { b with rsr := 0 }) := by
            have set : b.rsr &&& rccRsrIwdg1Rstf ≠ 0 := watchdog
            simp only [resetReasonIsIwdg, set, ne_eq, not_false_eq_true, decide_true]
          rw [Op.bind_run_done _ _ _ _ _ flagged]
          simp only [watchdog, ↓reduceIte]
          rfl
        · have clear : resetReasonIsIwdg b = (.done false, { b with rsr := 0 }) := by
            have unset : b.rsr &&& rccRsrIwdg1Rstf = 0 := not_not.mp watchdog
            simp only [resetReasonIsIwdg, unset, ne_eq, not_true_eq_false, decide_false]
          rw [Op.bind_run_done _ _ _ _ _ clear]
          simp only [watchdog, ↓reduceIte, Bool.false_eq_true, Op.pure_run]
      · simp only [testing, ↓reduceIte, Op.pure_run]

end OtaBoot
