import OtaBoot.TrialRun

set_option autoImplicit false

namespace OtaBoot

/-- The three flash areas are the same. -/
structure SameFlash (b t : Board) : Prop where
  bank2 : t.bank2 = b.bank2
  sector1 : t.sector1 = b.sector1
  nor : t.nor = b.nor

theorem SameFlash.record {b t : Board} (same : SameFlash b t) : t.record = b.record := by
  unfold Board.record
  rw [same.sector1]

/-- What one reset and boot step return and leave in flash. -/
inductive BootPhase (boot : Boot) (b : Board) : Exit Nat → Board → Prop
  | menu (t : Board) (empty : b.record.state = stateEmpty) (same : SameFlash b t) :
      BootPhase boot b (.done 0) t
  | trial (exit : Exit Nat) (t : Board) (pending : b.record.state = statePendingUpdate)
      (ending : exit = .done 1 ∨ exit = .cut) (bank2 : t.bank2 = b.bank2) (nor : t.nor = b.nor)
      (sector1 : t.sector1 = boot.faults.record.stage.memory
        { b.record with state := stateTesting } b.sector1) : BootPhase boot b exit t
  | stay (t : Board) (testing : b.record.state = stateTesting) (idle : ¬ boot.Attempts b)
      (same : SameFlash b t) : BootPhase boot b (.done 1) t
  | stopped (exit : Exit Nat) (t : Board) (testing : b.record.state = stateTesting)
      (tried : boot.Attempts b) (failed : ¬ boot.Completes b)
      (ending : exit = .done 0 ∨ exit = .cut) (sector1 : t.sector1 = b.sector1)
      (nor : t.nor = b.nor) : BootPhase boot b exit t
  | restored (exit : Exit Nat) (t : Board) (testing : b.record.state = stateTesting)
      (completed : boot.Completes b) (ending : exit = .done 2 ∨ exit = .cut)
      (bank2 : ∀ i < appSize, t.bank2 i = b.nor (backupOffset + i)) (nor : t.nor = b.nor)
      (sector1 : t.sector1 = boot.faults.record.stage.memory b.record.restored b.sector1) :
      BootPhase boot b exit t
  | direct (t : Board) (empty : b.record.state ≠ stateEmpty)
      (pending : b.record.state ≠ statePendingUpdate) (testing : b.record.state ≠ stateTesting)
      (same : SameFlash b t) : BootPhase boot b (.done 2) t

theorem boot_phase_restored (boot : Boot) (b : Board) (testing : b.record.state = stateTesting)
    (completed : boot.Completes b) : BootPhase boot b (boot.run b).1 (boot.run b).2 := by
  have step := bootStep_completed b boot completed
  have branch : (b.reset boot.cause).bootBranch = .rollback := completed.1
  have kept := (attempt_ensures boot b).1
  have written : (bootStep b boot).sector1 =
      boot.faults.record.stage.memory b.record.restored (boot.attempt b).2.sector1 := by
    unfold bootStep Boot.run
    rw [bootMetadataStep_run]
    simp only [branch]
    rw [rollbackStep_completed _ _ _ completed.2]
    rfl
  rw [kept] at written
  exact .restored _ _ testing completed step.2.2 step.2.1 step.1 written

theorem boot_phase (boot : Boot) (b : Board) :
    BootPhase boot b (boot.run b).1 (boot.run b).2 := by
  by_cases testing : b.record.state = stateTesting
  · by_cases completed : boot.Completes b
    · exact boot_phase_restored boot b testing completed
    · have step := bootStep_testing b boot testing completed
      by_cases tried : boot.Attempts b
      · exact .stopped _ _ testing tried completed (step.2.2 tried) step.1.1 step.1.2
      · have branch := bootBranch_testing b boot.cause testing
        have idle : ¬ (b.reset boot.cause).watchdog := by
          intro flagged
          rw [if_pos flagged] at branch
          exact tried branch
        rw [if_neg idle] at branch
        unfold Boot.run
        rw [bootMetadataStep_run]
        simp only [branch]
        exact .stay _ testing tried ⟨rfl, rfl, rfl⟩
  · unfold Boot.run
    rw [bootMetadataStep_run]
    generalize branch : (b.reset boot.cause).bootBranch = way
    have kept : (b.reset boot.cause).record = b.record := rfl
    unfold Board.bootBranch at branch
    rw [kept] at branch
    by_cases empty : b.record.state = stateEmpty
    · rw [if_pos empty] at branch
      subst branch
      exact .menu _ empty ⟨rfl, rfl, rfl⟩
    · rw [if_neg empty] at branch
      by_cases pending : b.record.state = statePendingUpdate
      · rw [if_pos pending] at branch
        subst branch
        simp only
        rw [pendingStep_run]
        apply BootPhase.trial
        · exact pending
        · generalize boot.faults.record.exit = ending
          cases ending with
          | done _ => exact .inl rfl
          | cut => exact .inr rfl
        · rfl
        · rfl
        · rfl
      · rw [if_neg pending, if_neg testing] at branch
        subst branch
        exact .direct _ empty pending testing ⟨rfl, rfl, rfl⟩

end OtaBoot
