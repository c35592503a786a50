import OtaBoot.Rollback

set_option autoImplicit false

namespace OtaBoot

open Mem

/-- The board after a reset and a boot step. -/
def bootStep (b : Board) (boot : Boot) : Board := (boot.run b).2

/-- The boot takes the rollback branch. -/
def Boot.Attempts (boot : Boot) (b : Board) : Prop :=
  (b.reset boot.cause).bootBranch = .rollback

/-- The rollback attempt of a boot, from the state in which the step starts it. -/
def Boot.attempt (boot : Boot) (b : Board) : Exit Bool × Board :=
  bootDoRollback boot.faults.init boot.faults.restore { b.reset boot.cause with rsr := 0 }

def Boot.Completes (boot : Boot) (b : Board) : Prop :=
  boot.Attempts b ∧ (boot.attempt b).1 = .done true

theorem completes_iff (boot : Boot) (b : Board) :
    boot.Completes b ↔ boot.Attempts b ∧ boot.faults.init = .ok ∧ ¬ b.backupBlank ∧
      boot.faults.restore.Completes := by
  have attempt := bootDoRollback_completes boot.faults.init boot.faults.restore
    { b.reset boot.cause with rsr := 0 } rfl
  unfold Boot.Completes Boot.attempt
  rw [attempt]
  exact Iff.rfl

theorem attempt_ensures (boot : Boot) (b : Board) :
    (boot.attempt b).2.sector1 = b.sector1 ∧ (boot.attempt b).2.nor = b.nor := by
  have spec := bootDoRollback_ensures boot.faults.init boot.faults.restore
    { b.reset boot.cause with rsr := 0 }
  have frame := Op.Ensures.final (spec.mono (fun _ _ result => result.1) fun _ kept => kept)
  exact ⟨frame.sector1, frame.nor⟩

/-- A completed attempt leaves the backup in Bank 2, whatever Bank 2 held. -/
theorem attempt_bank2 (boot : Boot) (b : Board) (completed : (boot.attempt b).1 = .done true)
    (i : Nat) (inside : i < appSize) :
    (boot.attempt b).2.bank2 i = b.nor (backupOffset + i) := by
  have spec := bootDoRollback_ensures boot.faults.init boot.faults.restore
    { b.reset boot.cause with rsr := 0 }
  have run : boot.attempt b = (.done true, (boot.attempt b).2) := by rw [← completed]
  have result := Op.ensures_of_run spec run
  rw [(result.2 rfl).2, copied_inside _ _ _ _ inside]
  rfl

/-- A boot whose attempt does not complete changes what the attempt changed. -/
theorem rollbackStep_stopped (faults : BootFaults) (record : Metadata) (b : Board)
    (stopped : (bootDoRollback faults.init faults.restore b).1 ≠ .done true) :
    (rollbackStep faults record b).2 = (bootDoRollback faults.init faults.restore b).2 ∧
      ((rollbackStep faults record b).1 = .done 0 ∨ (rollbackStep faults record b).1 = .cut) := by
  unfold rollbackStep
  generalize run : bootDoRollback faults.init faults.restore b = result at stopped
  obtain ⟨exit, t⟩ := result
  cases exit with
  | cut =>
      rw [Op.bind_run_cut _ _ _ _ run]
      exact ⟨rfl, .inr rfl⟩
  | done ok =>
      rw [Op.bind_run_done _ _ _ _ _ run]
      cases ok with
      | true => exact absurd rfl stopped
      | false => exact ⟨rfl, .inl rfl⟩

/-- After a completed attempt the restored version is recorded. -/
theorem rollbackStep_completed (faults : BootFaults) (record : Metadata) (b : Board)
    (completed : (bootDoRollback faults.init faults.restore b).1 = .done true) :
    rollbackStep faults record b =
      (match faults.record.exit with
        | .done _ => .done 2
        | .cut => .cut,
       { (bootDoRollback faults.init faults.restore b).2 with
        sector1 := faults.record.stage.memory record.restored
          (bootDoRollback faults.init faults.restore b).2.sector1 }) := by
  unfold rollbackStep
  generalize run : bootDoRollback faults.init faults.restore b = result at completed
  obtain ⟨exit, t⟩ := result
  subst completed
  rw [Op.bind_run_done _ _ _ _ _ run]
  simp only [↓reduceIte]
  rw [Op.bind_run, recordWrite_run]
  generalize faults.record.exit = ending
  cases ending <;> rfl

theorem bootBranch_testing (b : Board) (cause : ResetCause)
    (testing : b.record.state = stateTesting) :
    (b.reset cause).bootBranch =
      if (b.reset cause).watchdog then .rollback else .stay := by
  have kept : (b.reset cause).record.state = stateTesting := testing
  unfold Board.bootBranch
  rw [kept]
  simp [stateTesting, stateEmpty, statePendingUpdate]

theorem watchdog_iwdg (b : Board) : (b.reset .iwdg).watchdog := by
  show (b.rsr ||| rccRsrIwdg1Rstf ||| 1 <<< 22) &&& rccRsrIwdg1Rstf ≠ 0
  intro clear
  have bit := congrArg (fun w : Word => w.getLsbD 26) clear
  simp at bit

theorem attempts_iwdg {boot : Boot} {b : Board} (testing : b.record.state = stateTesting)
    (cause : boot.cause = .iwdg) : boot.Attempts b := by
  have flagged : (b.reset boot.cause).watchdog := by
    rw [cause]
    exact watchdog_iwdg b
  unfold Boot.Attempts
  rw [bootBranch_testing b boot.cause testing, if_pos flagged]

/-- One boot in TESTING whose attempt, if it makes one, does not complete. -/
theorem bootStep_testing (b : Board) (boot : Boot) (testing : b.record.state = stateTesting)
    (stopped : ¬ boot.Completes b) :
    ((bootStep b boot).sector1 = b.sector1 ∧ (bootStep b boot).nor = b.nor) ∧
      (¬ boot.Attempts b → (boot.run b).1 = .done 1) ∧
      (boot.Attempts b → (boot.run b).1 = .done 0 ∨ (boot.run b).1 = .cut) := by
  have branch := bootBranch_testing b boot.cause testing
  unfold bootStep Boot.run
  rw [bootMetadataStep_run]
  by_cases watchdog : (b.reset boot.cause).watchdog
  · rw [if_pos watchdog] at branch
    have failed : (boot.attempt b).1 ≠ .done true := fun completed => stopped ⟨branch, completed⟩
    have step := rollbackStep_stopped boot.faults (b.reset boot.cause).record
      { b.reset boot.cause with rsr := 0 } failed
    simp only [branch]
    have kept := attempt_ensures boot b
    rw [step.1]
    exact ⟨kept, fun idle => absurd branch idle, fun _ => step.2⟩
  · rw [if_neg watchdog] at branch
    have idle : ¬ boot.Attempts b := by
      unfold Boot.Attempts
      rw [branch]
      decide
    simp only [branch]
    exact ⟨⟨rfl, rfl⟩, fun _ => trivial, fun tried => absurd tried idle⟩

/-- A boot whose attempt completes. -/
theorem bootStep_completed (b : Board) (boot : Boot) (completed : boot.Completes b) :
    (bootStep b boot).nor = b.nor ∧
      (∀ i < appSize, (bootStep b boot).bank2 i = b.nor (backupOffset + i)) ∧
      ((boot.run b).1 = .done 2 ∨ (boot.run b).1 = .cut) := by
  have branch : (b.reset boot.cause).bootBranch = .rollback := completed.1
  unfold bootStep Boot.run
  rw [bootMetadataStep_run]
  simp only [branch]
  rw [rollbackStep_completed _ _ _ completed.2]
  have kept := attempt_ensures boot b
  refine ⟨kept.2, ?_, ?_⟩
  · intro i inside
    exact attempt_bank2 boot b completed.2 i inside
  · generalize boot.faults.record.exit = ending
    cases ending with
    | done _ => exact .inl rfl
    | cut => exact .inr rfl

/-- The rollback works at the first try of every operation. -/
def RestoreFaults.clean : RestoreFaults :=
  ⟨.ok, fun _ _ => .ok, fun _ => .ok, fun _ _ => .ok⟩

theorem RestoreFaults.clean_completes : RestoreFaults.clean.Completes := by
  constructor
  · rfl
  · intro sector below needed
    exact Attempt.verdict_of_ok _ _ _ rfl
  · intro k below
    exact ⟨rfl, Attempt.verdict_of_ok _ _ _ rfl⟩

/-- Rollback attempts stopped anywhere, with other boots between them, lose
nothing: the first attempt that completes restores the backup. -/
theorem rollback_restartable (b : Board) (boots : List Boot)
    (testing : b.record.state = stateTesting) (present : ¬ b.backupBlank)
    (stopped : Run.Along bootStep (fun s boot => ¬ boot.Completes s) b boots) :
    Run.Along bootStep (fun s boot =>
      ((bootStep s boot).sector1 = b.sector1 ∧ (bootStep s boot).nor = b.nor) ∧
        (¬ boot.Attempts s → (boot.run s).1 = .done 1) ∧
        (boot.Attempts s → (boot.run s).1 = .done 0 ∨ (boot.run s).1 = .cut)) b boots ∧
      ((Run.after bootStep b boots).sector1 = b.sector1 ∧
        (Run.after bootStep b boots).nor = b.nor) ∧
      (∀ boot : Boot, boot.Completes (Run.after bootStep b boots) →
        ((boot.attempt (Run.after bootStep b boots)).2.sector1 = b.sector1 ∧
          (bootStep (Run.after bootStep b boots) boot).nor = b.nor ∧
          ∀ i < appSize, (bootStep (Run.after bootStep b boots) boot).bank2 i =
            b.nor (backupOffset + i)) ∧
        ((boot.run (Run.after bootStep b boots)).1 = .done 2 ∨
          (boot.run (Run.after bootStep b boots)).1 = .cut)) ∧
      ∀ boot : Boot, boot.cause = .iwdg → boot.faults.init = .ok → boot.faults.restore.Completes →
        boot.Completes (Run.after bootStep b boots) := by
  -- The whole argument rests on the two memories no stopped attempt touches.
  have still : ∀ s : Board, s.sector1 = b.sector1 → s.record.state = stateTesting := by
    intro s same
    rw [Board.record, same]
    exact testing
  have answers : ∀ s boot, (s.sector1 = b.sector1 ∧ s.nor = b.nor) → ¬ boot.Completes s →
      ((bootStep s boot).sector1 = b.sector1 ∧ (bootStep s boot).nor = b.nor) ∧
        (¬ boot.Attempts s → (boot.run s).1 = .done 1) ∧
        (boot.Attempts s → (boot.run s).1 = .done 0 ∨ (boot.run s).1 = .cut) := by
    intro s boot kept failed
    obtain ⟨step, answer⟩ := bootStep_testing s boot (still s kept.1) failed
    exact ⟨⟨step.1.trans kept.1, step.2.trans kept.2⟩, answer⟩
  have preserved := fun s boot kept failed => (answers s boot kept failed).1
  have along := Run.invariant_along preserved answers boots b ⟨rfl, rfl⟩ stopped
  have final := Run.invariant_after preserved boots b ⟨rfl, rfl⟩ stopped
  refine ⟨along, final, ?_, ?_⟩
  · intro boot completed
    have step := bootStep_completed _ boot completed
    have frame := attempt_ensures boot (Run.after bootStep b boots)
    refine ⟨⟨frame.1.trans final.1, step.1.trans final.2, ?_⟩, step.2.2⟩
    intro i inside
    rw [step.2.1 i inside, final.2]
  · intro boot cause init restore
    have backup : ¬ (Run.after bootStep b boots).backupBlank := by
      unfold Board.backupBlank at present ⊢
      rw [final.2]
      exact present
    exact (completes_iff _ _).mpr ⟨attempts_iwdg (still _ final.1) cause, init, backup, restore⟩

theorem rollback_restartable_cut :
    let b := Board.holding { Metadata.fresh with state := stateTesting } (fun _ => 0x11) (fun _ => 0)
    let lost : Boot := ⟨.iwdg, ⟨.cut, .clean, .clean⟩⟩
    let retry : Boot := ⟨.iwdg, ⟨.ok, .clean, .clean⟩⟩
    retry.Completes (Run.after bootStep b [lost]) ∧
      ∀ i < appSize, (bootStep (Run.after bootStep b [lost]) retry).bank2 i = 0 := by
  intro b lost retry
  have testing : b.record.state = stateTesting := by
    rw [Board.holding_record]
    rfl
  have present : ¬ b.backupBlank := by decide
  have stopped : ¬ lost.Completes b := by
    intro completed
    have all := (completes_iff lost b).mp completed
    exact absurd all.2.1 (by decide)
  have result := rollback_restartable b [lost] testing present ⟨stopped, trivial⟩
  have completes := result.2.2.2 retry rfl rfl RestoreFaults.clean_completes
  refine ⟨completes, ?_⟩
  intro i inside
  exact (result.2.2.1 retry completes).1.2.2 i inside

end OtaBoot
