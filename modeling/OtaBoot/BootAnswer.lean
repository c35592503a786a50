import OtaBoot.TrialRun

set_option autoImplicit false

namespace OtaBoot

/-- What the answer of a boot step from `b` says about the board it leaves. -/
structure AnswerAgrees (b : Board) (exit : Exit Nat) (t : Board) : Prop where
  trial : exit = .done 1 → t.record.state = stateTesting
  jump : exit = .done 2 → t.record.state = stateConfirmed
  menu : exit = .done 0 → t.sector1 = b.sector1

theorem AnswerAgrees.of_cut (b t : Board) : AnswerAgrees b .cut t :=
  ⟨by simp, by simp, by simp⟩

/-- The write gets its first flash word stored, or it never returns. -/
def MetaFaults.StoresState (faults : MetaFaults) : Prop :=
  faults.exit = .cut ∨ faults.stage = .half ∨ faults.stage = .full

/-- What the rollback of a boot step needs in order to complete. -/
def BootFaults.RollsBack (faults : BootFaults) (b : Board) : Prop :=
  (b.qspiInited = true ∨ faults.init = .ok) ∧ ¬ b.backupBlank ∧ faults.restore.Completes

/-- The write whose result the boot step ignores stores the state it answers for, and a
state that is none of the four is not taken for CONFIRMED. -/
def BootFaults.StoresAnswer (faults : BootFaults) (b : Board) : Prop :=
  match b.bootBranch with
  | .empty => True
  | .pending => faults.record.StoresState
  | .rollback => faults.RollsBack b → faults.record.StoresState
  | .stay => True
  | .direct => b.record.state = stateConfirmed

/-- A write over another state: the new one is read back exactly if the first flash
word was stored. -/
theorem readState_new_iff (stage : MetaStage) (record : Metadata) (m : Mem)
    (old : (metadataRead m).state ≠ record.state) (named : record.state ≠ stateEmpty) :
    (metadataRead (stage.memory record m)).state = record.state ↔ stage = .half ∨ stage = .full := by
  rw [memory_readState]
  cases stage with
  | unchanged => simpa using old
  | erased => simpa using named.symm
  | half => simp
  | full => simp

/-- An answer given after an ignored write agrees exactly if the write stored the state. -/
theorem ignored_write_agrees (faults : MetaFaults) (record : Metadata) (b t : Board) (answer : Nat)
    (sector1 : t.sector1 = faults.stage.memory record b.sector1)
    (old : b.record.state ≠ record.state)
    (named : answer = 1 ∧ record.state = stateTesting ∨ answer = 2 ∧ record.state = stateConfirmed) :
    AnswerAgrees b (match faults.exit with
        | .done _ => .done answer
        | .cut => .cut) t ↔ faults.StoresState := by
  have filled : record.state ≠ stateEmpty := by
    rcases named with ⟨_, state⟩ | ⟨_, state⟩ <;> rw [state] <;> decide
  have stored : t.record.state = record.state ↔ faults.stage = .half ∨ faults.stage = .full := by
    unfold Board.record
    rw [sector1]
    exact readState_new_iff faults.stage record b.sector1 old filled
  unfold MetaFaults.StoresState
  rw [← stored]
  cases faults.exit with
  | cut => exact ⟨fun _ => .inl rfl, fun _ => .of_cut b t⟩
  | done ok =>
      simp only [reduceCtorEq, false_or]
      rcases named with ⟨rfl, state⟩ | ⟨rfl, state⟩
      · rw [state]
        exact ⟨fun agrees => agrees.trial rfl, fun read => ⟨fun _ => read, by simp, by simp⟩⟩
      · rw [state]
        exact ⟨fun agrees => agrees.jump rfl, fun read => ⟨by simp, fun _ => read, by simp⟩⟩

theorem pendingStep_agrees (faults : BootFaults) (b : Board)
    (pending : b.record.state = statePendingUpdate) :
    AnswerAgrees b (pendingStep faults b.record b).1 (pendingStep faults b.record b).2 ↔
      faults.record.StoresState := by
  have old : b.record.state ≠ stateTesting := by
    rw [pending]
    decide
  rw [pendingStep_run]
  exact ignored_write_agrees faults.record { b.record with state := stateTesting } b _ 1 rfl old
    (.inl ⟨rfl, rfl⟩)

theorem bootDoRollback_sector1 (init : Status) (faults : RestoreFaults) (b : Board) :
    (bootDoRollback init faults b).2.sector1 = b.sector1 := by
  have frame := bootDoRollback_ensures init faults b
  generalize run : bootDoRollback init faults b = result
  obtain ⟨exit, t⟩ := result
  cases exit with
  | cut => exact (Op.ensures_of_cut frame run).sector1
  | done ok => exact (Op.ensures_of_run frame run).1.sector1

theorem rollbackStep_agrees (faults : BootFaults) (b : Board)
    (testing : b.record.state = stateTesting) :
    AnswerAgrees b (rollbackStep faults b.record { b with rsr := 0 }).1
        (rollbackStep faults b.record { b with rsr := 0 }).2 ↔
      (faults.RollsBack b → faults.record.StoresState) := by
  have completes := bootDoRollback_succeeds faults.init faults.restore { b with rsr := 0 }
  have kept := bootDoRollback_sector1 faults.init faults.restore { b with rsr := 0 }
  by_cases rolls : faults.RollsBack b
  · have old : b.record.state ≠ stateConfirmed := by
      rw [testing]
      decide
    rw [rollbackStep_completed faults b.record _ (completes.mpr rolls), kept]
    simp only [rolls, forall_const]
    exact ignored_write_agrees faults.record b.record.restored b _ 2 rfl old (.inr ⟨rfl, rfl⟩)
  · -- a rollback that does not complete returns 0 and has not written the record
    have stopped : (bootDoRollback faults.init faults.restore { b with rsr := 0 }).1 ≠ .done true :=
      fun completed => rolls (completes.mp completed)
    obtain ⟨board, answer⟩ := rollbackStep_stopped faults b.record { b with rsr := 0 } stopped
    simp only [rolls, false_implies, iff_true]
    rw [board]
    rcases answer with menu | lost
    · rw [menu]
      exact ⟨by simp, by simp, fun _ => kept⟩
    · rw [lost]
      exact .of_cut b _

theorem bootBranch_state (b : Board) :
    match b.bootBranch with
    | .empty => b.record.state = stateEmpty
    | .pending => b.record.state = statePendingUpdate
    | .rollback => b.record.state = stateTesting
    | .stay => b.record.state = stateTesting
    | .direct => b.record.state ≠ stateEmpty ∧ b.record.state ≠ statePendingUpdate ∧
        b.record.state ≠ stateTesting := by
  unfold Board.bootBranch
  by_cases empty : b.record.state = stateEmpty
  · rw [if_pos empty]
    exact empty
  · rw [if_neg empty]
    by_cases pending : b.record.state = statePendingUpdate
    · rw [if_pos pending]
      exact pending
    · rw [if_neg pending]
      by_cases testing : b.record.state = stateTesting
      · rw [if_pos testing]
        by_cases watchdog : b.watchdog
        · rw [if_pos watchdog]
          exact testing
        · rw [if_neg watchdog]
          exact testing
      · rw [if_neg testing]
        exact ⟨empty, pending, testing⟩

/-- The answer of the boot step agrees with the record it leaves exactly if the write it
does not check has stored the state, and the stored state is one of the four. -/
theorem bootMetadataStep_agrees_iff (faults : BootFaults) (b : Board) :
    AnswerAgrees b (bootMetadataStep faults b).1 (bootMetadataStep faults b).2 ↔
      faults.StoresAnswer b := by
  have state := bootBranch_state b
  rw [bootMetadataStep_run]
  unfold BootFaults.StoresAnswer
  generalize b.bootBranch = branch at state
  cases branch with
  | empty => exact ⟨fun _ => trivial, fun _ => ⟨by simp, by simp, fun _ => rfl⟩⟩
  | pending => exact pendingStep_agrees faults b state
  | rollback => exact rollbackStep_agrees faults b state
  | stay => exact ⟨fun _ => trivial, fun _ => ⟨fun _ => state, by simp, by simp⟩⟩
  | direct =>
      constructor
      · intro agrees
        exact agrees.jump rfl
      · intro confirmed
        exact ⟨by simp, fun _ => confirmed, by simp⟩

/-- A pending update whose record cannot be rewritten at all: the boot step answers 1
with PENDING_UPDATE still stored. -/
theorem boot_answer_not_stored :
    let b := Board.holding { Metadata.fresh with state := statePendingUpdate } (fun _ => 0xFF)
      (fun _ => 0xFF)
    let faults : BootFaults := ⟨.ok, .clean, ⟨fun _ => .failed false, fun _ _ => .ok⟩⟩
    let run := bootMetadataStep faults b
    run.1 = .done 1 ∧ run.2.record.state = statePendingUpdate ∧ ¬ AnswerAgrees b run.1 run.2 := by
  intro b faults run
  have read : b.record = Metadata.sealed { Metadata.fresh with state := statePendingUpdate } :=
    Board.holding_record _ _ _
  have branch : b.bootBranch = .pending := by
    unfold Board.bootBranch
    rw [read]
    decide
  have stage : faults.record.stage = .unchanged := by decide
  have result : run = (.done 1, b) := by
    show bootMetadataStep faults b = _
    rw [bootMetadataStep_run, branch]
    simp only
    rw [pendingStep_run, stage]
    rfl
  have state : run.2.record.state = statePendingUpdate := by
    rw [result]
    simp only [read, Metadata.sealed]
  refine ⟨by rw [result], state, ?_⟩
  intro agrees
  have stored := agrees.trial (by rw [result])
  rw [state] at stored
  exact absurd stored (by decide)

end OtaBoot
