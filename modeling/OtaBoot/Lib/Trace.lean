import OtaBoot.Lib.Attempts

set_option autoImplicit false

namespace OtaBoot

variable {σ ε α β : Type}

/-- Try an operation once and put the call, with whether it reported success, in
front of the log. -/
def Attempt.logged (attempt : Attempt) (effect : σ → σ) (call : Bool → ε) :
    Op (σ × List ε) Bool := fun s =>
  ((attempt.perform effect s.1).1,
    (attempt.perform effect s.1).2, call (decide (attempt = .ok)) :: s.2)

namespace Op

/-- A computation whose calls are not logged. -/
def unlogged (c : Op σ α) : Op (σ × List ε) α := zoom Prod.fst (fun s t => (t, s.2)) c

/-- A computation that counts as one call, put in front of the log. -/
def logging (call : ε) (c : Op σ α) : Op (σ × List ε) α := fun s =>
  ((c s.1).1, (c s.1).2, call :: s.2)

/-- Without its log, `traced` does what `plain` does. -/
def Projects (traced : Op (σ × List ε) α) (plain : Op σ α) : Prop :=
  ∀ s log, (traced (s, log)).1 = (plain s).1 ∧ (traced (s, log)).2.1 = (plain s).2

theorem projects_pure (value : α) :
    Projects (pure value : Op (σ × List ε) α) (pure value) := fun _ _ => ⟨rfl, rfl⟩

theorem projects_unlogged (c : Op σ α) : Projects (unlogged c : Op (σ × List ε) α) c :=
  fun _ _ => ⟨rfl, rfl⟩

theorem projects_logging (call : ε) (c : Op σ α) : Projects (logging call c) c :=
  fun _ _ => ⟨rfl, rfl⟩

theorem projects_logged (attempt : Attempt) (effect : σ → σ) (call : Bool → ε) :
    Projects (attempt.logged effect call) (attempt.perform effect) := fun _ _ => ⟨rfl, rfl⟩

theorem Projects.bind {first : Op (σ × List ε) α} {plain : Op σ α}
    {next : α → Op (σ × List ε) β} {plainNext : α → Op σ β} (front : Projects first plain)
    (rest : ∀ value, Projects (next value) (plainNext value)) :
    Projects (first >>= next) (plain >>= plainNext) := by
  intro s log
  have same := front s log
  generalize run : first (s, log) = result at same
  generalize plainRun : plain s = plainResult at same
  obtain ⟨exit, t, more⟩ := result
  obtain ⟨plainExit, u⟩ := plainResult
  obtain ⟨rfl, rfl⟩ := same
  cases exit with
  | cut =>
      rw [bind_run_cut _ _ _ _ run, bind_run_cut _ _ _ _ plainRun]
      exact ⟨rfl, rfl⟩
  | done value =>
      rw [bind_run_done _ _ _ _ _ run, bind_run_done _ _ _ _ _ plainRun]
      exact rest value t more

theorem Projects.ite {P : Prop} [Decidable P] {yes no : Op (σ × List ε) α} {plainYes plainNo : Op σ α}
    (left : Projects yes plainYes) (right : Projects no plainNo) :
    Projects (if P then yes else no) (if P then plainYes else plainNo) := by
  split
  · exact left
  · exact right

theorem projects_allFrom {body : Nat → Op (σ × List ε) Bool} {plain : Nat → Op σ Bool}
    (passes : ∀ k, Projects (body k) (plain k)) (count : Nat) : ∀ start,
    Projects (allFrom body count start) (allFrom plain count start) := by
  induction count with
  | zero =>
      intro start
      exact projects_pure true
  | succ count ih =>
      intro start
      apply (passes start).bind
      intro ok
      exact (ih (start + 1)).ite (projects_pure false)

theorem projects_anyFrom {body : Nat → Op (σ × List ε) Bool} {plain : Nat → Op σ Bool}
    (tries : ∀ k, Projects (body k) (plain k)) (count : Nat) : ∀ start,
    Projects (anyFrom body count start) (anyFrom plain count start) := by
  induction count with
  | zero =>
      intro start
      exact projects_pure false
  | succ count ih =>
      intro start
      apply (tries start).bind
      intro ok
      exact (projects_pure true).ite (ih (start + 1))

theorem unlogged_ensures {c : Op σ α} {s : σ × List ε} {Q : α → σ × List ε → Prop}
    {C : σ × List ε → Prop} (returns : ∀ value t, Q value (t, s.2)) (cuts : ∀ t, C (t, s.2)) :
    Ensures (unlogged c) s Q C := by
  unfold unlogged
  rw [ensures_zoom]
  unfold Ensures
  split
  · exact returns _ _
  · exact cuts _

theorem logging_ensures {call : ε} {c : Op σ α} {s : σ × List ε} {Q : α → σ × List ε → Prop}
    {C : σ × List ε → Prop}
    (held : Ensures c s.1 (fun value t => Q value (t, call :: s.2)) fun t => C (t, call :: s.2)) :
    Ensures (logging call c) s Q C := by
  unfold Ensures logging at *
  generalize c s.1 = result at held
  obtain ⟨exit, t⟩ := result
  cases exit with
  | done value => exact held
  | cut => exact held

end Op

theorem Attempt.logged_ensures {attempt : Attempt} {effect : σ → σ} {call : Bool → ε}
    {s : σ × List ε} {Q : Bool → List ε → Prop} {C : List ε → Prop}
    (success : Q true (call true :: s.2)) (failure : Q false (call false :: s.2))
    (lost : C (call false :: s.2)) :
    Op.Ensures (attempt.logged effect call) s (fun ok t => Q ok t.2) (fun t => C t.2) := by
  cases attempt with
  | ok => exact success
  | failed took => exact failure
  | cut took => exact lost

/-- Retry rule for a logged operation: every try adds its call, only the last one can
report success. -/
theorem Attempt.anyFrom_logged_ensures {tries : Nat → Attempt} {effect : σ → σ} {call : Bool → ε}
    {I : List ε → Prop} (fails : ∀ log, I log → I (call false :: log)) (count : Nat) :
    ∀ start s, I s.2 →
    Op.Ensures (Op.anyFrom (fun k => (tries k).logged effect call) count start) s
      (fun ok t => if ok then ∃ log, I log ∧ t.2 = call true :: log else I t.2)
      (fun t => I t.2) := by
  induction count with
  | zero =>
      intro start s holds
      exact holds
  | succ count ih =>
      intro start s holds
      refine Op.Ensures.bind
        (fun ok t => if ok then ∃ log, I log ∧ t.2 = call true :: log else I t.2)
        (logged_ensures (Q := fun ok log => if ok then ∃ rest, I rest ∧ log = call true :: rest
          else I log) ⟨s.2, holds, rfl⟩ (fails s.2 holds) (fails s.2 holds)) ?_
      intro ok t passed
      cases ok with
      | false => exact ih (start + 1) t passed
      | true => exact passed

end OtaBoot
