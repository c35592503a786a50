import OtaBoot.Lib.Crash

set_option autoImplicit false

namespace OtaBoot

/-- One try of an all-or-nothing hardware operation. A try that reports success
took effect; one that reports failure, or during which power is lost, may or may
not have. -/
inductive Attempt
  | ok
  | failed (took : Bool)
  | cut (took : Bool)
  deriving DecidableEq

namespace Attempt

variable {σ : Type}

/-- Try an operation once and report whether it succeeded. -/
def perform (attempt : Attempt) (effect : σ → σ) : Op σ Bool := fun s =>
  match attempt with
  | .ok => (.done true, effect s)
  | .failed took => (.done false, if took then effect s else s)
  | .cut took => (.cut, if took then effect s else s)

theorem keeps_perform {γ : Type} {f : σ → γ} {effect : σ → σ} (apart : ∀ s, f (effect s) = f s)
    (attempt : Attempt) : Op.Keeps f (attempt.perform effect) := by
  intro s
  have either : ∀ took : Bool, f (if took then effect s else s) = f s := by
    intro took
    split
    · exact apart s
    · rfl
  cases attempt with
  | ok => exact apart s
  | failed took => exact either took
  | cut took => exact either took

/-- Power is not lost during the try. -/
def Stays (attempt : Attempt) : Prop := ∀ took, attempt ≠ .cut took

theorem returns_perform {attempt : Attempt} (stays : attempt.Stays) (effect : σ → σ) :
    Op.Returns (attempt.perform effect) := by
  intro s lost
  cases attempt with
  | ok => cases lost
  | failed took => cases lost
  | cut took => exact stays took rfl

/-- How `count` tries end, read off the tries alone. -/
def verdict (tries : Nat → Attempt) : Nat → Nat → Exit Bool
  | 0, _ => .done false
  | count + 1, start =>
    match tries start with
    | .ok => .done true
    | .failed _ => verdict tries count (start + 1)
    | .cut _ => .cut

/-- Whether one of the tries that are made takes effect. -/
def takes (tries : Nat → Attempt) : Nat → Nat → Bool
  | 0, _ => false
  | count + 1, start =>
    match tries start with
    | .ok => true
    | .failed took => took || takes tries count (start + 1)
    | .cut took => took

/-- A retry loop whose operation is idempotent is determined by its tries. -/
theorem anyFrom_perform (tries : Nat → Attempt) (effect : σ → σ)
    (idempotent : ∀ s, effect (effect s) = effect s) (count : Nat) : ∀ start s,
    Op.anyFrom (fun k => perform (tries k) effect) count start s =
      (verdict tries count start, if takes tries count start then effect s else s) := by
  induction count with
  | zero =>
      intro start s
      rfl
  | succ count ih =>
      intro start s
      generalize outcome : tries start = first
      cases first with
      | ok =>
          rw [Op.anyFrom, Op.bind_run_done _ _ s (effect s) true (by simp only [perform, outcome])]
          simp only [verdict, takes, outcome, ↓reduceIte, Op.pure_run]
      | failed took =>
          rw [Op.anyFrom, Op.bind_run_done _ _ s (if took then effect s else s) false
            (by simp only [perform, outcome])]
          simp only [verdict, takes, outcome, Bool.false_eq_true, ↓reduceIte]
          rw [ih]
          cases took <;> simp [idempotent]
      | cut took =>
          rw [Op.anyFrom, Op.bind_run_cut _ _ s (if took then effect s else s)
            (by simp only [perform, outcome])]
          simp only [verdict, takes, outcome]

theorem takes_of_verdict (tries : Nat → Attempt) (count : Nat) : ∀ start,
    verdict tries count start = .done true → takes tries count start = true := by
  induction count with
  | zero =>
      intro start success
      cases success
  | succ count ih =>
      intro start success
      unfold verdict at success
      unfold takes
      split at success
      · rfl
      · simp only [ih (start + 1) success, Bool.or_true]
      · cases success

theorem verdict_of_ok (tries : Nat → Attempt) (count start : Nat)
    (first : tries start = .ok) : verdict tries (count + 1) start = .done true := by
  simp only [verdict, first]

theorem succeeds_anyFrom (tries : Nat → Attempt) (effect : σ → σ) (count : Nat) : ∀ start,
    Op.Succeeds (Op.anyFrom (fun k => perform (tries k) effect) count start)
      (verdict tries count start = .done true) := by
  induction count with
  | zero =>
      intro start s
      simp only [Op.anyFrom, Op.pure_run, verdict]
  | succ count ih =>
      intro start s
      rw [Op.anyFrom, Op.bind_run]
      unfold perform verdict
      generalize tries start = first
      cases first with
      | ok => simp only [↓reduceIte, Op.pure_run]
      | failed took =>
          simp only [Bool.false_eq_true, ↓reduceIte]
          exact ih (start + 1) _
      | cut took => simp only [reduceCtorEq]

/-- Proof rule for a retry loop of one all-or-nothing operation. -/
theorem anyFrom_perform_ensures {tries : Nat → Attempt} {effect : σ → σ} {count : Nat} {s : σ}
    (idempotent : ∀ s, effect (effect s) = effect s) {Q : Bool → σ → Prop} {C : σ → Prop}
    (success : verdict tries count 0 = .done true → Q true (effect s))
    (failure : verdict tries count 0 = .done false →
      Q false (if takes tries count 0 then effect s else s))
    (lost : verdict tries count 0 = .cut → C (if takes tries count 0 then effect s else s)) :
    Op.Ensures (Op.anyFrom (fun k => perform (tries k) effect) count 0) s Q C := by
  unfold Op.Ensures
  rw [anyFrom_perform tries effect idempotent]
  generalize ending : verdict tries count 0 = result at success failure lost
  cases result with
  | cut => exact lost rfl
  | done ok =>
      cases ok with
      | false => exact failure rfl
      | true =>
          simp only [takes_of_verdict tries count 0 ending, ↓reduceIte]
          exact success rfl

end Attempt

end OtaBoot
