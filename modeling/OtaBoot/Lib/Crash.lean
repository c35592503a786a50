import Mathlib.Tactic.Common

set_option autoImplicit false

namespace OtaBoot

/-- How a computation on a device ends: it returns a value, or power is lost
and the device keeps the state it had at that moment. -/
inductive Exit (α : Type)
  | done (value : α)
  | cut
  deriving DecidableEq

/-- How at most `count` tries end when try `k` would end with `exits k`. -/
def Exit.any (exits : Nat → Exit Bool) : Nat → Nat → Exit Bool
  | 0, _ => .done false
  | count + 1, start =>
    match exits start with
    | .done true => .done true
    | .done false => Exit.any exits count (start + 1)
    | .cut => .cut

/-- Tries that never succeed do not succeed together. -/
theorem Exit.any_failing {exits : Nat → Exit Bool} (failing : ∀ k, exits k ≠ .done true)
    (count : Nat) : ∀ start, Exit.any exits count start ≠ .done true := by
  induction count with
  | zero =>
      intro start
      simp [Exit.any]
  | succ count ih =>
      intro start
      have bad := failing start
      unfold Exit.any
      generalize exits start = ending at bad
      cases ending with
      | cut => simp
      | done ok =>
          cases ok with
          | true => exact absurd rfl bad
          | false => exact ih (start + 1)

/-- A computation on a device state that power loss can stop between any two of
its operations. -/
def Op (σ α : Type) : Type := σ → Exit α × σ

namespace Op

variable {σ α β : Type}

instance : Monad (Op σ) where
  pure value := fun s => (.done value, s)
  bind first next := fun s =>
    match first s with
    | (.done value, t) => next value t
    | (.cut, t) => (.cut, t)

theorem pure_run (value : α) (s : σ) : (pure value : Op σ α) s = (.done value, s) := rfl

theorem bind_run (first : Op σ α) (next : α → Op σ β) (s : σ) :
    (first >>= next) s = match first s with
      | (.done value, t) => next value t
      | (.cut, t) => (.cut, t) := rfl

theorem bind_run_done (first : Op σ α) (next : α → Op σ β) (s t : σ) (value : α)
    (finished : first s = (.done value, t)) : (first >>= next) s = next value t := by
  simp only [bind, finished]

theorem bind_run_cut (first : Op σ α) (next : α → Op σ β) (s t : σ)
    (lost : first s = (.cut, t)) : (first >>= next) s = (.cut, t) := by
  simp only [bind, lost]

theorem bind_assoc {γ : Type} (first : Op σ α) (second : α → Op σ β) (third : β → Op σ γ) :
    (first >>= second) >>= third = first >>= fun value => second value >>= third := by
  funext s
  generalize run : first s = result
  obtain ⟨exit, t⟩ := result
  cases exit with
  | done value =>
      rw [bind_run, bind_run_done _ _ _ _ _ run, bind_run_done _ _ _ _ _ run, bind_run]
  | cut => rw [bind_run_cut _ _ _ _ (bind_run_cut _ _ _ _ run), bind_run_cut _ _ _ _ run]

/-- Look at the state without changing it. -/
def gets (f : σ → α) : Op σ α := fun s => (.done (f s), s)

theorem gets_bind_run (f : σ → α) (next : α → Op σ β) (s : σ) :
    (gets f >>= next) s = next (f s) s := rfl

/-- `Ensures c s Q C`: run from `s`, the computation either returns a value and a
state satisfying `Q`, or loses power in a state satisfying `C`. -/
def Ensures (c : Op σ α) (s : σ) (Q : α → σ → Prop) (C : σ → Prop) : Prop :=
  match c s with
  | (.done value, t) => Q value t
  | (.cut, t) => C t

theorem ensures_pure (value : α) (s : σ) (Q : α → σ → Prop) (C : σ → Prop) :
    Ensures (pure value) s Q C ↔ Q value s := Iff.rfl

theorem ensures_bind (first : Op σ α) (next : α → Op σ β) (s : σ)
    (Q : β → σ → Prop) (C : σ → Prop) :
    Ensures (first >>= next) s Q C ↔
      Ensures first s (fun value t => Ensures (next value) t Q C) C := by
  unfold Ensures
  generalize run : first s = result
  obtain ⟨exit, t⟩ := result
  cases exit with
  | done value => rw [bind_run_done first next s t value run]
  | cut => rw [bind_run_cut first next s t run]

theorem ensures_true (c : Op σ α) (s : σ) : Ensures c s (fun _ _ => True) (fun _ => True) := by
  unfold Ensures
  split <;> trivial

theorem Ensures.mono {c : Op σ α} {s : σ} {Q Q' : α → σ → Prop} {C C' : σ → Prop}
    (held : Ensures c s Q C) (returns : ∀ value t, Q value t → Q' value t)
    (cuts : ∀ t, C t → C' t) : Ensures c s Q' C' := by
  unfold Ensures at held ⊢
  split at held
  · exact returns _ _ held
  · exact cuts _ held

/-- Sequencing: the first part establishes an intermediate assertion from which
the rest is proved. -/
theorem Ensures.bind {first : Op σ α} {next : α → Op σ β} {s : σ}
    {Q : β → σ → Prop} {C : σ → Prop} (P : α → σ → Prop)
    (front : Ensures first s P C)
    (rest : ∀ value t, P value t → Ensures (next value) t Q C) :
    Ensures (first >>= next) s Q C :=
  (ensures_bind first next s Q C).mpr (front.mono rest fun _ lost => lost)

theorem ensures_gets_bind (f : σ → α) (next : α → Op σ β) (s : σ)
    (Q : β → σ → Prop) (C : σ → Prop) :
    Ensures (gets f >>= next) s Q C ↔ Ensures (next (f s)) s Q C := Iff.rfl

/-- An assertion of the final state that does not depend on how the run ended. -/
theorem Ensures.final {c : Op σ α} {s : σ} {P : σ → Prop}
    (held : Ensures c s (fun _ t => P t) P) : P (c s).2 := by
  unfold Ensures at held
  split at held
  · rename_i run
    rw [run]
    exact held
  · rename_i run
    rw [run]
    exact held

theorem ensures_of_final {c : Op σ α} {s : σ} {P : σ → Prop} (held : P (c s).2) :
    Ensures c s (fun _ t => P t) P := by
  unfold Ensures
  generalize c s = result at held
  obtain ⟨exit, t⟩ := result
  cases exit with
  | done value => exact held
  | cut => exact held

theorem ensures_of_run {c : Op σ α} {s t : σ} {value : α} {Q : α → σ → Prop} {C : σ → Prop}
    (held : Ensures c s Q C) (run : c s = (.done value, t)) : Q value t := by
  simpa only [Ensures, run] using held

theorem ensures_of_cut {c : Op σ α} {s t : σ} {Q : α → σ → Prop} {C : σ → Prop}
    (held : Ensures c s Q C) (run : c s = (.cut, t)) : C t := by
  simpa only [Ensures, run] using held

/-- Run `body start, body (start + 1), ...` for `count` passes, leaving the loop
with `false` at the first pass that reports failure. -/
def allFrom (body : Nat → Op σ Bool) : Nat → Nat → Op σ Bool
  | 0, _ => pure true
  | count + 1, start => do
    if ← body start then allFrom body count (start + 1) else pure false

/-- Repeat `body` for at most `count` attempts until one reports success. -/
def anyFrom (body : Nat → Op σ Bool) : Nat → Nat → Op σ Bool
  | 0, _ => pure false
  | count + 1, start => do
    if ← body start then pure true else anyFrom body count (start + 1)

theorem allFrom_congr {body other : Nat → Op σ Bool} (count : Nat) : ∀ start,
    (∀ k, start ≤ k → k < start + count → body k = other k) →
    allFrom body count start = allFrom other count start := by
  induction count with
  | zero =>
      intro start _
      rfl
  | succ count ih =>
      intro start same
      unfold allFrom
      rw [same start (by omega) (by omega),
        ih (start + 1) fun k lower upper => same k (by omega) (by omega)]

/-- Loop rule: `I k` holds before pass `k`; a failing pass establishes `E`, a
power cut `C`. -/
theorem allFrom_ensures (body : Nat → Op σ Bool) (I : Nat → σ → Prop) (E C : σ → Prop)
    (count : Nat) : ∀ start s, I start s →
    (∀ k t, start ≤ k → k < start + count → I k t →
      Ensures (body k) t (fun ok u => if ok then I (k + 1) u else E u) C) →
    Ensures (allFrom body count start) s
      (fun ok t => if ok then I (start + count) t else E t) C := by
  induction count with
  | zero =>
      intro start s holds _
      exact holds
  | succ count ih =>
      intro start s holds step
      refine Ensures.bind _ (step start s (by omega) (by omega) holds) ?_
      intro ok t passed
      cases ok with
      | false => exact passed
      | true =>
          have rest := ih (start + 1) t passed
            (fun k u lower upper => step k u (by omega) (by omega))
          have total : start + 1 + count = start + (count + 1) := by omega
          rw [total] at rest
          exact rest

/-- Retry rule: `I` holds before every attempt, a successful one gives `Q`. -/
theorem anyFrom_ensures (body : Nat → Op σ Bool) (I Q C : σ → Prop)
    (count : Nat) : ∀ start s, I s →
    (∀ k t, start ≤ k → k < start + count → I t →
      Ensures (body k) t (fun ok u => if ok then Q u else I u) C) →
    Ensures (anyFrom body count start) s (fun ok t => if ok then Q t else I t) C := by
  induction count with
  | zero =>
      intro start s holds _
      exact holds
  | succ count ih =>
      intro start s holds step
      refine Ensures.bind _ (step start s (by omega) (by omega) holds) ?_
      intro ok t passed
      cases ok with
      | false => exact ih (start + 1) t passed (fun k u lower upper => step k u (by omega) (by omega))
      | true => exact passed

/-- The computation ends with `exit`, whatever state it starts from. -/
def Exits (c : Op σ α) (exit : Exit α) : Prop := ∀ s, (c s).1 = exit

theorem Exits.run {c : Op σ α} {exit : Exit α} (ends : Exits c exit) (s : σ) :
    c s = (exit, (c s).2) := by
  rw [← ends s]

theorem Exits.then {first : Op σ α} {value : α} (ends : Exits first (.done value))
    (next : α → Op σ β) (s : σ) : (first >>= next) s = next value (first s).2 :=
  bind_run_done first next s (first s).2 value (ends.run s)

theorem Exits.bind_cut {first : Op σ α} (ends : Exits first .cut) (next : α → Op σ β) :
    Exits (first >>= next) .cut := by
  intro s
  rw [bind_run_cut first next s (first s).2 (ends.run s)]

theorem exits_anyFrom {body : Nat → Op σ Bool} {exits : Nat → Exit Bool}
    (tries : ∀ k, Exits (body k) (exits k)) (count : Nat) : ∀ start,
    Exits (anyFrom body count start) (Exit.any exits count start) := by
  induction count with
  | zero =>
      intro start s
      rfl
  | succ count ih =>
      intro start s
      have first := tries start
      unfold anyFrom Exit.any
      generalize exits start = ending at first
      cases ending with
      | cut => exact first.bind_cut _ s
      | done ok =>
          rw [first.then]
          cases ok with
          | true => rfl
          | false => exact ih (start + 1) _

/-- `Succeeds c P`: the computation returns `true` exactly when `P` holds, whatever
state it starts from. -/
def Succeeds (c : Op σ Bool) (P : Prop) : Prop := ∀ s, (c s).1 = .done true ↔ P

theorem Exits.succeeds {c : Op σ Bool} {exit : Exit Bool} (ends : Exits c exit) :
    Succeeds c (exit = .done true) := by
  intro s
  rw [ends s]

theorem Succeeds.and {first second : Op σ Bool} {P Q : Prop} (left : Succeeds first P)
    (right : Succeeds second Q) :
    Succeeds (do if ← first then second else pure false) (P ∧ Q) := by
  intro s
  have front := left s
  generalize run : first s = result at front
  obtain ⟨exit, t⟩ := result
  cases exit with
  | cut =>
      rw [bind_run_cut _ _ _ _ run]
      have stopped : ¬ P := fun holds => nomatch front.mpr holds
      simp only [stopped, false_and, reduceCtorEq]
  | done ok =>
      rw [bind_run_done _ _ _ _ _ run]
      cases ok with
      | false =>
          have failed : ¬ P := fun holds => nomatch front.mpr holds
          simp only [failed, false_and, Bool.false_eq_true, ↓reduceIte, pure_run,
            Exit.done.injEq]
      | true =>
          have passed : P := front.mp rfl
          simp only [passed, true_and, ↓reduceIte]
          exact right t

/-- A second computation runs if the first returns `false`. -/
theorem Exits.or {first second : Op σ Bool} {exit : Exit Bool} {P : Prop} (ends : Exits first exit)
    (again : Succeeds second P) :
    Succeeds (do if ← first then pure true else second)
      (exit = .done true ∨ exit = .done false ∧ P) := by
  intro s
  cases exit with
  | cut =>
      rw [ends.bind_cut _ s]
      simp only [reduceCtorEq, false_and, or_self]
  | done ok =>
      rw [ends.then]
      cases ok with
      | true => simp only [↓reduceIte, pure_run, true_or]
      | false =>
          simp only [Bool.false_eq_true, ↓reduceIte, Exit.done.injEq, false_or, true_and]
          exact again (first s).2

/-- What follows a computation whose value is ignored. -/
theorem Exits.ignored {first : Op σ α} {exit : Exit α} {next : Op σ Bool} {P : Prop}
    (ends : Exits first exit) (rest : Succeeds next P) :
    Succeeds (do
      let _ ← first
      next) (exit ≠ .cut ∧ P) := by
  intro s
  cases exit with
  | cut =>
      rw [ends.bind_cut _ s]
      simp only [reduceCtorEq, ne_eq, not_true_eq_false, false_and]
  | done value =>
      rw [ends.then, rest]
      simp only [ne_eq, reduceCtorEq, not_false_eq_true, true_and]

/-- What a computation ensures, once it is known to return `true`. -/
theorem Ensures.of_success {c : Op σ Bool} {s : σ} {P : Prop} {Q : Bool → σ → Prop} {C : σ → Prop}
    (spec : Ensures c s Q C) (succeeds : Succeeds c P) (holds : P) :
    Ensures c s (fun ok t => ok = true ∧ Q true t) (fun _ => False) := by
  have success := (succeeds s).mpr holds
  unfold Ensures at spec ⊢
  generalize c s = result at spec success
  obtain ⟨exit, t⟩ := result
  subst success
  exact ⟨rfl, spec⟩

/-- A loop succeeds when all its passes do. -/
theorem succeeds_allFrom {body : Nat → Op σ Bool} {P : Nat → Prop}
    (passes : ∀ k, Succeeds (body k) (P k)) (count : Nat) : ∀ start,
    Succeeds (allFrom body count start) (∀ k < count, P (start + k)) := by
  induction count with
  | zero =>
      intro start s
      simp only [allFrom, pure_run, Nat.not_lt_zero, false_implies, implies_true]
  | succ count ih =>
      intro start s
      have both := (passes start).and (ih (start + 1)) s
      rw [allFrom]
      rw [both]
      constructor
      · intro holds k below
        cases k with
        | zero => exact holds.1
        | succ k =>
            have next := holds.2 k (by omega)
            rwa [Nat.add_right_comm] at next
      · intro holds
        refine ⟨holds 0 (by omega), ?_⟩
        intro k below
        have next := holds (k + 1) (by omega)
        rwa [← Nat.add_assoc, Nat.add_right_comm] at next

/-- Run a computation on one component of a larger state. -/
def zoom {τ : Type} (get : τ → σ) (put : τ → σ → τ) (c : Op σ α) : Op τ α := fun t =>
  ((c (get t)).1, put t (c (get t)).2)

/-- The rest of the larger state is framed: it changes only through `put`. -/
theorem ensures_zoom {τ : Type} (get : τ → σ) (put : τ → σ → τ) (c : Op σ α) (t : τ)
    (Q : α → τ → Prop) (C : τ → Prop) :
    Ensures (zoom get put c) t Q C ↔
      Ensures c (get t) (fun value s => Q value (put t s)) (fun s => C (put t s)) := by
  unfold Ensures zoom
  generalize c (get t) = result
  obtain ⟨exit, s⟩ := result
  cases exit <;> rfl

/-- The computation leaves the part `f` of the state as it was. -/
def Keeps {γ : Type} (f : σ → γ) (c : Op σ α) : Prop := ∀ s, f (c s).2 = f s

section Keeps

variable {γ : Type} {f : σ → γ}

theorem keeps_pure (value : α) : Keeps f (pure value) := fun _ => rfl

theorem keeps_gets (g : σ → α) : Keeps f (gets g) := fun _ => rfl

theorem Keeps.bind {first : Op σ α} {next : α → Op σ β} (front : Keeps f first)
    (rest : ∀ value, Keeps f (next value)) : Keeps f (first >>= next) := by
  intro s
  have kept := front s
  generalize run : first s = result at kept
  obtain ⟨exit, t⟩ := result
  cases exit with
  | cut =>
      rw [bind_run_cut _ _ _ _ run]
      exact kept
  | done value =>
      rw [bind_run_done _ _ _ _ _ run]
      exact (rest value t).trans kept

theorem Keeps.ite {P : Prop} [Decidable P] {yes no : Op σ α} (left : Keeps f yes)
    (right : Keeps f no) : Keeps f (if P then yes else no) := by
  split
  · exact left
  · exact right

theorem keeps_allFrom_within {body : Nat → Op σ Bool} (count : Nat) : ∀ start,
    (∀ k, start ≤ k → k < start + count → Keeps f (body k)) →
    Keeps f (allFrom body count start) := by
  induction count with
  | zero =>
      intro start _
      exact keeps_pure true
  | succ count ih =>
      intro start passes
      apply (passes start (by omega) (by omega)).bind
      intro ok
      have rest := ih (start + 1) fun k lower upper => passes k (by omega) (by omega)
      exact rest.ite (keeps_pure false)

theorem keeps_allFrom {body : Nat → Op σ Bool} (passes : ∀ k, Keeps f (body k)) (count start : Nat) :
    Keeps f (allFrom body count start) :=
  keeps_allFrom_within count start fun k _ _ => passes k

theorem keeps_anyFrom {body : Nat → Op σ Bool} (tries : ∀ k, Keeps f (body k)) (count : Nat) :
    ∀ start, Keeps f (anyFrom body count start) := by
  induction count with
  | zero =>
      intro start
      exact keeps_pure false
  | succ count ih =>
      intro start
      apply (tries start).bind
      intro ok
      exact (keeps_pure true).ite (ih (start + 1))

end Keeps

theorem keeps_zoom {τ γ : Type} {f : τ → γ} {get : τ → σ} {put : τ → σ → τ} {c : Op σ α}
    (apart : ∀ t s, f (put t s) = f t) : Keeps f (zoom get put c) := fun t => apart t _

theorem exits_zoom {τ : Type} {get : τ → σ} {put : τ → σ → τ} {c : Op σ α} {exit : Exit α}
    (inner : Exits c exit) : Exits (zoom get put c) exit := fun t => inner (get t)

theorem succeeds_zoom {τ : Type} {get : τ → σ} {put : τ → σ → τ} {c : Op σ Bool} {P : Prop}
    (inner : Succeeds c P) : Succeeds (zoom get put c) P := fun t => inner (get t)

/-- The computation never loses power. -/
def Returns (c : Op σ α) : Prop := ∀ s, (c s).1 ≠ .cut

section Returns

theorem returns_pure (value : α) : Returns (pure value : Op σ α) := by
  intro s lost
  cases lost

theorem Returns.bind {first : Op σ α} {next : α → Op σ β} (front : Returns first)
    (rest : ∀ value, Returns (next value)) : Returns (first >>= next) := by
  intro s
  have returned := front s
  generalize run : first s = result at returned
  obtain ⟨exit, t⟩ := result
  cases exit with
  | cut => exact absurd rfl returned
  | done value =>
      rw [bind_run_done _ _ _ _ _ run]
      exact rest value t

theorem Returns.ite {P : Prop} [Decidable P] {yes no : Op σ α} (left : Returns yes)
    (right : Returns no) : Returns (if P then yes else no) := by
  split
  · exact left
  · exact right

theorem returns_allFrom {body : Nat → Op σ Bool} (passes : ∀ k, Returns (body k)) (count : Nat) :
    ∀ start, Returns (allFrom body count start) := by
  induction count with
  | zero =>
      intro start
      exact returns_pure true
  | succ count ih =>
      intro start
      apply (passes start).bind
      intro ok
      exact (ih (start + 1)).ite (returns_pure false)

theorem returns_anyFrom {body : Nat → Op σ Bool} (tries : ∀ k, Returns (body k)) (count : Nat) :
    ∀ start, Returns (anyFrom body count start) := by
  induction count with
  | zero =>
      intro start
      exact returns_pure false
  | succ count ih =>
      intro start
      apply (tries start).bind
      intro ok
      exact (returns_pure true).ite (ih (start + 1))

theorem returns_gets (f : σ → α) : Returns (gets f) := by
  intro s lost
  cases lost

theorem returns_zoom {τ : Type} {get : τ → σ} {put : τ → σ → τ} {c : Op σ α} (inner : Returns c) :
    Returns (zoom get put c) := fun t => inner (get t)

theorem Exits.returns {c : Op σ α} {exit : Exit α} (ends : Exits c exit) (kept : exit ≠ .cut) :
    Returns c := by
  intro s
  rw [ends s]
  exact kept

end Returns

end Op

end OtaBoot
