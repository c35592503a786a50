import OtaBoot.Lib.Crash
import Mathlib.Logic.Function.Basic

set_option autoImplicit false

/- Operations whose faults an abstract model takes as a parameter, and concrete ones in
which the faults arise: the concrete one refines the abstract one if some permitted
choice of the faults explains what it does. -/
namespace OtaBoot.Op

variable {σ τ φ ψ α β : Type}

/-- From related states both end alike, with some permitted fault, in states that are
related by how they end. -/
def Refines (permitted : φ → Prop) (abstract : φ → Op τ α) (concrete : Op σ α)
    (R : σ → τ → Prop) (S : Exit α → σ → τ → Prop) : Prop :=
  ∀ c m, R c m → ∃ fault, permitted fault ∧ (abstract fault m).1 = (concrete c).1 ∧
    S (concrete c).1 (concrete c).2 (abstract fault m).2

/-- A relation for each of the three ways to end. -/
def outcome (T F C : σ → τ → Prop) : Exit Bool → σ → τ → Prop
  | .done true => T
  | .done false => F
  | .cut => C

section Rules

variable {permitted : φ → Prop} {q : ψ → Prop} {R : σ → τ → Prop}
  {S : Exit α → σ → τ → Prop} {T : Exit β → σ → τ → Prop}

theorem refines_of_run {abstract : φ → Op τ α} {concrete : Op σ α}
    (explains : ∀ c m, R c m → ∃ fault n, permitted fault ∧
      abstract fault m = ((concrete c).1, n) ∧ S (concrete c).1 (concrete c).2 n) :
    Refines permitted abstract concrete R S := by
  intro c m related
  obtain ⟨fault, n, permits, run, after⟩ := explains c m related
  refine ⟨fault, permits, ?_⟩
  rw [run]
  exact ⟨rfl, after⟩

theorem refines_pure {value : α} (fault : φ) (allowed : permitted fault)
    (ends : ∀ c m, R c m → S (.done value) c m) :
    Refines permitted (fun _ => pure value) (pure value) R S :=
  fun c m related => ⟨fault, allowed, rfl, ends c m related⟩

/-- Another parameter for the same faults. -/
theorem Refines.map {abstract : φ → Op τ α} {other : ψ → Op τ α} {concrete : Op σ α}
    (refines : Refines permitted abstract concrete R S) (f : φ → ψ)
    (allowed : ∀ fault, permitted fault → q (f fault))
    (same : ∀ fault, abstract fault = other (f fault)) : Refines q other concrete R S := by
  intro c m related
  obtain ⟨fault, permits, ends, after⟩ := refines c m related
  rw [same fault] at ends after
  exact ⟨f fault, allowed fault permits, ends, after⟩

/-- Sequencing: the faults of both parts. `idle` are those of a second part that is not
reached. -/
theorem Refines.bind {abstract : φ → Op τ α} {first : Op σ α} {f : α → ψ → Op τ β}
    {g : α → Op σ β} (idle : ψ) (allowed : q idle)
    (front : Refines permitted abstract first R S)
    (cut : ∀ c m, S .cut c m → T .cut c m)
    (back : ∀ value, Refines q (f value) (g value) (S (.done value)) T) :
    Refines (fun faults : φ × ψ => permitted faults.1 ∧ q faults.2)
      (fun faults => abstract faults.1 >>= fun value => f value faults.2)
      (first >>= g) R T := by
  intro c m related
  obtain ⟨fault, permits, ends, after⟩ := front c m related
  generalize run : first c = result at ends after
  obtain ⟨exit, d⟩ := result
  generalize start : abstract fault m = begun at ends after
  obtain ⟨same, n⟩ := begun
  obtain rfl : same = exit := ends
  cases same with
  | cut =>
      refine ⟨(fault, idle), ⟨permits, allowed⟩, ?_⟩
      have lost : (abstract fault >>= fun value => f value idle) m = (.cut, n) :=
        bind_run_cut _ _ _ _ start
      show ((abstract fault >>= fun value => f value idle) m).1 = _ ∧
        T _ _ ((abstract fault >>= fun value => f value idle) m).2
      rw [bind_run_cut _ _ _ _ run, lost]
      exact ⟨rfl, cut d n after⟩
  | done value =>
      obtain ⟨more, also, ends, last⟩ := back value d n after
      refine ⟨(fault, more), ⟨permits, also⟩, ?_⟩
      have goes : (abstract fault >>= fun value => f value more) m = f value more n :=
        bind_run_done _ _ _ _ _ start
      show ((abstract fault >>= fun value => f value more) m).1 = _ ∧
        T _ _ ((abstract fault >>= fun value => f value more) m).2
      rw [bind_run_done _ _ _ _ _ run, goes]
      exact ⟨ends, last⟩

theorem Refines.ite {P : Prop} [Decidable P] {yes no : φ → Op τ α} {concreteYes concreteNo : Op σ α}
    (left : P → Refines permitted yes concreteYes R S)
    (right : ¬ P → Refines permitted no concreteNo R S) :
    Refines permitted (fun fault => if P then yes fault else no fault)
      (if P then concreteYes else concreteNo) R S := by
  split
  · rename_i holds
    simpa only [holds, ↓reduceIte] using left holds
  · rename_i fails
    simpa only [fails, ↓reduceIte] using right fails

end Rules

section Loops

variable {permitted : φ → Prop} {R F T C : σ → τ → Prop}

theorem anyFrom_congr {body other : Nat → Op σ Bool} (count : Nat) : ∀ start,
    (∀ k, start ≤ k → body k = other k) → anyFrom body count start = anyFrom other count start := by
  induction count with
  | zero =>
      intro start _
      rfl
  | succ count ih =>
      intro start same
      unfold anyFrom
      rw [same start (Nat.le_refl start), ih (start + 1) fun k later => same k (by omega)]

/-- The fault of a first pass before those of the others. -/
theorem permitted_update {faults : Nat → φ} (allowed : ∀ k, permitted (faults k)) {fault : φ}
    (also : permitted fault) (start : Nat) :
    ∀ k, permitted (Function.update faults start fault k) := by
  intro k
  by_cases same : k = start
  · subst same
    rw [Function.update_self]
    exact also
  · rw [Function.update_of_ne same]
    exact allowed k

theorem update_later (faults : Nat → φ) (fault : φ) {start k : Nat} (later : start + 1 ≤ k) :
    Function.update faults start fault k = faults k :=
  Function.update_of_ne (Nat.ne_of_gt later) ..

/-- Tries: each is explained by a fault of its own, `idle` standing for those that are not
made. A failed try may leave any state in which the next can be made. -/
theorem Refines.anyFrom {abstract : φ → Op τ Bool} {concrete : Nat → Op σ Bool} (idle : φ)
    (allowed : permitted idle)
    (one : ∀ k, Refines permitted abstract (concrete k) R (outcome T R C)) (count : Nat) :
    ∀ start, Refines (fun faults : Nat → φ => ∀ k, permitted (faults k))
      (fun faults => Op.anyFrom (fun k => abstract (faults k)) count start)
      (Op.anyFrom concrete count start) R (outcome T R C) := by
  induction count with
  | zero =>
      intro start
      exact refines_pure (fun _ => idle) (fun _ => allowed) fun c m related => related
  | succ count ih =>
      intro start
      have tries := (one start).bind (T := outcome T R C)
        (q := fun faults : Nat → φ => ∀ k, permitted (faults k))
        (f := fun ok faults => if ok = true then pure true
          else Op.anyFrom (fun k => abstract (faults k)) count (start + 1))
        (fun _ => idle) (fun _ => allowed) (fun c m lost => lost) fun ok =>
          Refines.ite (P := ok = true)
            (fun yes => refines_pure (fun _ => idle) (fun _ => allowed) fun c m after => by
              rw [yes] at after
              exact after)
            fun no => by
              rw [Bool.not_eq_true] at no
              rw [no]
              exact ih (start + 1)
      refine tries.map (fun faults => Function.update faults.2 start faults.1)
        (fun faults both => permitted_update both.2 both.1 start) fun faults => ?_
      rw [Op.anyFrom.eq_2, Function.update_self, anyFrom_congr count (start + 1)
        fun k later => congrArg abstract (update_later faults.2 faults.1 later)]

/-- Passes: each is explained by a fault of its own. -/
theorem Refines.allFrom {abstract : φ → Nat → Op τ Bool} {concrete : Nat → Op σ Bool} (idle : φ)
    (allowed : permitted idle)
    (one : ∀ k, Refines permitted (fun fault => abstract fault k) (concrete k) R (outcome R F C))
    (count : Nat) : ∀ start, Refines (fun faults : Nat → φ => ∀ k, permitted (faults k))
      (fun faults => Op.allFrom (fun k => abstract (faults k) k) count start)
      (Op.allFrom concrete count start) R (outcome R F C) := by
  induction count with
  | zero =>
      intro start
      exact refines_pure (fun _ => idle) (fun _ => allowed) fun c m related => related
  | succ count ih =>
      intro start
      have passes := (one start).bind (T := outcome R F C)
        (q := fun faults : Nat → φ => ∀ k, permitted (faults k))
        (f := fun ok faults => if ok = true then
          Op.allFrom (fun k => abstract (faults k) k) count (start + 1) else pure false)
        (fun _ => idle) (fun _ => allowed) (fun c m lost => lost) fun ok =>
          Refines.ite (P := ok = true)
            (fun yes => by
              rw [yes]
              exact ih (start + 1))
            fun no => refines_pure (fun _ => idle) (fun _ => allowed) fun c m after => by
              rw [Bool.not_eq_true] at no
              rw [no] at after
              exact after
      refine passes.map (fun faults => Function.update faults.2 start faults.1)
        (fun faults both => permitted_update both.2 both.1 start) fun faults => ?_
      rw [Op.allFrom.eq_2, Function.update_self, allFrom_congr count (start + 1)
        fun k later _ => congrArg (abstract · k) (update_later faults.2 faults.1 later)]

end Loops

end OtaBoot.Op
