import OtaBoot.Lib.Attempts

set_option autoImplicit false

/- What an operation may touch: a state is seen as cells, and a cell outside the footprint
keeps its value however the operation ends. And what it keeps: an invariant of the state
that holds again wherever the operation stops. -/
namespace OtaBoot.Op

variable {σ τ ι κ ω α β : Type}

/-- Only cells of `touches` can change. -/
def Writes (view : σ → ι → ω) (touches : ι → Prop) (c : Op σ α) : Prop :=
  ∀ cell, ¬ touches cell → Keeps (fun s => view s cell) c

section Rules

variable {view : σ → ι → ω} {touches : ι → Prop}

theorem writes_pure (value : α) : Writes view touches (pure value) :=
  fun _ _ => keeps_pure value

theorem writes_gets (g : σ → α) : Writes view touches (gets g) := fun _ _ => keeps_gets g

theorem Writes.bind {first : Op σ α} {next : α → Op σ β} (front : Writes view touches first)
    (rest : ∀ value, Writes view touches (next value)) : Writes view touches (first >>= next) :=
  fun cell outside => (front cell outside).bind fun value => rest value cell outside

theorem Writes.ite {P : Prop} [Decidable P] {yes no : Op σ α} (left : Writes view touches yes)
    (right : Writes view touches no) : Writes view touches (if P then yes else no) :=
  fun cell outside => (left cell outside).ite (right cell outside)

theorem writes_allFrom {body : Nat → Op σ Bool} {count start : Nat}
    (passes : ∀ k, start ≤ k → k < start + count → Writes view touches (body k)) :
    Writes view touches (allFrom body count start) :=
  fun cell outside => keeps_allFrom_within count start fun k lower upper =>
    passes k lower upper cell outside

theorem writes_anyFrom {body : Nat → Op σ Bool} (tries : ∀ k, Writes view touches (body k))
    (count start : Nat) : Writes view touches (anyFrom body count start) :=
  fun cell outside => keeps_anyFrom (fun k => tries k cell outside) count start

/-- A larger footprint says less. -/
theorem Writes.widen {more : ι → Prop} {c : Op σ α} (writes : Writes view touches c)
    (wider : ∀ cell, touches cell → more cell) : Writes view more c :=
  fun cell outside => writes cell fun inside => outside (wider cell inside)

/-- An effect that is tried. -/
theorem writes_perform {effect : σ → σ}
    (apart : ∀ s cell, ¬ touches cell → view (effect s) cell = view s cell) (attempt : Attempt) :
    Writes view touches (attempt.perform effect) :=
  fun cell outside => Attempt.keeps_perform (fun s => apart s cell outside) attempt

/-- An operation on a part of the state: its cells are some of those of the whole. -/
theorem writes_zoom {get : τ → σ} {put : τ → σ → τ} {whole : τ → κ → ω} {more : κ → Prop}
    {c : Op σ α} (writes : Writes view touches c)
    (cells : ∀ t s cell, ¬ more cell → whole (put t s) cell = whole t cell ∨
      ∃ i, ¬ touches i ∧ whole (put t s) cell = view s i ∧ whole t cell = view (get t) i) :
    Writes whole more (zoom get put c) := by
  intro cell outside t
  rcases cells t (c (get t)).2 cell outside with apart | ⟨i, free, after, before⟩
  · exact apart
  · show whole (put t (c (get t)).2) cell = whole t cell
    rw [after, before]
    exact writes i free (get t)

end Rules

/-- The invariant holds again, also where power is lost. -/
def Preserves (I : σ → Prop) (c : Op σ α) : Prop := ∀ s, I s → I (c s).2

section Invariant

variable {I : σ → Prop}

theorem preserves_pure (value : α) : Preserves I (pure value) := fun _ holds => holds

theorem preserves_gets (g : σ → α) : Preserves I (gets g) := fun _ holds => holds

theorem Preserves.bind {first : Op σ α} {next : α → Op σ β} (front : Preserves I first)
    (rest : ∀ value, Preserves I (next value)) : Preserves I (first >>= next) := by
  intro s holds
  have held := front s holds
  generalize run : first s = result at held
  obtain ⟨exit, t⟩ := result
  cases exit with
  | cut =>
      rw [bind_run_cut _ _ _ _ run]
      exact held
  | done value =>
      rw [bind_run_done _ _ _ _ _ run]
      exact rest value t held

theorem Preserves.ite {P : Prop} [Decidable P] {yes no : Op σ α} (left : Preserves I yes)
    (right : Preserves I no) : Preserves I (if P then yes else no) := by
  split
  · exact left
  · exact right

theorem preserves_allFrom {body : Nat → Op σ Bool} (passes : ∀ k, Preserves I (body k))
    (count : Nat) : ∀ start, Preserves I (allFrom body count start) := by
  induction count with
  | zero =>
      intro start
      exact preserves_pure true
  | succ count ih =>
      intro start
      apply (passes start).bind
      intro ok
      exact (ih (start + 1)).ite (preserves_pure false)

theorem preserves_anyFrom {body : Nat → Op σ Bool} (tries : ∀ k, Preserves I (body k))
    (count : Nat) : ∀ start, Preserves I (anyFrom body count start) := by
  induction count with
  | zero =>
      intro start
      exact preserves_pure false
  | succ count ih =>
      intro start
      apply (tries start).bind
      intro ok
      exact (preserves_pure true).ite (ih (start + 1))

/-- What is said of a part that the operation keeps. -/
theorem Keeps.preserves {f : σ → ω} {c : Op σ α} (keeps : Keeps f c) (P : ω → Prop) :
    Preserves (fun s => P (f s)) c := by
  intro s holds
  rw [keeps s]
  exact holds

end Invariant

end OtaBoot.Op
