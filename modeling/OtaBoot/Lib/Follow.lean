import OtaBoot.Lib.Run

set_option autoImplicit false

namespace OtaBoot

/-- How a piece of a program ends: it goes on with a value, or the program stays at a
place that it does not leave by itself. -/
inductive Flow (σ ι α : Type)
  | next (value : α) (s : σ)
  | stop (place : ι) (s : σ)

/-- A program with blocking waits: it changes a state until it ends or stops somewhere. -/
def Prog (σ ι α : Type) : Type := σ → Flow σ ι α

namespace Prog

variable {σ ι α β : Type}

def bind (first : Prog σ ι α) (next : α → Prog σ ι β) : Prog σ ι β := fun s =>
  match first s with
  | .next value t => next value t
  | .stop place t => .stop place t

instance : Monad (Prog σ ι) where
  pure value := fun s => .next value s
  bind := bind

def gets (f : σ → α) : Prog σ ι α := fun s => .next (f s) s

def modify (f : σ → σ) : Prog σ ι Unit := fun s => .next () (f s)

def halt (place : ι) : Prog σ ι α := fun s => .stop place s

theorem bind_next {first : Prog σ ι α} {s t : σ} {value : α} (ends : first s = .next value t)
    (next : α → Prog σ ι β) : (first >>= next) s = next value t := by
  show bind first next s = _
  simp only [bind, ends]

theorem bind_stop {first : Prog σ ι α} {s t : σ} {place : ι} (stops : first s = .stop place t)
    (next : α → Prog σ ι β) : (first >>= next) s = .stop place t := by
  show bind first next s = _
  simp only [bind, stops]

/-- `Ensures c s Q C`: run from `s`, the program either ends with a value and a state
satisfying `Q`, or stays at a place, in a state, satisfying `C`. -/
def Ensures (c : Prog σ ι α) (s : σ) (Q : α → σ → Prop) (C : ι → σ → Prop) : Prop :=
  match c s with
  | .next value t => Q value t
  | .stop place t => C place t

section Ensures

variable {Q : α → σ → Prop} {C : ι → σ → Prop} {s : σ}

theorem ensures_bind {first : Prog σ ι α} {next : α → Prog σ ι β} {Q : β → σ → Prop} :
    Ensures (first >>= next) s Q C ↔
      Ensures first s (fun value t => Ensures (next value) t Q C) C := by
  unfold Ensures
  generalize run : first s = flow
  cases flow with
  | next value t => rw [bind_next run]
  | stop place t => rw [bind_stop run]

theorem Ensures.mono {Q' : α → σ → Prop} {C' : ι → σ → Prop} {c : Prog σ ι α}
    (held : Ensures c s Q C) (ends : ∀ value t, Q value t → Q' value t)
    (stays : ∀ place t, C place t → C' place t) : Ensures c s Q' C' := by
  unfold Ensures at held ⊢
  split at held
  · exact ends _ _ held
  · exact stays _ _ held

/-- Sequencing: the first part establishes an intermediate assertion from which the rest
is proved. -/
theorem Ensures.bind {first : Prog σ ι α} {next : α → Prog σ ι β} {Q : β → σ → Prop}
    (P : α → σ → Prop) (front : Ensures first s P C)
    (rest : ∀ value t, P value t → Ensures (next value) t Q C) :
    Ensures (first >>= next) s Q C :=
  ensures_bind.mpr (front.mono rest fun _ _ stays => stays)

theorem ensures_ite {P : Prop} [Decidable P] {yes no : Prog σ ι α}
    (left : P → Ensures yes s Q C) (right : ¬ P → Ensures no s Q C) :
    Ensures (if P then yes else no) s Q C := by
  split
  · rename_i holds
    exact left holds
  · rename_i fails
    exact right fails

/-- Passing through a list keeps what each piece keeps. -/
theorem ensures_forM {I : σ → Prop} {body : β → Prog σ ι Unit} (items : List β)
    (passes : ∀ item ∈ items, ∀ s, I s → Ensures (body item) s (fun _ t => I t) C) :
    ∀ s, I s → Ensures (items.forM body) s (fun _ t => I t) C := by
  induction items with
  | nil =>
      intro s holds
      exact holds
  | cons item rest ih =>
      intro s holds
      exact Ensures.bind _ (passes item List.mem_cons_self s holds) fun _ t kept =>
        ih (fun item found => passes item (List.mem_cons_of_mem _ found)) t kept

end Ensures

end Prog

variable {σ ι α β τ ε : Type}

/-- The end of a piece of a program is related to a state of the machine: at the place
that goes with the value, or at the one where the program stops. -/
def Flow.Meets (R : ι → σ → τ → Prop) (next : α → ι) (m : τ) : Flow σ ι α → Prop
  | .next value t => R (next value) t m
  | .stop place t => R place t m

/-- From states that are related at `place` the program does what some run of the
machine does. -/
def Follows (step : τ → ε → τ) (R : ι → σ → τ → Prop) (place : ι) (c : Prog σ ι α)
    (next : α → ι) : Prop :=
  ∀ s m, R place s m → ∃ inputs, (c s).Meets R next (Run.after step m inputs)

section Rules

variable {step : τ → ε → τ} {R : ι → σ → τ → Prop}

/-- A value is returned when the machine has caught up with the place that goes with it. -/
theorem follows_return {place : ι} {value : α} {next : α → ι}
    (run : ∀ s m, R place s m → ∃ inputs, R (next value) s (Run.after step m inputs)) :
    Follows step R place (pure value) next := run

theorem follows_pure (place : ι) (value : α) {next : α → ι} (there : next value = place) :
    Follows step R place (pure value) next :=
  follows_return fun s m related => ⟨[], show R (next value) s m by rw [there]; exact related⟩

theorem follows_gets (place : ι) (f : σ → α) :
    Follows step R place (Prog.gets f) fun _ => place := fun _ _ related => ⟨[], related⟩

/-- The machine may go on alone first. -/
theorem Follows.advance {place there : ι} {c : Prog σ ι α} {next : α → ι}
    (follows : Follows step R there c next)
    (run : ∀ s m, R place s m → ∃ inputs, R there s (Run.after step m inputs)) :
    Follows step R place c next := by
  intro s m related
  obtain ⟨front, arrived⟩ := run s m related
  obtain ⟨back, meets⟩ := follows s _ arrived
  refine ⟨front ++ back, ?_⟩
  rw [Run.after_append]
  exact meets

theorem follows_halt (place : ι) (next : α → ι) :
    Follows step R place (Prog.halt place : Prog σ ι α) next :=
  fun _ _ related => ⟨[], related⟩

theorem Follows.bind {place : ι} {first : Prog σ ι α} {rest : α → Prog σ ι β} {next : β → ι}
    (mid : α → ι) (front : Follows step R place first mid)
    (back : ∀ value, Follows step R (mid value) (rest value) next) :
    Follows step R place (first >>= rest) next := by
  intro s m related
  obtain ⟨inputs, meets⟩ := front s m related
  generalize run : first s = flow at meets
  cases flow with
  | stop there t =>
      rw [Prog.bind_stop run]
      exact ⟨inputs, meets⟩
  | next value t =>
      rw [Prog.bind_next run]
      obtain ⟨more, ends⟩ := back value t _ meets
      refine ⟨inputs ++ more, ?_⟩
      rw [Run.after_append]
      exact ends

theorem Follows.ite {P : Prop} [Decidable P] {place : ι} {yes no : Prog σ ι α} {next : α → ι}
    (left : P → Follows step R place yes next) (right : ¬ P → Follows step R place no next) :
    Follows step R place (if P then yes else no) next := by
  split
  · rename_i holds
    exact left holds
  · rename_i fails
    exact right fails

/-- A piece that takes one input of the machine. -/
theorem follows_step {place : ι} {c : Prog σ ι α} {next : α → ι}
    (one : ∀ s m, R place s m → ∃ input, (c s).Meets R next (step m input)) :
    Follows step R place c next := by
  intro s m related
  obtain ⟨input, meets⟩ := one s m related
  exact ⟨[input], meets⟩

/-- A change of the state that the machine makes as well, or need not make. -/
theorem follows_modify {place there : ι} {f : σ → σ}
    (run : ∀ s m, R place s m → ∃ inputs, R there (f s) (Run.after step m inputs)) :
    Follows step R place (Prog.modify f) fun _ => there := run

/-- Passing through a list, one piece after the other, from a place back to it. -/
theorem follows_forM {place : ι} {body : β → Prog σ ι Unit}
    (passes : ∀ item, Follows step R place (body item) fun _ => place) (items : List β) :
    Follows step R place (items.forM body) fun _ => place := by
  induction items with
  | nil => exact follows_pure place () rfl
  | cons item rest ih => exact (passes item).bind (fun _ => place) fun _ => ih

end Rules

end OtaBoot
