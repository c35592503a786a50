import Mathlib.Tactic.Common

set_option autoImplicit false

/- Queues of timers in which each timer holds its distance from the one before it. -/
namespace OtaBoot

structure Timed (τ κ : Type) where
  time : τ
  h : κ
  deriving DecidableEq

namespace Timed

variable {τ κ : Type}

/-- Who waits, first things first. -/
def names (queue : List (Timed τ κ)) : List κ := queue.map Timed.h

@[simp] theorem names_nil : names ([] : List (Timed τ κ)) = [] := rfl

@[simp] theorem names_cons (t : Timed τ κ) (rest : List (Timed τ κ)) :
    names (t :: rest) = t.h :: names rest := rfl

@[simp] theorem length_names (queue : List (Timed τ κ)) : (names queue).length = queue.length :=
  List.length_map _

/-- One more waits, and nobody has changed places. -/
def Joined (k : κ) (before after : List κ) : Prop :=
  ∃ front back, before = front ++ back ∧ after = front ++ k :: back

section Joined

variable {k : κ} {before after : List κ}

theorem joined_head (k : κ) (rest : List κ) : Joined k rest (k :: rest) := ⟨[], rest, rfl, rfl⟩

theorem Joined.cons (joined : Joined k before after) (first : κ) :
    Joined k (first :: before) (first :: after) := by
  obtain ⟨front, back, rfl, rfl⟩ := joined
  exact ⟨first :: front, back, rfl, rfl⟩

theorem Joined.perm (joined : Joined k before after) : after.Perm (k :: before) := by
  obtain ⟨front, back, rfl, rfl⟩ := joined
  exact List.perm_middle

theorem Joined.sublist (joined : Joined k before after) : before.Sublist after := by
  obtain ⟨front, back, rfl, rfl⟩ := joined
  exact List.Sublist.append_left (List.sublist_cons_self k back) front

end Joined

/-- The first timer of a queue in which nobody waits twice is not one that waits behind
another. -/
theorem head_ne_of_ordered {a b first : κ} {rest : List κ} (once : (first :: rest).Nodup)
    (other : a ≠ b) (ordered : [a, b].Sublist (first :: rest)) : first ≠ b := by
  rintro rfl
  have inside : [a, first].Sublist rest := by
    cases ordered with
    | cons _ within => exact within
    | cons_cons _ _ => exact absurd rfl other
  exact (List.nodup_cons.mp once).1 (inside.subset (by simp))

/-- Without its first timer a queue is ordered as it was. -/
theorem ordered_tail {a b first : κ} {rest : List κ} (ordered : [a, b].Sublist (first :: rest))
    (other : first ≠ a) : [a, b].Sublist rest := by
  cases ordered with
  | cons _ within => exact within
  | cons_cons _ _ => exact absurd rfl other

section Due

variable [Add τ] [DecidableEq κ]

/-- When `k` is due, if the first timer counts from `start`. -/
def due : τ → List (Timed τ κ) → κ → Option τ
  | _, [], _ => none
  | start, t :: rest, k => if t.h = k then some (start + t.time) else due (start + t.time) rest k

@[simp] theorem due_self (start time : τ) (k : κ) (rest : List (Timed τ κ)) :
    due start (⟨time, k⟩ :: rest) k = some (start + time) := if_pos rfl

theorem due_cons_ne {start : τ} {t : Timed τ κ} {rest : List (Timed τ κ)} {k : κ} (other : t.h ≠ k) :
    due start (t :: rest) k = due (start + t.time) rest k := if_neg other

theorem due_none {k : κ} {queue : List (Timed τ κ)} (absent : k ∉ names queue) (start : τ) :
    due start queue k = none := by
  induction queue generalizing start with
  | nil => rfl
  | cons t rest ih =>
      rw [names_cons, List.mem_cons, not_or] at absent
      rw [due_cons_ne (Ne.symm absent.1)]
      exact ih absent.2 _

/-- A new timer takes its own distance off that of its successor. -/
theorem due_insert [Sub τ] [Std.Associative (α := τ) (· + ·)]
    (cancel : ∀ a b : τ, a + (b - a) = b) (start time : τ) {k : κ} (t : Timed τ κ)
    (rest : List (Timed τ κ)) {other : κ} (apart : k ≠ other) :
    due start (⟨time, k⟩ :: ⟨t.time - time, t.h⟩ :: rest) other = due start (t :: rest) other := by
  have moved : start + time + (t.time - time) = start + (time + (t.time - time)) := by
    ac_rfl
  have sum : start + time + (t.time - time) = start + t.time := by
    rw [moved, cancel]
  rw [due_cons_ne apart]
  unfold due
  dsimp only
  rw [sum]

/-- A later start puts everything off. -/
theorem due_later [Std.Associative (α := τ) (· + ·)] [Std.Commutative (α := τ) (· + ·)]
    (start delay : τ) (queue : List (Timed τ κ)) (k : κ) :
    due (start + delay) queue k = (due start queue k).map (· + delay) := by
  induction queue generalizing start with
  | nil => rfl
  | cons t rest ih =>
      have sum : start + delay + t.time = start + t.time + delay := by
        ac_rfl
      unfold due
      rw [sum, ih]
      split <;> rfl

end Due

end Timed

end OtaBoot
