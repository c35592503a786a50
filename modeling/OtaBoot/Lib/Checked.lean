import OtaBoot.Lib.Memory

set_option autoImplicit false

namespace OtaBoot

/-- What C code must not do: copy past the end of an array, or let a counter wrap. -/
inductive Fault
  | overrun
  | wrap
  deriving DecidableEq

/-- How checked code ends: with a value, at its first fault, or not within the passes its
loops were given. -/
inductive Checked (α : Type)
  | done (value : α)
  | fault (what : Fault)
  | unfinished

namespace Checked

variable {α β : Type}

def bind (first : Checked α) (next : α → Checked β) : Checked β :=
  match first with
  | .done value => next value
  | .fault what => .fault what
  | .unfinished => .unfinished

instance : Monad Checked where
  pure := .done
  bind := bind

@[simp] theorem done_bind (value : α) (next : α → Checked β) :
    (Checked.done value >>= next) = next value := rfl

/-- `a + b` of two unsigned counters. -/
def addWord (a b : Word) : Checked Word :=
  if a.toNat + b.toNat < 4294967296 then .done (a + b) else .fault .wrap

/-- `a - b` of two unsigned counters. -/
def subWord (a b : Word) : Checked Word :=
  if b.toNat ≤ a.toNat then .done (a - b) else .fault .wrap

/-- `memcpy(target + offset, data, size)` into an array of `capacity` bytes. -/
def copyInto (capacity : Nat) (target : Mem) (offset size : Word) (data : List Byte) :
    Checked Mem :=
  if offset.toNat + size.toNat ≤ capacity ∧ size.toNat ≤ data.length then
    .done (target.store offset.toNat size.toNat fun i => data.getD i 0)
  else .fault .overrun

theorem addWord_done {a b : Word} (fits : a.toNat + b.toNat < 4294967296) :
    ∃ sum : Word, addWord a b = .done sum ∧ sum.toNat = a.toNat + b.toNat := by
  exact ⟨a + b, if_pos fits, BitVec.toNat_add_of_lt fits⟩

theorem subWord_done {a b : Word} (enough : b.toNat ≤ a.toNat) :
    ∃ rest : Word, subWord a b = .done rest ∧ rest.toNat = a.toNat - b.toNat := by
  exact ⟨a - b, if_pos enough, BitVec.toNat_sub_of_le enough⟩

theorem copyInto_done {capacity : Nat} {offset size : Word} {data : List Byte}
    (room : offset.toNat + size.toNat ≤ capacity) (given : size.toNat ≤ data.length)
    (target : Mem) :
    copyInto capacity target offset size data =
      .done (target.store offset.toNat size.toNat fun i => data.getD i 0) :=
  if_pos ⟨room, given⟩

end Checked

end OtaBoot
