import Mathlib.Tactic.Common

set_option autoImplicit false

namespace OtaBoot

abbrev Byte := BitVec 8
abbrev Word := BitVec 32

/-- A byte-addressed memory. Addresses outside the device are never touched, so
a total function loses nothing. -/
abbrev Mem := Nat → Byte

namespace Mem

/-- Replace the bytes of `[address, address + size)` by `data`. -/
def store (m : Mem) (address size : Nat) (data : Nat → Byte) : Mem := fun i =>
  if address ≤ i ∧ i - address < size then data (i - address) else m i

theorem store_inside (m : Mem) (address size : Nat) (data : Nat → Byte) (i : Nat)
    (lower : address ≤ i) (upper : i < address + size) :
    m.store address size data i = data (i - address) := by
  have present : address ≤ i ∧ i - address < size := by omega
  simp only [store, present, and_self, ↓reduceIte]

theorem store_outside (m : Mem) (address size : Nat) (data : Nat → Byte) (i : Nat)
    (outside : i < address ∨ address + size ≤ i) :
    m.store address size data i = m i := by
  have absent : ¬ (address ≤ i ∧ i - address < size) := by omega
  simp only [store, absent, ↓reduceIte]

/-- A flash erase sets every bit of its range. -/
def erase (m : Mem) (address size : Nat) : Mem := m.store address size fun _ => 0xFF

/-- Programming flash can only clear bits. -/
def program (m : Mem) (address size : Nat) (data : Nat → Byte) : Mem :=
  m.store address size fun i => m (address + i) &&& data i

theorem erase_inside (m : Mem) (address size i : Nat) (lower : address ≤ i)
    (upper : i < address + size) : m.erase address size i = 0xFF :=
  store_inside m address size _ i lower upper

theorem erase_outside (m : Mem) (address size i : Nat)
    (outside : i < address ∨ address + size ≤ i) : m.erase address size i = m i :=
  store_outside m address size _ i outside

theorem program_inside (m : Mem) (address size : Nat) (data : Nat → Byte) (i : Nat)
    (lower : address ≤ i) (upper : i < address + size) :
    m.program address size data i = m i &&& data (i - address) := by
  rw [program, store_inside m address size _ i lower upper,
    show address + (i - address) = i by omega]

theorem program_outside (m : Mem) (address size : Nat) (data : Nat → Byte) (i : Nat)
    (outside : i < address ∨ address + size ≤ i) : m.program address size data i = m i :=
  store_outside m address size _ i outside

theorem program_empty (m : Mem) (address : Nat) (data : Nat → Byte) :
    m.program address 0 data = m := by
  funext i
  exact program_outside m address 0 data i (by omega)

/-- Programming erased bytes stores the data itself. -/
theorem program_blank (m : Mem) (address size : Nat) (data : Nat → Byte) (i : Nat)
    (lower : address ≤ i) (upper : i < address + size) (blank : m i = 0xFF) :
    m.program address size data i = data (i - address) := by
  rw [program_inside m address size data i lower upper, blank]
  exact BitVec.allOnes_and

theorem erase_idempotent (m : Mem) (address size : Nat) :
    (m.erase address size).erase address size = m.erase address size := by
  funext i
  by_cases inside : address ≤ i ∧ i < address + size
  · rw [erase_inside _ _ _ _ inside.1 inside.2, erase_inside _ _ _ _ inside.1 inside.2]
  · exact erase_outside _ _ _ _ (by omega)

theorem program_idempotent (m : Mem) (address size : Nat) (data : Nat → Byte) :
    (m.program address size data).program address size data = m.program address size data := by
  funext i
  by_cases inside : address ≤ i ∧ i < address + size
  · rw [program_inside _ _ _ _ _ inside.1 inside.2, program_inside _ _ _ _ _ inside.1 inside.2,
      BitVec.and_assoc, BitVec.and_self]
  · exact program_outside _ _ _ _ _ (by omega)

/-- Nothing outside `[lower, upper)` has changed. -/
def Framed (before after : Mem) (lower upper : Nat) : Prop :=
  ∀ i, i < lower ∨ upper ≤ i → after i = before i

def Erased (m : Mem) (lower upper : Nat) : Prop :=
  ∀ i, lower ≤ i → i < upper → m i = 0xFF

/-- A program of `data` may have cleared some of the bits it should clear, and no
others. -/
structure Between (before after : Mem) (address size : Nat) (data : Nat → Byte) : Prop where
  frame : Framed before after address (address + size)
  toward : ∀ i, address ≤ i → i < address + size →
    after i &&& data (i - address) = before i &&& data (i - address)

theorem Framed.refl (m : Mem) (lower upper : Nat) : Framed m m lower upper := fun _ _ => rfl

theorem Framed.trans {m n o : Mem} {lower upper : Nat} (first : Framed m n lower upper)
    (second : Framed n o lower upper) : Framed m o lower upper := by
  intro i outside
  rw [second i outside, first i outside]

theorem Framed.widen {m n : Mem} {lower upper lower' upper' : Nat}
    (framed : Framed m n lower upper) (below : lower' ≤ lower) (above : upper ≤ upper') :
    Framed m n lower' upper' := by
  intro i outside
  exact framed i (by omega)

theorem store_framed (m : Mem) (address size : Nat) (data : Nat → Byte) :
    Framed m (m.store address size data) address (address + size) :=
  fun i outside => store_outside m address size data i outside

theorem erase_framed (m : Mem) (address size : Nat) :
    Framed m (m.erase address size) address (address + size) := store_framed m address size _

theorem program_framed (m : Mem) (address size : Nat) (data : Nat → Byte) :
    Framed m (m.program address size data) address (address + size) := store_framed m address size _

theorem erase_erased (m : Mem) (address size : Nat) :
    Erased (m.erase address size) address (address + size) :=
  fun i lower upper => erase_inside m address size i lower upper

/-- Programming an erased range stores the data. -/
theorem Erased.program {m : Mem} {address size : Nat} (blank : Erased m address (address + size))
    (data : Nat → Byte) : m.program address size data = m.store address size data := by
  funext i
  by_cases inside : address ≤ i ∧ i < address + size
  · rw [program_blank _ _ _ _ _ inside.1 inside.2 (blank i inside.1 inside.2),
      store_inside _ _ _ _ _ inside.1 inside.2]
  · rw [program_outside _ _ _ _ _ (by omega), store_outside _ _ _ _ _ (by omega)]

/-- What was in a range does not matter once it is stored over. -/
theorem Framed.store {m n : Mem} {address size : Nat} (framed : Framed m n address (address + size))
    (data : Nat → Byte) : n.store address size data = m.store address size data := by
  funext i
  by_cases inside : address ≤ i ∧ i < address + size
  · rw [store_inside _ _ _ _ _ inside.1 inside.2, store_inside _ _ _ _ _ inside.1 inside.2]
  · rw [store_outside _ _ _ _ _ (by omega), store_outside _ _ _ _ _ (by omega)]
    exact framed i (by omega)

theorem Between.refl (m : Mem) (address size : Nat) (data : Nat → Byte) :
    Between m m address size data :=
  ⟨Framed.refl m _ _, fun _ _ _ => rfl⟩

theorem Between.trans {m n o : Mem} {address size : Nat} {data : Nat → Byte}
    (first : Between m n address size data) (second : Between n o address size data) :
    Between m o address size data := by
  refine ⟨first.frame.trans second.frame, ?_⟩
  intro i lower upper
  rw [second.toward i lower upper, first.toward i lower upper]

theorem program_between (m : Mem) (address size : Nat) (data : Nat → Byte) :
    Between m (m.program address size data) address size data := by
  refine ⟨store_framed m address size _, ?_⟩
  intro i lower upper
  rw [program_inside m address size data i lower upper, BitVec.and_assoc, BitVec.and_self]

/-- Completing a program that was begun gives what it would have given at first. -/
theorem Between.program {m n : Mem} {address size : Nat} {data : Nat → Byte}
    (begun : Between m n address size data) :
    n.program address size data = m.program address size data := by
  funext i
  by_cases inside : address ≤ i ∧ i < address + size
  · rw [program_inside n _ _ _ _ inside.1 inside.2, program_inside m _ _ _ _ inside.1 inside.2,
      begun.toward i inside.1 inside.2]
  · rw [program_outside n _ _ _ _ (by omega), program_outside m _ _ _ _ (by omega),
      begun.frame i (by omega)]

/-- Adjacent erases are one erase. -/
theorem erase_append (m : Mem) (address front back : Nat) :
    (m.erase address front).erase (address + front) back = m.erase address (front + back) := by
  funext i
  by_cases second : address + front ≤ i ∧ i < address + front + back
  · rw [erase_inside _ _ _ _ second.1 second.2, erase_inside _ _ _ _ (by omega) (by omega)]
  · rw [erase_outside _ _ _ _ (by omega)]
    by_cases first : address ≤ i ∧ i < address + front
    · rw [erase_inside _ _ _ _ first.1 first.2, erase_inside _ _ _ _ first.1 (by omega)]
    · rw [erase_outside _ _ _ _ (by omega), erase_outside _ _ _ _ (by omega)]

/-- Adjacent programs are one program. -/
theorem program_append (m : Mem) (address front back : Nat) (data : Nat → Byte) :
    (m.program address front data).program (address + front) back (fun i => data (front + i)) =
      m.program address (front + back) data := by
  funext i
  by_cases first : address ≤ i ∧ i < address + front
  · rw [program_outside _ _ _ _ _ (Or.inl first.2),
      program_inside m _ _ _ _ first.1 first.2, program_inside m _ _ _ _ first.1 (by omega)]
  · by_cases second : address + front ≤ i ∧ i < address + front + back
    · rw [program_inside _ _ _ _ _ second.1 second.2, program_outside m _ _ _ _ (by omega),
        program_inside m _ _ _ _ (by omega) (by omega),
        show front + (i - (address + front)) = i - address by omega]
    · rw [program_outside _ _ _ _ _ (by omega), program_outside m _ _ _ _ (by omega),
        program_outside m _ _ _ _ (by omega)]

/-- A program begun on the first part only is one begun on the whole. -/
theorem Between.extend {m n : Mem} {address front : Nat} {data : Nat → Byte}
    (begun : Between m n address front data) (back : Nat) :
    Between m n address (front + back) data := by
  refine ⟨begun.frame.widen (Nat.le_refl _) (by omega), ?_⟩
  intro i lower upper
  by_cases first : i < address + front
  · exact begun.toward i lower first
  · rw [begun.frame i (by omega)]

theorem Between.append {m n : Mem} {address front back : Nat} {data : Nat → Byte}
    (rest : Between (m.program address front data) n (address + front) back
      (fun i => data (front + i))) : Between m n address (front + back) data := by
  have whole : Between (m.program address front data) n address (front + back) data := by
    refine ⟨rest.frame.widen (by omega) (by omega), ?_⟩
    intro i lower upper
    by_cases first : i < address + front
    · rw [rest.frame i (by omega)]
    · have toward := rest.toward i (by omega) (by omega)
      rwa [show front + (i - (address + front)) = i - address by omega] at toward
  exact ((program_between m address front data).extend back).trans whole

/-- The bytes of `[address, address + size)` in order. -/
def bytes (m : Mem) (address size : Nat) : List Byte :=
  (List.range size).map fun i => m (address + i)

theorem bytes_congr {m n : Mem} {a b size : Nat}
    (same : ∀ i < size, m (a + i) = n (b + i)) : m.bytes a size = n.bytes b size := by
  unfold bytes
  apply List.map_congr_left
  intro i member
  exact same i (List.mem_range.mp member)

theorem bytes_append (m : Mem) (address front back : Nat) :
    m.bytes address (front + back) = m.bytes address front ++ m.bytes (address + front) back := by
  unfold bytes
  rw [List.range_add, List.map_append, List.map_map]
  simp only [Function.comp_def, Nat.add_assoc]

/-- The little-endian 32-bit word stored at `address`. -/
def word (m : Mem) (address : Nat) : Word :=
  m (address + 3) ++ m (address + 2) ++ m (address + 1) ++ m address

theorem word_congr {m n : Mem} {a b : Nat} (same : ∀ i < 4, m (a + i) = n (b + i)) :
    m.word a = n.word b := by
  have zero := same 0 (by omega)
  simp only [Nat.add_zero] at zero
  simp only [word, same 3 (by omega), same 2 (by omega), same 1 (by omega), zero]

end Mem

/-- Byte `index` of a word in memory order. -/
def Word.byte (w : Word) (index : Nat) : Byte := w.extractLsb' (8 * index) 8

/-- Reassembling the four bytes of a word gives it back. -/
theorem Word.byte_append (w : Word) :
    Word.byte w 3 ++ Word.byte w 2 ++ Word.byte w 1 ++ Word.byte w 0 = w := by
  apply BitVec.eq_of_getLsbD_eq
  intro i bound
  simp only [Word.byte, BitVec.getLsbD_append, BitVec.getLsbD_extractLsb']
  by_cases first : i < 8
  · simp [first]
  · by_cases second : i - 8 < 8
    · simp [first, second]; congr 1; omega
    · by_cases third : i - 8 - 8 < 8
      · simp [first, second, third]; congr 1; omega
      · have last : i - 8 - 8 - 8 < 8 := by omega
        simp [first, second, third, last]; congr 1; omega

/-- The little-endian image of a table of words. -/
def wordsImage (words : Nat → Word) : Mem := fun i => (words (i / 4)).byte (i % 4)

theorem wordsImage_word (words : Nat → Word) (k : Nat) :
    (wordsImage words).word (4 * k) = words k := by
  have zero : 4 * k / 4 = k := by omega
  have one : (4 * k + 1) / 4 = k := by omega
  have two : (4 * k + 2) / 4 = k := by omega
  have three : (4 * k + 3) / 4 = k := by omega
  have zero' : 4 * k % 4 = 0 := by omega
  have one' : (4 * k + 1) % 4 = 1 := by omega
  have two' : (4 * k + 2) % 4 = 2 := by omega
  have three' : (4 * k + 3) % 4 = 3 := by omega
  simp only [Mem.word, wordsImage, zero, one, two, three, zero', one', two', three']
  exact Word.byte_append (words k)

end OtaBoot
