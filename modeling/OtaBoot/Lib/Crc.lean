import Mathlib.Algebra.Group.Nat.Defs
import Mathlib.Tactic.Common

set_option autoImplicit false

/- Reflected cyclic redundancy checks of any width: the bit-by-bit shift register,
its linearity, and the split that a table of the low bits is based on. -/
namespace OtaBoot.Crc

variable {w : Nat}

/-- One shift of the register: the polynomial is added if the bit that leaves it is set. -/
def shift (poly crc : BitVec w) : BitVec w := (crc >>> 1) ^^^ (poly &&& -(crc &&& 1))

/-- `count` shifts. -/
def shifts (poly : BitVec w) : Nat → BitVec w → BitVec w
  | 0, crc => crc
  | count + 1, crc => shifts poly count (shift poly crc)

/-- The mask of a shift is all ones or zero. -/
theorem neg_lowBit (crc : BitVec w) :
    -(crc &&& 1) = if crc.getLsbD 0 then BitVec.allOnes w else 0 := by
  have bit : crc &&& 1 = if crc.getLsbD 0 then 1#w else 0#w := by
    apply BitVec.eq_of_getLsbD_eq
    intro i below
    rw [BitVec.getLsbD_and]
    show (crc.getLsbD i && (1#w).getLsbD i) = _
    rw [BitVec.getLsbD_one]
    by_cases first : i = 0
    · subst first
      cases set : crc.getLsbD 0 <;> simp [below]
    · cases set : crc.getLsbD 0 <;> simp [first]
  rw [bit]
  split
  · exact BitVec.neg_one_eq_allOnes
  · exact BitVec.neg_zero w

theorem shift_eq (poly crc : BitVec w) :
    shift poly crc = if crc.getLsbD 0 then (crc >>> 1) ^^^ poly else crc >>> 1 := by
  unfold shift
  rw [neg_lowBit]
  split
  · rw [BitVec.and_allOnes]
  · show (crc >>> 1) ^^^ (poly &&& 0#w) = _
    rw [BitVec.and_zero, BitVec.xor_zero]

/-- The register is linear. -/
theorem shift_xor (poly x y : BitVec w) :
    shift poly (x ^^^ y) = shift poly x ^^^ shift poly y := by
  simp only [shift_eq, BitVec.getLsbD_xor, BitVec.ushiftRight_xor_distrib]
  cases x.getLsbD 0 <;> cases y.getLsbD 0 <;>
    simp only [Bool.false_eq_true, Bool.xor_false, Bool.xor_true, Bool.not_true, Bool.not_false,
      ↓reduceIte]
  · rw [BitVec.xor_assoc]
  · rw [BitVec.xor_assoc, BitVec.xor_assoc, BitVec.xor_comm (y >>> 1) poly]
  · rw [BitVec.xor_assoc, BitVec.xor_comm poly, BitVec.xor_assoc, BitVec.xor_self,
      BitVec.xor_zero]

theorem shifts_xor (poly : BitVec w) (count : Nat) : ∀ x y,
    shifts poly count (x ^^^ y) = shifts poly count x ^^^ shifts poly count y := by
  induction count with
  | zero =>
      intro x y
      rfl
  | succ count ih =>
      intro x y
      unfold shifts
      rw [shift_xor, ih]

/-- While only zeros leave the register it just shifts. -/
theorem shifts_zeros (poly : BitVec w) (count : Nat) : ∀ x : BitVec w,
    (∀ i < count, x.getLsbD i = false) → shifts poly count x = x >>> count := by
  induction count with
  | zero =>
      intro x _
      exact (BitVec.ushiftRight_zero x).symm
  | succ count ih =>
      intro x zeros
      have first : shift poly x = x >>> 1 := by
        rw [shift_eq, zeros 0 (by omega)]
        simp only [Bool.false_eq_true, ↓reduceIte]
      have rest : ∀ i < count, (x >>> 1).getLsbD i = false := by
        intro i below
        rw [BitVec.getLsbD_ushiftRight]
        exact zeros (1 + i) (by omega)
      unfold shifts
      rw [first, ih _ rest, ← BitVec.shiftRight_add, Nat.add_comm]

/-- The table rule: the low bits go through a table of shifted registers, the others
are shifted out. -/
theorem shifts_split (poly x : BitVec w) (count : Nat) :
    shifts poly count x =
      shifts poly count (x &&& BitVec.ofNat w (2 ^ count - 1)) ^^^ (x >>> count) := by
  have low : ∀ i, (BitVec.ofNat w (2 ^ count - 1)).getLsbD i = (decide (i < w) && decide (i < count)) := by
    intro i
    rw [BitVec.getLsbD_ofNat, Nat.testBit_two_pow_sub_one]
  have parts : x = (x &&& BitVec.ofNat w (2 ^ count - 1)) ^^^
      (x &&& ~~~ BitVec.ofNat w (2 ^ count - 1)) := by
    apply BitVec.eq_of_getLsbD_eq
    intro i below
    simp only [BitVec.getLsbD_xor, BitVec.getLsbD_and, BitVec.getLsbD_not, below, decide_true,
      Bool.true_and]
    cases x.getLsbD i <;> cases (BitVec.ofNat w (2 ^ count - 1)).getLsbD i <;> rfl
  have zeros : ∀ i < count, (x &&& ~~~ BitVec.ofNat w (2 ^ count - 1)).getLsbD i = false := by
    intro i below
    rw [BitVec.getLsbD_and, BitVec.getLsbD_not, low]
    by_cases inside : i < w <;> simp [below, inside]
  have high : (x &&& ~~~ BitVec.ofNat w (2 ^ count - 1)) >>> count = x >>> count := by
    apply BitVec.eq_of_getLsbD_eq
    intro i below
    rw [BitVec.getLsbD_ushiftRight, BitVec.getLsbD_ushiftRight, BitVec.getLsbD_and,
      BitVec.getLsbD_not, low]
    by_cases inside : count + i < w
    · simp [inside]
    · rw [BitVec.getLsbD_of_ge x _ (by omega), Bool.false_and]
  conv => lhs; rw [parts]
  rw [shifts_xor, shifts_zeros poly count _ zeros, high]

/-- A register whose polynomial has its top bit set loses nothing in a shift: the top bit
of the result is the bit that left. -/
theorem shift_inj {poly : BitVec w} (top : poly.msb = true) {x y : BitVec w}
    (same : shift poly x = shift poly y) : x = y := by
  have positive : 0 < w := by
    rcases Nat.eq_zero_or_pos w with rfl | positive
    · rw [BitVec.msb_zero_length] at top
      cases top
    · exact positive
  have high : ∀ z : BitVec w, (shift poly z).getLsbD (w - 1) = z.getLsbD 0 := by
    intro z
    have gone : (z >>> 1).getLsbD (w - 1) = false := by
      rw [BitVec.getLsbD_ushiftRight]
      exact BitVec.getLsbD_of_ge z _ (by omega)
    rw [BitVec.msb_eq_getLsbD_last] at top
    rw [shift_eq]
    cases low : z.getLsbD 0 with
    | false => simp only [Bool.false_eq_true, ↓reduceIte, gone]
    | true => simp only [↓reduceIte, BitVec.getLsbD_xor, gone, top, Bool.false_bne]
  have low : x.getLsbD 0 = y.getLsbD 0 := by rw [← high x, same, high y]
  have rest : x >>> 1 = y >>> 1 := by
    rw [shift_eq, shift_eq, low] at same
    split at same
    · exact (BitVec.xor_left_inj poly).mp same
    · exact same
  apply BitVec.eq_of_getLsbD_eq
  intro i below
  cases i with
  | zero => exact low
  | succ i =>
      have bit := congrArg (BitVec.getLsbD · i) rest
      simp only [BitVec.getLsbD_ushiftRight] at bit
      rwa [Nat.add_comm] at bit

theorem shifts_inj {poly : BitVec w} (top : poly.msb = true) (count : Nat) : ∀ {x y : BitVec w},
    shifts poly count x = shifts poly count y → x = y := by
  induction count with
  | zero =>
      intro x y same
      exact same
  | succ count ih =>
      intro x y same
      exact shift_inj top (ih same)

theorem shifts_add (poly : BitVec w) (first second : Nat) : ∀ x,
    shifts poly (first + second) x = shifts poly second (shifts poly first x) := by
  induction first with
  | zero =>
      intro x
      rw [Nat.zero_add]
      rfl
  | succ first ih =>
      intro x
      rw [Nat.succ_add]
      exact ih (shift poly x)

/-- Take in one byte. -/
def feed (poly crc : BitVec w) (byte : BitVec 8) : BitVec w :=
  shifts poly 8 (crc ^^^ byte.setWidth w)

/-- A few bytes as one word, the first in the low bits. -/
def packed : List (BitVec 8) → BitVec w
  | [] => 0#w
  | byte :: rest => byte.setWidth w ^^^ (packed rest <<< 8)

theorem packed_high (bytes : List (BitVec 8)) : ∀ i, 8 * bytes.length ≤ i →
    (packed bytes : BitVec w).getLsbD i = false := by
  induction bytes with
  | nil =>
      intro i _
      exact BitVec.getLsbD_zero
  | cons byte rest ih =>
      intro i above
      rw [List.length_cons] at above
      rw [packed, BitVec.getLsbD_xor, BitVec.getLsbD_setWidth, BitVec.getLsbD_of_ge byte i (by omega),
        BitVec.getLsbD_shiftLeft, ih (i - 8) (by omega)]
      simp

/-- Bytes that fit into the register can be taken in at once. -/
theorem foldl_feed (poly : BitVec w) (bytes : List (BitVec 8)) : 8 * bytes.length ≤ w → ∀ crc,
    bytes.foldl (feed poly) crc = shifts poly (8 * bytes.length) (crc ^^^ packed bytes) := by
  induction bytes with
  | nil =>
      intro _ crc
      show crc = crc ^^^ 0#w
      rw [BitVec.xor_zero]
  | cons byte rest ih =>
      intro fits crc
      rw [List.length_cons] at fits
      -- The later bytes wait above the first and come down with its eight shifts.
      have later : shifts poly 8 (packed rest <<< 8) = packed rest := by
        rw [shifts_zeros]
        · apply BitVec.eq_of_getLsbD_eq
          intro i below
          rw [BitVec.getLsbD_ushiftRight, BitVec.getLsbD_shiftLeft]
          by_cases inside : 8 + i < w
          · simp [inside]
          · rw [packed_high rest i (by omega)]
            simp [inside]
        · intro i below
          rw [BitVec.getLsbD_shiftLeft]
          simp [below]
      rw [List.foldl_cons, ih (by omega), feed, packed, List.length_cons, Nat.mul_succ,
        Nat.add_comm, shifts_add, ← BitVec.xor_assoc,
        shifts_xor poly 8 (crc ^^^ byte.setWidth w) (packed rest <<< 8), later]

theorem packed_inj (first : List (BitVec 8)) : ∀ second : List (BitVec 8),
    first.length = second.length → 8 * first.length ≤ w →
    (packed first : BitVec w) = packed second → first = second := by
  induction first with
  | nil =>
      intro second size _ _
      exact (List.length_eq_zero_iff.mp size.symm).symm
  | cons byte rest ih =>
      intro second size fits same
      cases second with
      | nil => cases size
      | cons other tail =>
          rw [List.length_cons] at fits
          have bits : ∀ i < w, (byte.getLsbD i ^^ (decide (8 ≤ i) && (packed rest : BitVec w).getLsbD (i - 8))) =
              (other.getLsbD i ^^ (decide (8 ≤ i) && (packed tail : BitVec w).getLsbD (i - 8))) := by
            intro i below
            have bit := congrArg (BitVec.getLsbD · i) same
            simp only [packed, BitVec.getLsbD_xor, BitVec.getLsbD_setWidth, BitVec.getLsbD_shiftLeft,
              below, decide_true, Bool.true_and] at bit
            by_cases low : i < 8
            · simp [low, Nat.not_le.mpr low] at bit ⊢
              exact bit
            · simp [low, Nat.not_lt.mp low] at bit ⊢
              exact bit
          have head : byte = other := by
            apply BitVec.eq_of_getLsbD_eq
            intro i below
            have bit := bits i (by omega)
            simpa [Nat.not_le.mpr below] using bit
          have body : rest = tail := by
            apply ih tail (Nat.succ.inj size) (by omega)
            apply BitVec.eq_of_getLsbD_eq
            intro i below
            by_cases inside : i + 8 < w
            · have bit := bits (i + 8) inside
              rw [BitVec.getLsbD_of_ge byte _ (by omega), BitVec.getLsbD_of_ge other _ (by omega)] at bit
              simpa using bit
            · have length : rest.length = tail.length := Nat.succ.inj size
              rw [packed_high rest i (by omega), packed_high tail i (by omega)]
          rw [head, body]

/-- Different bytes that fit into the register leave it different. -/
theorem foldl_feed_inj {poly : BitVec w} (top : poly.msb = true) {first second : List (BitVec 8)}
    (size : first.length = second.length) (fits : 8 * first.length ≤ w) (crc : BitVec w)
    (same : first.foldl (feed poly) crc = second.foldl (feed poly) crc) : first = second := by
  rw [foldl_feed poly first fits, foldl_feed poly second (by omega), ← size] at same
  exact packed_inj first second size fits ((BitVec.xor_right_inj crc).mp (shifts_inj top _ same))

/-- The same bytes keep different registers different. -/
theorem foldl_feed_apart {poly : BitVec w} (top : poly.msb = true) (bytes : List (BitVec 8)) :
    ∀ {x y : BitVec w}, bytes.foldl (feed poly) x = bytes.foldl (feed poly) y → x = y := by
  induction bytes with
  | nil =>
      intro x y same
      exact same
  | cons byte rest ih =>
      intro x y same
      have step := shifts_inj top 8 (ih same)
      exact (BitVec.xor_left_inj _).mp step

end OtaBoot.Crc
