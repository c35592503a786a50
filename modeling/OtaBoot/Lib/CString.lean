import OtaBoot.Lib.Memory
import Mathlib.Data.Nat.Digits.Defs

set_option autoImplicit false

/- The functions of `string.h` and `stdlib.h` on strings inside a buffer. The buffer is
taken to end with a NUL of its own. -/
namespace OtaBoot.CString

/-- The bytes before the first NUL. -/
def contents (buf : List Byte) : List Byte := buf.takeWhile (· ≠ 0)

/-- `strncmp(buf, text, n) == 0` for a `text` of `n` bytes without a NUL. -/
def strncmpEq (buf text : List Byte) : Bool := buf.take text.length == text

/-- `strncpy(dst, text, n)` and `dst[n] = 0`. -/
def strncpy (text : List Byte) (n : Nat) : List Byte := (contents text).take n

/-- One call of `strtok`, from the offset that the last one has left: the token if there
is one, the buffer with a NUL in place of the separator, and the next offset. -/
def strtok (separator : Byte) (buf : List Byte) (offset : Nat) :
    Option (List Byte) × List Byte × Nat :=
  let rest := contents (buf.drop offset)
  let token := (rest.dropWhile (· = separator)).takeWhile (· ≠ separator)
  let last := offset + (rest.takeWhile (· = separator)).length + token.length
  if token = [] then (none, buf, last)
  else if buf[last]? = some separator then (some token, buf.set last 0, last + 1)
  else (some token, buf, last)

def isSpace (b : Byte) : Bool := b = 0x20 || (9 ≤ b.toNat && b.toNat ≤ 13)

def digit (base : Nat) (b : Byte) : Option Nat :=
  let n := b.toNat
  let value :=
    if 48 ≤ n ∧ n ≤ 57 then n - 48
    else if 65 ≤ n ∧ n ≤ 90 then n - 55
    else if 97 ≤ n ∧ n ≤ 122 then n - 87
    else base
  if value < base then some value else none

/-- The number at the start of the text, before it is cut to a word. -/
def digits (base : Nat) : List Byte → Nat → Nat
  | [], value => value
  | b :: rest, value =>
    match digit base b with
    | some d => digits base rest (value * base + d)
    | none => value

/-- `strtoul(text, NULL, base)` for the bases 10 and 16: spaces, a sign, for base 16 a
0x, then digits. What does not fit is ULONG_MAX. -/
def strtoul (base : Nat) (text : List Byte) : Word :=
  let signed := text.dropWhile isSpace
  let negative := signed.head? = some 0x2D
  let unsigned := if negative ∨ signed.head? = some 0x2B then signed.tail else signed
  let hex := base = 16 ∧ (unsigned.take 2 = [0x30, 0x78] ∨ unsigned.take 2 = [0x30, 0x58])
  let value := digits base (if hex then unsigned.drop 2 else unsigned) 0
  if value ≥ 0x100000000 then 0xFFFFFFFF
  else if negative then - BitVec.ofNat 32 value
  else BitVec.ofNat 32 value

/-- A text that `strtok` finds whole. -/
structure Token (separator : Byte) (text : List Byte) : Prop where
  nonempty : text ≠ []
  plain : ∀ b ∈ text, b ≠ separator ∧ b ≠ 0

theorem contents_append {text : List Byte} (plain : ∀ b ∈ text, b ≠ 0) (rest : List Byte) :
    contents (text ++ rest) = text ++ contents rest := by
  unfold contents
  apply List.takeWhile_append_of_pos
  intro b found
  exact decide_eq_true (plain b found)

theorem contents_eq {text : List Byte} (plain : ∀ b ∈ text, b ≠ 0) : contents text = text := by
  have whole := contents_append plain []
  rw [List.append_nil] at whole
  exact whole.trans (List.append_nil text)

theorem strncpy_eq {text : List Byte} (plain : ∀ b ∈ text, b ≠ 0) (n : Nat) :
    strncpy text n = text.take n := by
  unfold strncpy
  rw [contents_eq plain]

/-- The token is found at once, and ends before the separator. -/
theorem Token.found {separator : Byte} {token : List Byte} (good : Token separator token)
    (rest : List Byte) (ends : rest = [] ∨ ∃ back, rest = separator :: back) :
    (token ++ rest).takeWhile (· = separator) = [] ∧
      ((token ++ rest).dropWhile (· = separator)).takeWhile (· ≠ separator) = token := by
  obtain ⟨b, tail, rfl⟩ := List.exists_cons_of_ne_nil good.nonempty
  have first : b ≠ separator := (good.plain b List.mem_cons_self).1
  have starts : (b :: tail ++ rest).dropWhile (· = separator) = b :: tail ++ rest := by
    rw [List.cons_append, List.dropWhile_cons_of_neg (by simpa using first)]
  constructor
  · rw [List.cons_append, List.takeWhile_cons_of_neg (by simpa using first)]
  · rw [starts, List.takeWhile_append_of_pos]
    · rcases ends with rfl | ⟨back, rfl⟩
      · exact List.append_nil _
      · rw [List.takeWhile_cons_of_neg (by simp), List.append_nil]
    · intro c found
      simpa using (good.plain c found).1

/-- A token before a separator: the separator becomes its NUL. -/
theorem strtok_token {separator : Byte} (visible : separator ≠ 0) {token : List Byte}
    (good : Token separator token) (front back : List Byte) :
    strtok separator (front ++ (token ++ separator :: back)) front.length =
      (some token, front ++ token ++ [0] ++ back, (front ++ token ++ [0]).length) := by
  have rest : contents ((front ++ (token ++ separator :: back)).drop front.length) =
      token ++ separator :: contents back := by
    rw [List.drop_left, contents_append (fun b found => (good.plain b found).2)]
    unfold contents
    rw [List.takeWhile_cons_of_pos (by simpa using visible)]
  obtain ⟨none, found⟩ := good.found _ (.inr ⟨contents back, rfl⟩)
  have at_separator : (front ++ (token ++ separator :: back))[front.length + token.length]? =
      some separator := by
    rw [← List.append_assoc, List.getElem?_append_right (by simp)]
    simp
  have replaced : (front ++ (token ++ separator :: back)).set (front.length + token.length) 0 =
      front ++ token ++ [0] ++ back := by
    rw [← List.append_assoc, List.set_append_right _ _ (by simp)]
    simp
  unfold strtok
  simp only [rest, none, found, List.length_nil, Nat.add_zero]
  rw [if_neg good.nonempty, if_pos at_separator, replaced]
  simp [Nat.add_assoc]

/-- A token at the end of the buffer. -/
theorem strtok_last {separator : Byte} {token : List Byte} (good : Token separator token)
    (front : List Byte) :
    strtok separator (front ++ token) front.length =
      (some token, front ++ token, front.length + token.length) := by
  have rest : contents ((front ++ token).drop front.length) = token ++ [] := by
    rw [List.drop_left, contents_eq (fun b found => (good.plain b found).2), List.append_nil]
  obtain ⟨none, found⟩ := good.found [] (.inl rfl)
  have at_end : (front ++ token)[front.length + token.length]? = Option.none := by simp
  unfold strtok
  simp only [rest, none, found, List.length_nil, Nat.add_zero]
  rw [if_neg good.nonempty, if_neg (by rw [at_end]; simp)]

/-- `strtok` puts at most one NUL into the buffer. -/
theorem strtok_buffer (separator : Byte) (buf : List Byte) (offset : Nat) :
    ∃ last, (strtok separator buf offset).2.1 = buf ∨
      (strtok separator buf offset).2.1 = buf.set last 0 := by
  unfold strtok
  dsimp only
  split
  · exact ⟨0, .inl rfl⟩
  · split
    · exact ⟨_, .inr rfl⟩
    · exact ⟨0, .inl rfl⟩

theorem strtok_length (separator : Byte) (buf : List Byte) (offset : Nat) :
    (strtok separator buf offset).2.1.length = buf.length := by
  obtain ⟨last, same | replaced⟩ := strtok_buffer separator buf offset
  · rw [same]
  · rw [replaced, List.length_set]

/-- A NUL stays. -/
theorem strtok_nul (separator : Byte) {buf : List Byte} (offset : Nat) {i : Nat}
    (nul : buf[i]? = some 0) : (strtok separator buf offset).2.1[i]? = some 0 := by
  obtain ⟨last, same | replaced⟩ := strtok_buffer separator buf offset
  · rw [same, nul]
  · rw [replaced, List.getElem?_set]
    split
    · rename_i here
      have inside : i < buf.length := (List.getElem?_eq_some_iff.mp nul).1
      rw [if_pos (here ▸ inside)]
    · exact nul

theorem isSpace_iff (b : Byte) :
    isSpace b = true ↔ b.toNat = 32 ∨ 9 ≤ b.toNat ∧ b.toNat ≤ 13 := by
  have blank : b = 0x20 ↔ b.toNat = 32 := by
    rw [← BitVec.toNat_inj]
    exact Iff.rfl
  simp only [isSpace, Bool.or_eq_true, Bool.and_eq_true, decide_eq_true_eq, blank]

/-- A character of the ranges of digits and letters, and `base` for any other. -/
def digitValue (base n : Nat) : Nat :=
  if 48 ≤ n ∧ n ≤ 57 then n - 48
  else if 65 ≤ n ∧ n ≤ 90 then n - 55
  else if 97 ≤ n ∧ n ≤ 122 then n - 87
  else base

theorem digit_eq (base : Nat) (b : Byte) :
    digit base b =
      if digitValue base b.toNat < base then some (digitValue base b.toNat) else none :=
  rfl

/-- White space is not part of a number. -/
theorem digit_space (base : Nat) {b : Byte} (space : isSpace b = true) : digit base b = none := by
  have range := (isSpace_iff b).mp space
  have value : digitValue base b.toNat = base := by
    unfold digitValue
    rw [if_neg (by omega), if_neg (by omega), if_neg (by omega)]
  rw [digit_eq, value, if_neg (Nat.lt_irrefl base)]

theorem digits_spaces (base : Nat) {spaces : List Byte} (blank : ∀ b ∈ spaces, isSpace b = true)
    (text : List Byte) : ∀ value, digits base (text ++ spaces) value = digits base text value := by
  induction text with
  | nil =>
      intro value
      cases spaces with
      | nil => rfl
      | cons b rest =>
          simp only [List.nil_append, digits, digit_space base (blank b List.mem_cons_self)]
  | cons b rest ih =>
      intro value
      rw [List.cons_append]
      unfold digits
      split
      · exact ih _
      · rfl

/-- The `0x` before a number is not made up by white space after it. -/
theorem take_two_spaces {spaces : List Byte} (blank : ∀ b ∈ spaces, isSpace b = true)
    (text : List Byte) {x : Byte} (visible : isSpace x = false) :
    (text ++ spaces).take 2 = [0x30, x] ↔ text.take 2 = [0x30, x] := by
  match text with
  | a :: b :: rest => simp
  | [a] =>
      cases spaces with
      | nil => simp
      | cons b rest =>
          have space := blank b List.mem_cons_self
          constructor
          · intro prefixed
            simp only [List.cons_append, List.nil_append, List.take_succ_cons, List.take_zero,
              List.cons.injEq, and_true] at prefixed
            rw [prefixed.2, visible] at space
            cases space
          · intro short
            simp at short
  | [] =>
      cases spaces with
      | nil => simp
      | cons b rest =>
          have space := blank b List.mem_cons_self
          constructor
          · intro prefixed
            cases rest with
            | nil => simp at prefixed
            | cons c rest =>
                simp only [List.nil_append, List.take_succ_cons, List.take_zero,
                  List.cons.injEq, and_true] at prefixed
                rw [prefixed.1] at space
                exact absurd space (by decide)
          · intro short
            simp at short

/-- The text after a sign. -/
def unsigned (signed : List Byte) : List Byte :=
  if signed.head? = some 0x2D ∨ signed.head? = some 0x2B then signed.tail else signed

/-- The text after a `0x`. -/
def significant (base : Nat) (text : List Byte) : List Byte :=
  if base = 16 ∧ (text.take 2 = [0x30, 0x78] ∨ text.take 2 = [0x30, 0x58]) then text.drop 2
  else text

theorem strtoul_eq (base : Nat) (text : List Byte) :
    strtoul base text =
      if digits base (significant base (unsigned (text.dropWhile isSpace))) 0 ≥ 0x100000000 then
        0xFFFFFFFF
      else if (text.dropWhile isSpace).head? = some 0x2D then
        - BitVec.ofNat 32 (digits base (significant base (unsigned (text.dropWhile isSpace))) 0)
      else BitVec.ofNat 32 (digits base (significant base (unsigned (text.dropWhile isSpace))) 0) :=
  rfl

theorem significant_spaces (base : Nat) {spaces : List Byte}
    (blank : ∀ b ∈ spaces, isSpace b = true) (text : List Byte) :
    significant base (text ++ spaces) = significant base text ++ spaces := by
  have lower := take_two_spaces blank text (show isSpace 0x78 = false by decide)
  have upper := take_two_spaces blank text (show isSpace 0x58 = false by decide)
  unfold significant
  simp only [lower, upper]
  split
  · rename_i hex
    have long : 2 ≤ text.length := by
      have two : (text.take 2).length = 2 := by
        rcases hex.2 with found | found
        · rw [found]
          rfl
        · rw [found]
          rfl
      rw [List.length_take] at two
      omega
    exact List.drop_append_of_le_length long
  · rfl

/-- The end of the line does not change the number before it. -/
theorem strtoul_spaces (base : Nat) {spaces : List Byte} (blank : ∀ b ∈ spaces, isSpace b = true)
    (text : List Byte) : strtoul base (text ++ spaces) = strtoul base text := by
  rw [strtoul_eq, strtoul_eq, List.dropWhile_append]
  generalize text.dropWhile isSpace = signed
  cases signed with
  | nil =>
      have none : spaces.dropWhile isSpace = [] := by
        rw [← List.append_nil spaces, List.dropWhile_append_of_pos blank]
        rfl
      rw [List.isEmpty_nil, if_pos rfl, none]
  | cons sign rest =>
      have longer : unsigned (sign :: rest ++ spaces) = unsigned (sign :: rest) ++ spaces := by
        have head : (sign :: rest ++ spaces).head? = (sign :: rest).head? := rfl
        unfold unsigned
        simp only [head]
        by_cases explicit : (sign :: rest).head? = some 0x2D ∨ (sign :: rest).head? = some 0x2B
        · rw [if_pos explicit, if_pos explicit]
          rfl
        · rw [if_neg explicit, if_neg explicit]
      rw [List.isEmpty_cons, if_neg Bool.false_ne_true, longer, significant_spaces base blank,
        digits_spaces base blank]
      rfl

/-- `b` is the character of the digit `d`, in either case. -/
def Denotes (base : Nat) (b : Byte) (d : Nat) : Prop :=
  d < base ∧ (d < 10 ∧ b.toNat = 48 + d ∨ 10 ≤ d ∧ (b.toNat = 55 + d ∨ b.toNat = 87 + d))

/-- A text of digits, the most significant first, and its value. -/
def Numeral (base : Nat) (text : List Byte) (value : Nat) : Prop :=
  text ≠ [] ∧ ∃ ds, List.Forall₂ (Denotes base) text ds ∧ value = Nat.ofDigits base ds.reverse

theorem digit_denotes {base : Nat} (small : base ≤ 16) {b : Byte} {d : Nat}
    (denotes : Denotes base b d) : digit base b = some d := by
  obtain ⟨below, character⟩ := denotes
  have value : digitValue base b.toNat = d := by
    unfold digitValue
    rcases character with ⟨decimal, same⟩ | ⟨letter, upper | lower⟩
    · rw [if_pos (by omega)]
      omega
    · rw [if_neg (by omega), if_pos (by omega)]
      omega
    · rw [if_neg (by omega), if_neg (by omega), if_pos (by omega)]
      omega
  rw [digit_eq, value, if_pos below]

theorem digits_denotes {base : Nat} (small : base ≤ 16) {text : List Byte} {ds : List Nat}
    (denote : List.Forall₂ (Denotes base) text ds) : ∀ value,
    digits base text value = ds.foldl (fun v d => v * base + d) value := by
  induction denote with
  | nil =>
      intro value
      rfl
  | cons first _ ih =>
      intro value
      simp only [digits, digit_denotes small first, List.foldl_cons]
      exact ih _

/-- The characters of a number in a base up to 16. -/
def Alphanumeric (b : Byte) : Prop :=
  48 ≤ b.toNat ∧ b.toNat ≤ 57 ∨ 65 ≤ b.toNat ∧ b.toNat ≤ 70 ∨ 97 ≤ b.toNat ∧ b.toNat ≤ 102

theorem alphanumeric_of_denotes {base : Nat} (small : base ≤ 16) {text : List Byte} {ds : List Nat}
    (denote : List.Forall₂ (Denotes base) text ds) : ∀ b ∈ text, Alphanumeric b := by
  induction denote with
  | nil =>
      intro b none
      cases none
  | cons first _ ih =>
      intro b found
      rcases List.mem_cons.mp found with rfl | later
      · obtain ⟨below, character⟩ := first
        unfold Alphanumeric
        omega
      · exact ih b later

theorem Numeral.characters {base : Nat} (small : base ≤ 16) {text : List Byte} {value : Nat}
    (numeral : Numeral base text value) : ∀ b ∈ text, Alphanumeric b := by
  obtain ⟨-, ds, denote, -⟩ := numeral
  exact alphanumeric_of_denotes small denote

theorem Alphanumeric.ne {b other : Byte} (character : Alphanumeric b)
    (symbol : ¬ Alphanumeric other) : b ≠ other := by
  intro same
  exact symbol (same ▸ character)

theorem Alphanumeric.visible {b : Byte} (character : Alphanumeric b) : isSpace b = false := by
  rw [Bool.eq_false_iff]
  intro space
  have range := (isSpace_iff b).mp space
  unfold Alphanumeric at character
  omega

theorem Numeral.token {base : Nat} (small : base ≤ 16) {text : List Byte} {value : Nat}
    (numeral : Numeral base text value) {separator : Byte} (symbol : ¬ Alphanumeric separator) :
    Token separator text := by
  refine ⟨numeral.1, ?_⟩
  intro b found
  have character := numeral.characters small b found
  exact ⟨character.ne symbol, character.ne (by unfold Alphanumeric; decide)⟩

/-- A numeral that fits in a word is read as its value. -/
theorem strtoul_numeral {base : Nat} (small : base ≤ 16) {text : List Byte} {value : Nat}
    (numeral : Numeral base text value) (fits : value < 4294967296) :
    strtoul base text = BitVec.ofNat 32 value := by
  have characters := numeral.characters small
  obtain ⟨nonempty, ds, denote, whole⟩ := numeral
  have folded : digits base text 0 = value := by
    rw [digits_denotes small denote, whole, Nat.ofDigits_eq_foldr, List.foldr_reverse]
    congr 1
    funext v d
    rw [Nat.cast_id]
    ring
  obtain ⟨b, rest, rfl⟩ := List.exists_cons_of_ne_nil nonempty
  have first := characters b List.mem_cons_self
  have minus : b ≠ 0x2D := first.ne (by unfold Alphanumeric; decide)
  have plus : b ≠ 0x2B := first.ne (by unfold Alphanumeric; decide)
  have starts : (b :: rest).dropWhile isSpace = b :: rest :=
    List.dropWhile_cons_of_neg (by rw [first.visible]; exact Bool.false_ne_true)
  have positive : unsigned (b :: rest) = b :: rest := by
    unfold unsigned
    rw [if_neg (by simpa using ⟨minus, plus⟩)]
  -- The x of a 0x is not a digit.
  have second : ∀ x, (b :: rest).take 2 = [0x30, x] → Alphanumeric x := by
    intro x found
    apply characters x
    apply List.mem_of_mem_take (i := 2)
    rw [found]
    simp
  have bare : significant base (b :: rest) = b :: rest := by
    unfold significant
    rw [if_neg]
    rintro ⟨-, lower | upper⟩
    · have letter := second _ lower
      revert letter
      unfold Alphanumeric
      decide
    · have letter := second _ upper
      revert letter
      unfold Alphanumeric
      decide
  rw [strtoul_eq, starts, positive, bare, folded, if_neg (by omega), if_neg (by simpa using minus)]

end OtaBoot.CString
