import OtaBoot.StagingGate

set_option autoImplicit false

namespace OtaBoot

open Mem

/-- The read-back loop of `OTA_Poll` computes bit by bit, 64 bytes at a time, what
`CRC32_Calculate` computes from its table over the same bytes. -/
theorem crc32Calculate_readback (m : Mem) (size : Nat) :
    ∃ crc, readbackFrom (fun _ => .ok) size (size + 1) 0 0xFFFFFFFF m = (.done (some crc), m) ∧
      crc ^^^ 0xFFFFFFFF = crc32Calculate (m.bytes 0 size) := by
  have enough : size ≤ (0 + (size + 1)) * 64 := by omega
  have folded := readbackFrom_ensures (fun _ => .ok) size (size + 1) m 0 0xFFFFFFFF enough
  have works : ∀ pass : Nat, (fun _ => Status.ok) pass = .ok := fun _ => rfl
  have reads := readbackFrom_reads works size (size + 1) m 0 0xFFFFFFFF
  unfold Op.Ensures at folded reads
  generalize readbackFrom (fun _ => .ok) size (size + 1) 0 0xFFFFFFFF m = run at folded reads
  obtain ⟨exit, t⟩ := run
  cases exit with
  | cut => exact reads.elim
  | done result =>
      obtain ⟨rfl, value⟩ := folded
      cases result with
      | none => exact absurd rfl reads
      | some crc =>
          refine ⟨crc, rfl, ?_⟩
          have bytes := value crc rfl
          rw [Nat.zero_mul, Nat.sub_zero] at bytes
          rw [bytes]
          exact (crc32Calculate_eq _).symm

example : crc32Calculate [0x31, 0x32, 0x33, 0x34, 0x35, 0x36, 0x37, 0x38, 0x39] = 0xCBF43926 := by
  decide +kernel

theorem foldl_crc32Step (data : List Byte) (crc : Word) :
    data.foldl crc32Step crc = data.foldl (Crc.feed 0xEDB88320) crc := by
  have step : crc32Step = Crc.feed 0xEDB88320 := by
    funext crc byte
    rw [crc32Step_eq, crcByte_shifts]
    rfl
  rw [step]

/-- Data whose differences lie within four positions is the same before and after them. -/
theorem window_split {first second : List Byte} {start : Nat}
    (window : ∀ i, first[i]? ≠ second[i]? → start ≤ i ∧ i < start + 4) :
    first.take start = second.take start ∧ first.drop (start + 4) = second.drop (start + 4) := by
  have agree : ∀ i, i < start ∨ start + 4 ≤ i → first[i]? = second[i]? := by
    intro i outside
    by_contra different
    have inside := window i different
    omega
  constructor
  · apply List.ext_getElem?
    intro i
    rw [List.getElem?_take, List.getElem?_take]
    split
    · rename_i below
      exact agree i (.inl below)
    · rfl
  · apply List.ext_getElem?
    intro i
    rw [List.getElem?_drop, List.getElem?_drop]
    exact agree (start + 4 + i) (.inr (by omega))

/-- Any change to at most four neighbouring bytes changes the CRC. -/
theorem crc32Calculate_detects (first second : List Byte) (size : first.length = second.length)
    (different : first ≠ second) (start : Nat)
    (window : ∀ i, first[i]? ≠ second[i]? → start ≤ i ∧ i < start + 4) :
    crc32Calculate first ≠ crc32Calculate second := by
  obtain ⟨front, back⟩ := window_split window
  have parts : ∀ data : List Byte, data =
      data.take start ++ ((data.drop start).take 4 ++ data.drop (start + 4)) := by
    intro data
    rw [← List.drop_drop, List.take_append_drop, List.take_append_drop]
  have top : (0xEDB88320 : Word).msb = true := by decide
  intro same
  apply different
  unfold crc32Calculate at same
  have registers := (BitVec.xor_left_inj _).mp same
  rw [foldl_crc32Step, foldl_crc32Step, parts first, parts second, front, back] at registers
  simp only [List.foldl_append] at registers
  have middle := Crc.foldl_feed_inj top (by simp only [List.length_take, List.length_drop, size])
    (by rw [List.length_take]; omega) _ (Crc.foldl_feed_apart top _ registers)
  rw [parts first, parts second, front, back, middle]

/-- Bytes 1 to 3 of five are changed. -/
theorem crc32Calculate_detects_three :
    crc32Calculate [0x10, 0x20, 0x30, 0x40, 0x50] ≠ crc32Calculate [0x10, 0x21, 0x00, 0xFF, 0x50] := by
  apply crc32Calculate_detects [0x10, 0x20, 0x30, 0x40, 0x50] [0x10, 0x21, 0x00, 0xFF, 0x50] rfl
    (by decide) 1
  intro i different
  rcases i with _ | _ | _ | _ | _ | i
  · exact absurd rfl different
  · omega
  · omega
  · omega
  · exact absurd rfl different
  · exact absurd rfl different

end OtaBoot
