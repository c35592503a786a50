import OtaBoot.Ota

set_option autoImplicit false

namespace OtaBoot

open Mem

/-- The read-back loop changes nothing and folds the bytes it has left. -/
theorem readbackFrom_ensures (reads : Nat → Status) (size passes : Nat) (m : Mem) :
    ∀ pass crc, size ≤ (pass + passes) * 64 →
    Op.Ensures (readbackFrom reads size passes pass crc) m
      (fun result t => t = m ∧ ∀ value, result = some value →
        value = (m.bytes (pass * 64) (size - pass * 64)).foldl crcByte crc)
      (fun _ => True) := by
  induction passes with
  | zero =>
      intro pass crc enough
      have nothing : size - pass * 64 = 0 := by omega
      refine (Op.ensures_pure _ _ _ _).mpr ⟨rfl, ?_⟩
      intro value found
      rw [nothing]
      exact (Option.some.inj found).symm
  | succ passes ih =>
      intro pass crc enough
      unfold readbackFrom
      by_cases more : pass * 64 < size
      · rw [if_pos more]
        generalize chunkSize : (if size - pass * 64 < 64 then size - pass * 64 else 64) = chunk
        have left : size - pass * 64 = chunk + (size - (pass + 1) * 64) := by
          split at chunkSize <;> omega
        have next : size - (pass + 1) * 64 = 0 ∨ (pass + 1) * 64 = pass * 64 + chunk := by
          split at chunkSize <;> omega
        refine Op.Ensures.bind (fun data t => t = m ∧
          ∀ found, data = some found → found = m.bytes (pass * 64) chunk) ?_ ?_
        · unfold Qspi.bspQspiRead
          cases reads pass with
          | ok => exact ⟨rfl, fun found same => (Option.some.inj same).symm⟩
          | error => exact ⟨rfl, fun found same => nomatch same⟩
          | cut => trivial
        · rintro data t ⟨rfl, read⟩
          cases data with
          | none => exact ⟨rfl, fun value found => nomatch found⟩
          | some found =>
              rw [read found rfl]
              refine (ih (pass + 1) _ (by omega)).mono ?_ fun _ lost => lost
              rintro result u ⟨rfl, rest⟩
              refine ⟨rfl, ?_⟩
              intro value same
              rw [rest value same, left, bytes_append, List.foldl_append]
              rcases next with done | start
              · rw [done]
                rfl
              · rw [start]
      · rw [if_neg more]
        have nothing : size - pass * 64 = 0 := by omega
        refine (Op.ensures_pure _ _ _ _).mpr ⟨rfl, ?_⟩
        intro value found
        rw [nothing]
        exact (Option.some.inj found).symm

/-- Whatever the chip does, CONFIRM means that the staging area reads back with the
expected CRC. -/
theorem stageImage_ensures (faults : PollFaults) (o : Ota) (m : Mem) :
    Op.Ensures (stageImage faults o) m
      (fun state t => state = .error ∨
        state = .confirm ∧ readbackCrc (t.bytes 0 o.received) = o.crcExpected)
      (fun _ => True) := by
  refine Op.Ensures.bind _ (Op.ensures_true _ m) ?_
  intro _ erased _
  refine Op.Ensures.bind _ (Op.ensures_true _ erased) ?_
  intro ready started _
  cases ready with
  | false => exact .inl rfl
  | true =>
      refine Op.Ensures.bind _ (Op.ensures_true _ started) ?_
      intro written staged _
      cases written with
      | false => exact .inl rfl
      | true =>
          have enough : o.received ≤ (0 + (o.received + 1)) * 64 := by omega
          refine Op.Ensures.bind _
            (readbackFrom_ensures faults.read o.received _ staged 0 0xFFFFFFFF enough) ?_
          rintro result t ⟨rfl, folded⟩
          cases result with
          | none => exact .inl rfl
          | some crc =>
              have value := folded crc rfl
              rw [Nat.zero_mul, Nat.sub_zero] at value
              refine (Op.ensures_pure _ _ _ _).mpr ?_
              by_cases same : crc ^^^ 0xFFFFFFFF = o.crcExpected
              · rw [if_pos same]
                refine .inr ⟨rfl, ?_⟩
                unfold readbackCrc
                rw [← value]
                exact same
              · rw [if_neg same]
                exact .inl rfl

/-- Both CRCs of the received bytes are the expected one: in SRAM and read back from `nor`. -/
structure Ota.Verified (o : Ota) (nor : Mem) : Prop where
  sram : crc32Calculate (o.buf.bytes 0 o.received) = o.crcExpected
  readback : readbackCrc (nor.bytes 0 o.received) = o.crcExpected

/-- The ways through `OTA_Poll`. -/
theorem otaPoll_cases (faults : PollFaults) (o : Ota) (nor after : Mem) (state : OtaState)
    (run : otaPoll faults o nor = (.done state, after)) :
    o.state ≠ .verify ∧ state = o.state ∨
      o.state = .verify ∧ (state = .error ∨ state = .confirm ∧ o.Verified after) := by
  unfold otaPoll at run
  by_cases verify : o.state = .verify
  · refine .inr ⟨verify, ?_⟩
    rw [if_neg (not_not.mpr verify)] at run
    by_cases sram : crc32Calculate (o.buf.bytes 0 o.received) = o.crcExpected
    · rw [if_neg (not_not.mpr sram)] at run
      rcases Op.ensures_of_run (stageImage_ensures faults o nor) run with failed | staged
      · exact .inl failed
      · exact .inr ⟨staged.1, sram, staged.2⟩
    · rw [if_pos sram] at run
      injection run with ended
      injection ended with same
      exact .inl same.symm
  · rw [if_pos verify] at run
    injection run with ended
    injection ended with same
    exact .inl ⟨verify, same.symm⟩

/-- No operation of the poll fails. -/
def PollFaults.clean : PollFaults where
  erase := .clean
  init := .ok
  write := fun _ => .clean
  reinit := .ok
  rewrite := fun _ => .clean
  read := fun _ => .ok

end OtaBoot
