import OtaBoot.Lib.Memory

set_option autoImplicit false

namespace OtaBoot

/-- `SysClockFreq`. -/
abbrev sysClockFreq : Nat := 400000000
/-- `DWT_CYCCNT` has 32 bits. -/
abbrev cycleWrap : Nat := 4294967296

/-- `HAL_GetTick` at a value of the cycle counter: whole seconds, in milliseconds. -/
def halGetTick (cyccnt : Word) : Word := cyccnt / 400000000 * 1000

/-- `HAL_GetTick() - t0`, `elapsed` cycles after `t0` was read at `start`. -/
def ticksSince (start : Word) (elapsed : Nat) : Word :=
  halGetTick (start + BitVec.ofNat 32 elapsed) - halGetTick start

/-- The test that ends the wait for the version server. -/
def versionTimeout (start : Word) (elapsed : Nat) : Bool := decide (6000 < ticksSince start elapsed)

/-- The test that keeps a trigger window open. -/
def triggerWindow (start : Word) (elapsed : Nat) : Bool := decide (ticksSince start elapsed < 2000)

/-- One pass of a wait: whether what it waits for has happened, and when the pass reads
the clock. -/
structure Poll where
  ready : Bool
  elapsed : Nat

inductive WaitEnd
  | found
  | timeUp (elapsed : Nat)
  | waiting

/-- `while (!Version_Check_IsDone())` of `Firmware_Update`. -/
def versionWait (start : Word) : List Poll → WaitEnd
  | [] => .waiting
  | poll :: rest =>
    if poll.ready then .found
    else if versionTimeout start poll.elapsed then .timeUp poll.elapsed
    else versionWait start rest

/-- The wait of one trigger round. -/
def triggerWait (start : Word) : List Poll → WaitEnd
  | [] => .waiting
  | poll :: rest =>
    if triggerWindow start poll.elapsed then
      if poll.ready then .found else triggerWait start rest
    else .timeUp poll.elapsed

theorem halGetTick_toNat (cyccnt : Word) :
    (halGetTick cyccnt).toNat = cyccnt.toNat / sysClockFreq * 1000 := by
  have small := cyccnt.isLt
  unfold halGetTick
  rw [BitVec.toNat_mul, BitVec.toNat_udiv]
  show cyccnt.toNat / 400000000 * 1000 % 4294967296 = _
  simp only [sysClockFreq]
  omega

/-- While the counter has not wrapped the difference is that of the seconds; once it has,
it is negative, or zero in the second in which the wait began. -/
theorem ticksSince_toNat (start : Word) (elapsed : Nat) (inside : elapsed < cycleWrap) :
    (ticksSince start elapsed).toNat =
      if start.toNat + elapsed < cycleWrap then
        ((start.toNat + elapsed) / sysClockFreq - start.toNat / sysClockFreq) * 1000
      else (cycleWrap - (start.toNat / sysClockFreq -
        (start.toNat + elapsed - cycleWrap) / sysClockFreq) * 1000) % cycleWrap := by
  have small := start.isLt
  have now : (start + BitVec.ofNat 32 elapsed).toNat = (start.toNat + elapsed) % 4294967296 := by
    rw [BitVec.toNat_add, BitVec.toNat_ofNat]
    show (start.toNat + elapsed % 4294967296) % 4294967296 = _
    omega
  unfold ticksSince
  rw [BitVec.toNat_sub, halGetTick_toNat, halGetTick_toNat, now]
  simp only [sysClockFreq, cycleWrap] at inside ⊢
  split <;> omega

/-- The seconds counted exceed those that have passed by less than one. -/
theorem seconds_sub_le (start : Nat) {elapsed seconds : Nat} (short : elapsed ≤ seconds * sysClockFreq) :
    (start + elapsed) / sysClockFreq - start / sysClockFreq ≤ seconds := by
  have upper : (start + elapsed) / sysClockFreq ≤ (start + seconds * sysClockFreq) / sysClockFreq :=
    Nat.div_le_div_right (by omega)
  have whole : (start + seconds * sysClockFreq) / sysClockFreq = start / sysClockFreq + seconds :=
    Nat.add_mul_div_right start seconds (by decide)
  omega

/-- More than `seconds` full seconds are counted only after as many have passed, if the
counter does not wrap before. -/
theorem ticksSince_late {start : Word} {elapsed seconds : Nat} (inside : elapsed < cycleWrap)
    (room : start.toNat + seconds * sysClockFreq < cycleWrap)
    (counted : seconds * 1000 < (ticksSince start elapsed).toNat) :
    seconds * sysClockFreq < elapsed := by
  by_contra early
  have short : elapsed ≤ seconds * sysClockFreq := Nat.le_of_not_lt early
  have passed := seconds_sub_le start.toNat short
  rw [ticksSince_toNat start elapsed inside, if_pos (by omega)] at counted
  omega

/-- At the moment the counter wraps, the difference is a huge number. -/
theorem ticksSince_wrap {start : Word} (late : sysClockFreq ≤ start.toNat) :
    10000 < (ticksSince start (cycleWrap - start.toNat)).toNat := by
  have small := start.isLt
  have whole : start.toNat + (cycleWrap - start.toNat) = cycleWrap :=
    Nat.add_sub_of_le (Nat.le_of_lt small)
  have lower : 1 ≤ start.toNat / sysClockFreq := by
    rw [Nat.le_div_iff_mul_le (by decide)]
    omega
  have upper : start.toNat / sysClockFreq ≤ 10 := by
    simp only [sysClockFreq]
    omega
  rw [ticksSince_toNat start _ (by simp only [sysClockFreq, cycleWrap] at late ⊢; omega), whole,
    if_neg (Nat.lt_irrefl _), Nat.sub_self, Nat.zero_div, Nat.sub_zero]
  generalize start.toNat / sysClockFreq = seconds at lower upper
  rw [Nat.mod_eq_of_lt (by simp only [cycleWrap]; omega)]
  simp only [cycleWrap]
  omega

/-- A wait in which the counter wraps too soon is over at that moment. -/
theorem ticksSince_early {start : Word} {seconds : Nat} (few : seconds ≤ 6)
    (wraps : ¬ start.toNat + seconds * sysClockFreq < cycleWrap) :
    ∃ elapsed < cycleWrap, elapsed ≤ seconds * sysClockFreq ∧
      10000 < (ticksSince start elapsed).toNat := by
  have late : sysClockFreq ≤ start.toNat := by
    simp only [sysClockFreq, cycleWrap] at wraps ⊢
    omega
  refine ⟨cycleWrap - start.toNat, ?_, ?_, ticksSince_wrap late⟩
  · simp only [sysClockFreq, cycleWrap] at late ⊢
    omega
  · omega

/-- Neither wait is cut short exactly if the counter does not wrap within the time the
wait should last at least. -/
theorem waits_not_early_iff (start : Word) :
    ((∀ elapsed < cycleWrap, versionTimeout start elapsed = true → 6 * sysClockFreq < elapsed) ↔
      start.toNat + 6 * sysClockFreq < cycleWrap) ∧
    ((∀ elapsed < cycleWrap, triggerWindow start elapsed = false → sysClockFreq < elapsed) ↔
      start.toNat + sysClockFreq < cycleWrap) := by
  constructor
  · constructor
    · intro honest
      by_contra wraps
      obtain ⟨elapsed, inside, early, huge⟩ := ticksSince_early (Nat.le_refl 6) wraps
      have fired : 6000 < (ticksSince start elapsed).toNat := by omega
      have late := honest elapsed inside (decide_eq_true fired)
      omega
    · intro room elapsed inside fired
      have counted : 6000 < (ticksSince start elapsed).toNat := of_decide_eq_true fired
      exact ticksSince_late inside room (by omega)
  · rw [← Nat.one_mul sysClockFreq]
    constructor
    · intro honest
      by_contra wraps
      obtain ⟨elapsed, inside, early, huge⟩ := ticksSince_early (by decide) wraps
      have closed : ¬ (ticksSince start elapsed).toNat < 2000 := by omega
      have late := honest elapsed inside (decide_eq_false closed)
      omega
    · intro room elapsed inside closed
      have counted : ¬ (ticksSince start elapsed).toNat < 2000 := of_decide_eq_false closed
      exact ticksSince_late inside room (by omega)

/-- A wait that begins ten seconds after the counter started is over when the counter
wraps, less than a second later. -/
theorem waits_early_at_wrap :
    versionTimeout 4000000000 294967296 = true ∧ triggerWindow 4000000000 294967296 = false ∧
      ¬ (∀ start : Word, ∀ elapsed < cycleWrap,
        (versionTimeout start elapsed = true → 6 * sysClockFreq < elapsed) ∧
          (triggerWindow start elapsed = false → sysClockFreq < elapsed)) := by
  have fired : versionTimeout 4000000000 294967296 = true := by decide
  refine ⟨fired, by decide, ?_⟩
  intro honest
  have late := (honest 4000000000 294967296 (by decide)).1 fired
  revert late
  decide

/-- A wait that runs out does so at a pass whose test says so. -/
theorem versionWait_timeUp (start : Word) (polls : List Poll) (elapsed : Nat)
    (ended : versionWait start polls = .timeUp elapsed) :
    versionTimeout start elapsed = true ∧ elapsed ∈ polls.map Poll.elapsed := by
  induction polls with
  | nil => cases ended
  | cons poll rest ih =>
      unfold versionWait at ended
      split at ended
      · cases ended
      · split at ended
        · rename_i fired
          cases ended
          exact ⟨fired, List.mem_cons_self⟩
        · obtain ⟨fired, found⟩ := ih ended
          exact ⟨fired, List.mem_cons_of_mem _ found⟩

theorem triggerWait_timeUp (start : Word) (polls : List Poll) (elapsed : Nat)
    (ended : triggerWait start polls = .timeUp elapsed) :
    triggerWindow start elapsed = false ∧ elapsed ∈ polls.map Poll.elapsed := by
  induction polls with
  | nil => cases ended
  | cons poll rest ih =>
      unfold triggerWait at ended
      split at ended
      · split at ended
        · cases ended
        · obtain ⟨closed, found⟩ := ih ended
          exact ⟨closed, List.mem_cons_of_mem _ found⟩
      · rename_i closed
        cases ended
        exact ⟨Bool.eq_false_iff.mpr closed, List.mem_cons_self⟩

end OtaBoot
