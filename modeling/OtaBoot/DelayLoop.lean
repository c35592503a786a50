import OtaBoot.Delay

set_option autoImplicit false

namespace OtaBoot

/-- `UINT32_MAX`. -/
abbrev uint32Max : Word := 4294967295

/-- What one pass of the delay loop adds to `tcnt`. Over a wrap of the counter it is one
cycle short. -/
def delayStep (told tnow : Word) : Word :=
  if told < tnow then tnow - told else uint32Max - told + tnow

/-- The loop of `CPU_TS_Tmr_Delay_US`; a gap is the number of cycles between two readings
of the counter. The result is the number of readings after the first. -/
def delayLoop (ticks : Word) : Word → Word → List Nat → Option Nat
  | _, _, [] => none
  | told, tcnt, gap :: rest =>
    let tnow := told + BitVec.ofNat 32 gap
    if tnow ≠ told then
      let tcnt := tcnt + delayStep told tnow
      if ticks ≤ tcnt then some 1 else (delayLoop ticks tnow tcnt rest).map (· + 1)
    else (delayLoop ticks told tcnt rest).map (· + 1)

/-- `us * (GET_CPU_ClkFreq() / 1000000)`. -/
def delayTicks (clkFreq us : Word) : Word := us * (clkFreq / 1000000)

/-- `CPU_TS_Tmr_Delay_US`. -/
def cpuTsTmrDelayUS (clkFreq us told : Word) (gaps : List Nat) : Option Nat :=
  delayLoop (delayTicks clkFreq us) told 0 gaps

/-- The cycles between the first reading and the `n`-th one after it. -/
def elapsedAt : List Nat → Nat → Nat
  | _, 0 => 0
  | [], _ + 1 => 0
  | gap :: rest, n + 1 => gap + elapsedAt rest n

/-- How often the counter has wrapped by then. -/
def wrapsAt (told : Word) (gaps : List Nat) (n : Nat) : Nat :=
  (told.toNat + elapsedAt gaps n) / cycleWrap

/-- With `tcnt` counted before, reading `n` does not end the loop: it counts the cycles,
but one for each wrap. -/
def Early (ticks tcnt : Nat) (told : Word) (gaps : List Nat) (n : Nat) : Prop :=
  tcnt + elapsedAt gaps n < ticks + wrapsAt told gaps n

theorem elapsedAt_zero (gaps : List Nat) : elapsedAt gaps 0 = 0 := by
  cases gaps <;> rfl

theorem elapsedAt_succ (gap : Nat) (rest : List Nat) (n : Nat) :
    elapsedAt (gap :: rest) (n + 1) = gap + elapsedAt rest n := rfl

theorem wrapsAt_zero (told : Word) (gaps : List Nat) : wrapsAt told gaps 0 = 0 := by
  have small := told.isLt
  unfold wrapsAt
  rw [elapsedAt_zero]
  exact Nat.div_eq_of_lt small

theorem early_zero {ticks tcnt : Nat} (told : Word) (gaps : List Nat) (few : tcnt < ticks) :
    Early ticks tcnt told gaps 0 := by
  unfold Early
  rw [wrapsAt_zero, elapsedAt_zero]
  exact few

/-- The readings after the first pass start from where the counter is then. -/
theorem wrapsAt_succ (told : Word) (gap : Nat) (rest : List Nat) (n : Nat) :
    wrapsAt told (gap :: rest) (n + 1) = (told.toNat + gap) / cycleWrap +
      wrapsAt (told + BitVec.ofNat 32 gap) rest n := by
  have now : (told + BitVec.ofNat 32 gap).toNat = (told.toNat + gap) % cycleWrap := by
    rw [BitVec.toNat_add, BitVec.toNat_ofNat]
    simp only [cycleWrap]
    omega
  unfold wrapsAt
  rw [elapsedAt_succ, now]
  generalize elapsedAt rest n = later
  simp only [cycleWrap]
  omega

/-- One pass that sees the counter move. -/
theorem delayStep_toNat (told : Word) {gap : Nat} (moves : 0 < gap) (short : gap < cycleWrap) :
    (delayStep told (told + BitVec.ofNat 32 gap)).toNat + (told.toNat + gap) / cycleWrap = gap := by
  have small := told.isLt
  have now : (told + BitVec.ofNat 32 gap).toNat = (told.toNat + gap) % cycleWrap := by
    rw [BitVec.toNat_add, BitVec.toNat_ofNat]
    simp only [cycleWrap]
    omega
  unfold delayStep
  split
  · rename_i forward
    rw [BitVec.lt_def, now] at forward
    rw [BitVec.toNat_sub, now]
    simp only [cycleWrap] at forward short ⊢
    omega
  · rename_i wrapped
    rw [BitVec.lt_def, now] at wrapped
    have left : (uint32Max - told).toNat = 4294967295 - told.toNat := by
      rw [BitVec.toNat_sub, show uint32Max.toNat = 4294967295 from by decide]
      omega
    rw [BitVec.toNat_add, left, now]
    simp only [cycleWrap] at wrapped short ⊢
    omega

/-- From any pass on: `tcnt` cycles have been counted, and they are too few. -/
theorem delayLoop_iff (ticks : Word) (gaps : List Nat)
    (fits : ∀ gap ∈ gaps, ticks.toNat + gap ≤ cycleWrap) : ∀ (told tcnt : Word) (n : Nat),
    tcnt.toNat < ticks.toNat →
    (delayLoop ticks told tcnt gaps = some n ↔ n ≤ gaps.length ∧
      ¬ Early ticks.toNat tcnt.toNat told gaps n ∧
      ∀ k < n, Early ticks.toNat tcnt.toNat told gaps k) := by
  induction gaps with
  | nil =>
      intro told tcnt n early
      constructor
      · intro absurd
        cases absurd
      · rintro ⟨none, enough, -⟩
        obtain rfl : n = 0 := Nat.le_zero.mp none
        exact absurd (early_zero told [] early) enough
  | cons gap rest ih =>
      intro told tcnt n early
      have room := fits gap List.mem_cons_self
      have later := ih fun gap found => fits gap (List.mem_cons_of_mem _ found)
      have short : gap < cycleWrap := by omega
      have first := early_zero told (gap :: rest) early
      -- What is asked of a reading after this one is what the rest of the loop asks.
      have shift : ∀ (counted : Word) (k : Nat),
          counted.toNat + (told.toNat + gap) / cycleWrap = tcnt.toNat + gap →
          (Early ticks.toNat tcnt.toNat told (gap :: rest) (k + 1) ↔
            Early ticks.toNat counted.toNat (told + BitVec.ofNat 32 gap) rest k) := by
        intro counted k sum
        unfold Early
        rw [elapsedAt_succ, wrapsAt_succ]
        omega
      have continues : ∀ counted : Word,
          counted.toNat + (told.toNat + gap) / cycleWrap = tcnt.toNat + gap →
          counted.toNat < ticks.toNat →
          ((delayLoop ticks (told + BitVec.ofNat 32 gap) counted rest).map (· + 1) = some n ↔
            n ≤ (gap :: rest).length ∧ ¬ Early ticks.toNat tcnt.toNat told (gap :: rest) n ∧
            ∀ k < n, Early ticks.toNat tcnt.toNat told (gap :: rest) k) := by
        intro counted sum few
        cases n with
        | zero =>
            constructor
            · intro absurd
              simp at absurd
            · rintro ⟨-, enough, -⟩
              exact absurd first enough
        | succ n =>
            rw [Option.map_eq_some_iff]
            simp only [Nat.add_right_cancel_iff, exists_eq_right, List.length_cons,
              Nat.add_le_add_iff_right]
            rw [later _ counted n few, shift counted n sum]
            refine and_congr_right fun _ => and_congr_right fun _ => ?_
            constructor
            · intro before k below
              cases k with
              | zero => exact first
              | succ k => exact (shift counted k sum).mpr (before k (by omega))
            · intro before k below
              exact (shift counted k sum).mp (before (k + 1) (by omega))
      unfold delayLoop
      dsimp only
      by_cases still : gap = 0
      · subst still
        have same : told + BitVec.ofNat 32 0 = told := by simp
        rw [if_neg (by rw [same]; exact fun differs => differs rfl)]
        have next := continues tcnt (by
          have small := told.isLt
          rw [Nat.add_zero, Nat.div_eq_of_lt small]) early
        rw [same] at next
        exact next
      · have moved : told + BitVec.ofNat 32 gap ≠ told := by
          intro same
          have values := congrArg BitVec.toNat same
          rw [BitVec.toNat_add, BitVec.toNat_ofNat] at values
          have small := told.isLt
          simp only [cycleWrap] at short
          omega
        rw [if_pos moved]
        have step := delayStep_toNat told (Nat.pos_of_ne_zero still) short
        have sum : (tcnt + delayStep told (told + BitVec.ofNat 32 gap)).toNat +
            (told.toNat + gap) / cycleWrap = tcnt.toNat + gap := by
          rw [BitVec.toNat_add]
          simp only [cycleWrap] at room step ⊢
          omega
        generalize tcnt + delayStep told (told + BitVec.ofNat 32 gap) = counted at sum
        by_cases enough : ticks ≤ counted
        · rw [if_pos enough]
          rw [BitVec.le_def] at enough
          have reached : ¬ Early ticks.toNat tcnt.toNat told (gap :: rest) 1 := by
            rw [shift counted 0 sum]
            unfold Early
            rw [elapsedAt_zero, wrapsAt_zero]
            omega
          constructor
          · intro one
            obtain rfl : 1 = n := Option.some.inj one
            refine ⟨by simp, reached, ?_⟩
            intro k below
            obtain rfl : k = 0 := by omega
            exact first
          · rintro ⟨-, last, before⟩
            have notZero : n ≠ 0 := by
              rintro rfl
              exact last first
            have notMore : ¬ 1 < n := fun more => reached (before 1 more)
            rw [show n = 1 by omega]
        · rw [if_neg enough]
          rw [BitVec.le_def] at enough
          exact continues counted sum (by omega)

/-- A delay ends at the first reading by which its cycles and one for each wrap of the
counter have passed, if neither the product nor `tcnt` overflows. -/
theorem delay_exact (clkFreq us told : Word) (gaps : List Nat)
    (product : us.toNat * (clkFreq.toNat / 1000000) < cycleWrap)
    (runs : 0 < us.toNat * (clkFreq.toNat / 1000000))
    (fits : ∀ gap ∈ gaps, us.toNat * (clkFreq.toNat / 1000000) + gap ≤ cycleWrap) (n : Nat) :
    cpuTsTmrDelayUS clkFreq us told gaps = some n ↔ n ≤ gaps.length ∧
      us.toNat * (clkFreq.toNat / 1000000) + wrapsAt told gaps n ≤ elapsedAt gaps n ∧
      ∀ k < n, elapsedAt gaps k < us.toNat * (clkFreq.toNat / 1000000) + wrapsAt told gaps k := by
  have ticks : (delayTicks clkFreq us).toNat = us.toNat * (clkFreq.toNat / 1000000) := by
    unfold delayTicks
    rw [BitVec.toNat_mul, BitVec.toNat_udiv]
    exact Nat.mod_eq_of_lt product
  rw [← ticks] at runs fits ⊢
  have zero : (0 : Word).toNat = 0 := rfl
  have loop := delayLoop_iff (delayTicks clkFreq us) gaps fits told 0 n (by rw [zero]; exact runs)
  unfold cpuTsTmrDelayUS
  simpa only [Early, zero, Nat.zero_add, Nat.not_lt] using loop

/-- 50 ms at 480 MHz, over a wrap of the counter: the reading after exactly 24000000
cycles is one too early. -/
theorem delay_exact_reset :
    let gaps := [20000000, 4000000, 1]
    cpuTsTmrDelayUS 480000000 50000 4290000000 gaps = some 3 := by
  intro gaps
  refine (delay_exact 480000000 50000 4290000000 gaps (by decide) (by decide) (by decide) 3).mpr ?_
  decide

/-- More than `seconds` of them are counted at every start of a wait, exactly from the
next second on and up to a second before the counter is back where it was. -/
theorem ticksSince_certain_iff {elapsed seconds : Nat} (inside : elapsed < cycleWrap)
    (few : seconds ≤ 8) :
    (∀ start : Word, seconds * 1000 < (ticksSince start elapsed).toNat) ↔
      (seconds + 1) * sysClockFreq ≤ elapsed ∧ elapsed + sysClockFreq ≤ cycleWrap := by
  constructor
  · intro certain
    have zero : (0 : Word).toNat = 0 := rfl
    have fresh := certain 0
    rw [ticksSince_toNat 0 elapsed inside, zero, if_pos (by omega)] at fresh
    refine ⟨by simp only [sysClockFreq] at fresh ⊢; omega, ?_⟩
    -- At this start the counter is back at zero, and both readings are in its first second.
    by_contra late
    have wraps := certain (BitVec.ofNat 32 (cycleWrap - elapsed))
    have start : (BitVec.ofNat 32 (cycleWrap - elapsed)).toNat = cycleWrap - elapsed := by
      rw [BitVec.toNat_ofNat]
      simp only [cycleWrap, sysClockFreq] at inside late ⊢
      omega
    rw [ticksSince_toNat _ elapsed inside, start] at wraps
    simp only [cycleWrap, sysClockFreq] at inside late wraps
    split at wraps <;> omega
  · rintro ⟨lower, upper⟩ start
    have small := start.isLt
    rw [ticksSince_toNat start elapsed inside]
    simp only [cycleWrap, sysClockFreq] at lower upper ⊢
    split <;> omega

/-- The difference of two ticks is no number between one and two seconds. -/
theorem ticksSince_whole (start : Word) {elapsed : Nat} (inside : elapsed < cycleWrap)
    (one : 1000 < (ticksSince start elapsed).toNat) :
    2000 ≤ (ticksSince start elapsed).toNat := by
  have small := start.isLt
  rw [ticksSince_toNat start elapsed inside] at one ⊢
  simp only [cycleWrap, sysClockFreq] at inside one ⊢
  split at one
  · rename_i forward
    rw [if_pos forward]
    omega
  · rename_i wrapped
    rw [if_neg wrapped]
    have few : start.toNat / 400000000 - (start.toNat + elapsed - 4294967296) / 400000000 ≤ 10 := by
      omega
    generalize start.toNat / 400000000 - (start.toNat + elapsed - 4294967296) / 400000000 = back at few one ⊢
    rcases Nat.eq_zero_or_pos back with rfl | some
    · exact absurd one (by decide)
    · rw [Nat.mod_eq_of_lt (by omega)]
      omega

theorem versionTimeout_certain_iff {elapsed : Nat} (inside : elapsed < cycleWrap) :
    (∀ start, versionTimeout start elapsed = true) ↔
      7 * sysClockFreq ≤ elapsed ∧ elapsed + sysClockFreq ≤ cycleWrap := by
  have six : 6 ≤ 8 := by decide
  rw [← ticksSince_certain_iff inside six]
  exact forall_congr' fun start => decide_eq_true_iff

theorem triggerWindow_certain_iff {elapsed : Nat} (inside : elapsed < cycleWrap) :
    (∀ start, triggerWindow start elapsed = false) ↔
      2 * sysClockFreq ≤ elapsed ∧ elapsed + sysClockFreq ≤ cycleWrap := by
  have one : 1 ≤ 8 := by decide
  rw [← ticksSince_certain_iff inside one]
  refine forall_congr' fun start => ?_
  have whole := ticksSince_whole start inside
  unfold triggerWindow
  rw [decide_eq_false_iff_not, BitVec.lt_def]
  show ¬ (ticksSince start elapsed).toNat < 2000 ↔ _
  omega

/-- When each of the two tests says that the time is up, wherever the counter was when
the wait began. -/
theorem waits_certain_iff (elapsed : Nat) (inside : elapsed < cycleWrap) :
    ((∀ start, versionTimeout start elapsed = true) ↔
      7 * sysClockFreq ≤ elapsed ∧ elapsed + sysClockFreq ≤ cycleWrap) ∧
    ((∀ start, triggerWindow start elapsed = false) ↔
      2 * sysClockFreq ≤ elapsed ∧ elapsed + sysClockFreq ≤ cycleWrap) :=
  ⟨versionTimeout_certain_iff inside, triggerWindow_certain_iff inside⟩

/-- Seven seconds after its start the version check has timed out; a pass that takes ten
can miss the end of both waits. -/
theorem waits_certain_iff_seconds :
    (∀ start, versionTimeout start (7 * sysClockFreq) = true) ∧
    ¬ (∀ start, versionTimeout start (10 * sysClockFreq) = true) ∧
    ¬ ∀ start, triggerWindow start (10 * sysClockFreq) = false := by
  refine ⟨(waits_certain_iff _ (by decide)).1.mpr (by decide), ?_⟩
  have ten := waits_certain_iff (10 * sysClockFreq) (by decide)
  exact ⟨fun certain => absurd (ten.1.mp certain) (by decide),
    fun certain => absurd (ten.2.mp certain) (by decide)⟩

end OtaBoot
