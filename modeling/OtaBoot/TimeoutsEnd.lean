import OtaBoot.Timeouts

set_option autoImplicit false

namespace OtaBoot.Lwip

/-- The timers at the front that are due at once. -/
def zeros : List SysTimeo → Nat
  | [] => 0
  | t :: rest => if t.time = 0 then zeros rest + 1 else 0

theorem zeros_le_length (queue : List SysTimeo) : zeros queue ≤ queue.length := by
  induction queue with
  | nil => exact Nat.le_refl 0
  | cons t rest ih =>
      unfold zeros
      split
      · exact Nat.succ_le_succ ih
      · exact Nat.zero_le _

theorem zeros_cons_ne {t : SysTimeo} (later : t.time ≠ 0) (rest : List SysTimeo) :
    zeros (t :: rest) = 0 := if_neg later

/-- A timer with some time to go does not join them. -/
theorem insertAfter_zeros {head msecs : Word} (runs : msecs + head ≠ 0) (h : Timer)
    (rest : List SysTimeo) : ∀ time : Word, time ≠ 0 →
    zeros (insertAfter head msecs h time rest) ≤ zeros rest := by
  induction rest with
  | nil =>
      intro time later
      unfold insertAfter
      rw [zeros_cons_ne]
      · exact Nat.zero_le _
      · split
        · exact runs
        · exact later
  | cons t rest ih =>
      intro time later
      unfold insertAfter
      split
      · rw [zeros_cons_ne later]
        exact Nat.zero_le _
      · unfold zeros
        split
        · rename_i now
          have same : time - t.time ≠ 0 := by
            rw [now]
            simpa using later
          exact Nat.succ_le_succ (ih _ same)
        · exact Nat.le_refl 0

namespace Timeouts

variable {s : Timeouts}

theorem sysTimeout_zeros {now msecs : Word} (runs : msecs ≠ 0) (later : msecs + (now - s.last) ≠ 0)
    (h : Timer) : zeros (s.sysTimeout now msecs h).next ≤ zeros s.next := by
  obtain ⟨next, last, tcpTimer⟩ := s
  unfold sysTimeout
  split
  · exact Nat.le_refl _
  · cases next with
    | nil =>
        dsimp only
        rw [zeros_cons_ne runs]
        exact Nat.zero_le _
    | cons first rest =>
        dsimp only
        split
        · rw [zeros_cons_ne later]
          exact Nat.zero_le _
        · unfold zeros
          split
          · rename_i due
            have whole : msecs + (now - last) - 0 = msecs + (now - last) := BitVec.sub_zero _
            have alone : msecs + 0 ≠ 0 := by simpa using runs
            rw [due, whole]
            exact Nat.succ_le_succ (insertAfter_zeros alone h rest _ later)
          · exact Nat.le_refl 0

theorem sysTimeout_last_eq {first : SysTimeo} {rest : List SysTimeo} (queue : s.next = first :: rest)
    (now msecs : Word) (h : Timer) : (s.sysTimeout now msecs h).last = s.last := by
  obtain ⟨next, last, tcpTimer⟩ := s
  obtain rfl : next = first :: rest := queue
  unfold sysTimeout
  split
  · rfl
  · dsimp only
    split <;> rfl

theorem interval_bounds (t : Timer) : 0 < t.interval.toNat ∧ t.interval.toNat ≤ 60000 := by
  cases t <;> decide

/-- The clock has not been set back by less than a minute. -/
theorem interval_add_ne {diff : Word} (forward : diff.toNat + 60000 < clockWrap) (t : Timer) :
    t.interval + diff ≠ 0 := by
  intro zero
  have sum : (t.interval + diff).toNat = 0 := congrArg BitVec.toNat zero
  have bounds := interval_bounds t
  simp only [clockWrap] at forward
  rw [BitVec.toNat_add_of_lt (by omega)] at sum
  omega

theorem handle_zeros {t : Timer} {call : Handled}
    (forward : (call.now - s.last).toNat + 60000 < clockWrap) :
    zeros (s.handle t call).next ≤ zeros s.next := by
  unfold handle
  split
  · exact Nat.le_refl _
  · refine sysTimeout_zeros ?_ (interval_add_ne forward t) t
    intro zero
    have bounds := interval_bounds t
    rw [zero] at bounds
    exact absurd bounds.1 (by decide)

theorem handle_last_eq {first : SysTimeo} {rest : List SysTimeo} (queue : s.next = first :: rest)
    (t : Timer) (call : Handled) : (s.handle t call).last = s.last := by
  unfold handle
  split
  · rfl
  · exact sysTimeout_last_eq queue _ _ _

theorem Kept.four_le (kept : s.Kept) : 4 ≤ s.next.length := by
  have size := kept.length_eq
  rw [Timed.length_names] at size
  rw [size]
  unfold expected
  split <;> decide

/-- Every call brings the end of the loop nearer: time passes, or there is one timer less
that is due at once. -/
def weight (diff : Word) (s : Timeouts) : Nat := 6 * diff.toNat + zeros s.next

theorem weight_lt (kept : s.Kept) {t : SysTimeo} {rest : List SysTimeo} (first : s.next = t :: rest)
    {diff left : Word} (due : t.time ≤ diff) (less : left.toNat = diff.toNat - t.time.toNat)
    {after : Timeouts} (fewer : zeros after.next ≤ zeros rest) : weight left after < weight diff s := by
  have few := kept.length_le
  have within := zeros_le_length rest
  rw [first, List.length_cons] at few
  unfold weight
  rw [first, less]
  by_cases zero : t.time = 0
  · have one : zeros (t :: rest) = zeros rest + 1 := if_pos zero
    omega
  · have positive : t.time.toNat ≠ 0 := fun none => zero (BitVec.eq_of_toNat_eq none)
    rw [BitVec.le_def] at due
    omega

theorem pop_none_of_weight {diff : Word} (light : weight diff s = 0) : s.pop diff = none := by
  obtain ⟨next, last, tcpTimer⟩ := s
  unfold weight at light
  cases next with
  | nil => rfl
  | cons t rest =>
      have later : t.time ≠ 0 := by
        intro zero
        unfold zeros at light
        rw [if_pos zero] at light
        omega
      refine if_neg ?_
      rw [BitVec.le_def]
      have positive : t.time.toNat ≠ 0 := fun zero => later (BitVec.eq_of_toNat_eq zero)
      omega

/-- With enough calls the loop ends, and then the clock shows no timer due. -/
theorem checkLoop_ends {now : Word} (calls : List Handled) (same : ∀ call ∈ calls, call.now = now) :
    ∀ s : Timeouts, s.Kept → (now - s.last).toNat + 60000 < clockWrap →
    weight (now - s.last) s ≤ calls.length →
    (checkLoop (now - s.last) calls s).ended = true ∧
      (checkLoop (now - s.last) calls s).timeouts.pop
        (now - (checkLoop (now - s.last) calls s).timeouts.last) = none := by
  induction calls with
  | nil =>
      intro s kept forward enough
      have quiet := pop_none_of_weight (Nat.le_zero.mp enough)
      rw [checkLoop_none quiet]
      exact ⟨rfl, quiet⟩
  | cons call calls ih =>
      intro s kept forward enough
      rcases expired : s.pop (now - s.last) with - | ⟨t, popped⟩
      · rw [checkLoop_none expired]
        exact ⟨rfl, expired⟩
      · rw [checkLoop_some expired]
        obtain ⟨rest, first, due, rfl⟩ := pop_eq_some expired
        have sameNow : call.now = now := same call List.mem_cons_self
        let popped : Timeouts := { s with next := rest, last := s.last + t.time }
        have passed : now - popped.last = now - s.last - t.time := by
          show now - (s.last + t.time) = now - s.last - t.time
          bv_omega
        have less : (now - popped.last).toNat = (now - s.last).toNat - t.time.toNat := by
          rw [passed]
          exact BitVec.toNat_sub_of_le due
        have size := kept.four_le
        rw [first, List.length_cons] at size
        obtain ⟨second, others, queue⟩ : ∃ second others, rest = second :: others :=
          List.exists_cons_of_length_pos (by omega)
        have kept' : (popped.handle t.h call).Kept := kept.handled first _ call
        have last : (popped.handle t.h call).last = popped.last :=
          handle_last_eq (s := popped) queue t.h call
        have fewer : zeros (popped.handle t.h call).next ≤ zeros rest :=
          handle_zeros (s := popped) (by rw [sameNow]; omega)
        have step := ih (fun call found => same call (List.mem_cons_of_mem _ found))
          (popped.handle t.h call) kept' (by rw [last]; omega)
        have lighter := weight_lt kept first due less fewer
        rw [last] at step
        rw [← passed]
        exact step (by rw [List.length_cons] at enough; omega)

/-- Within one second of the cycle counter the clock stands still. -/
theorem halGetTick_same {first second : Word}
    (same : first.toNat / sysClockFreq = second.toNat / sysClockFreq) :
    halGetTick first = halGetTick second := by
  apply BitVec.eq_of_toNat_eq
  rw [halGetTick_toNat, halGetTick_toNat, same]

theorem idle_run {now : Word} (quiet : s.pop (now - s.last) = none) (log : List Timer)
    (events : List Event) (checks : ∀ event ∈ events, ∃ calls, event = .check now calls) :
    Run.after Timeouts.step (s, log) events = (s, log) := by
  induction events with
  | nil => rfl
  | cons event events ih =>
      obtain ⟨calls, rfl⟩ := checks event List.mem_cons_self
      have nothing : s.sysCheckTimeouts now calls = ⟨s, [], true⟩ := checkLoop_none quiet calls
      rw [Run.after_cons, Timeouts.step, nothing, List.append_nil]
      exact ih fun event found => checks event (List.mem_cons_of_mem _ found)

/-- While the clock is not behind, `sys_check_timeouts` returns, though the timers that it
calls are set again in it; and until the clock shows the next second no further check calls
a timer, however short the interval of the timer is. -/
theorem checks_settle (s : Timeouts) (kept : s.Kept) (cyccnt : Word)
    (forward : (halGetTick cyccnt - s.last).toNat + 60000 < clockWrap) (calls : List Handled)
    (same : ∀ call ∈ calls, call.now = halGetTick cyccnt)
    (enough : 6 * (halGetTick cyccnt - s.last).toNat + 5 ≤ calls.length) :
    let checked := s.sysCheckTimeouts (halGetTick cyccnt) calls
    checked.ended = true ∧
      ∀ later : List (Word × List Handled),
        (∀ check ∈ later, check.1.toNat / sysClockFreq = cyccnt.toNat / sysClockFreq) →
        Run.after Timeouts.step (checked.timeouts, checked.called)
          (later.map fun check => .check (halGetTick check.1) check.2) =
            (checked.timeouts, checked.called) := by
  intro checked
  have few : weight (halGetTick cyccnt - s.last) s ≤ calls.length := by
    have within := zeros_le_length s.next
    have most := kept.length_le
    unfold weight
    omega
  obtain ⟨ended, quiet⟩ := checkLoop_ends calls same s kept forward few
  refine ⟨ended, ?_⟩
  intro later second
  apply idle_run quiet
  intro event found
  obtain ⟨check, within, rfl⟩ := List.mem_map.mp found
  rw [halGetTick_same (second check within)]
  exact ⟨check.2, rfl⟩

/-- The first second after the start, and a check half a second later. -/
theorem checks_settle_first :
    let s := sysTimeoutsInit (fun _ => 0) 0
    let checked := s.sysCheckTimeouts 1000 (List.replicate 6005 ⟨1000, true⟩)
    checked.ended = true ∧
      Run.after Timeouts.step (checked.timeouts, checked.called) [.check (halGetTick 600000000) []] =
        (checked.timeouts, checked.called) := by
  intro s checked
  have settles := checks_settle s (init_kept _ _) 400000000 (by decide)
    (List.replicate 6005 ⟨1000, true⟩) (fun call found => by rw [List.eq_of_mem_replicate found]; rfl)
    (by rw [List.length_replicate]; decide)
  exact ⟨settles.1, settles.2 [(600000000, [])] (by decide)⟩

end Timeouts

end OtaBoot.Lwip
