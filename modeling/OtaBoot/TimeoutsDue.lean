import OtaBoot.Timeouts

set_option autoImplicit false

/- When the timers are due, modulo the 32 bits of the clock. -/
namespace OtaBoot.Lwip

theorem word_add_sub_cancel (a b : Word) : a + (b - a) = b := by
  rw [BitVec.add_comm, BitVec.sub_add_cancel]

/-- What remains of `time` behind the last timer, if no timer before is later. -/
def leftover : Word → List SysTimeo → Option Word
  | time, [] => some time
  | time, t :: rest => if time < t.time then none else leftover (time - t.time) rest

section Insert

variable (head msecs : Word) {h : Timer}

/-- The timers that wait already keep their time. -/
theorem insertAfter_due {k : Timer} (other : h ≠ k) (rest : List SysTimeo) : ∀ start time,
    Timed.due start (insertAfter head msecs h time rest) k = Timed.due start rest k := by
  induction rest with
  | nil =>
      intro start time
      exact Timed.due_cons_ne other
  | cons t rest ih =>
      intro start time
      unfold insertAfter
      split
      · exact Timed.due_insert word_add_sub_cancel start time t rest other
      · unfold Timed.due
        rw [ih]

/-- The new timer has its time unless it comes last and late. -/
theorem insertAfter_new_iff (rest : List SysTimeo) (fresh : h ∉ Timed.names rest) : ∀ start time,
    Timed.due start (insertAfter head msecs h time rest) h = some (start + time) ↔
      ∀ left, leftover time rest = some left → left ≤ msecs ∨ left = msecs + head := by
  induction rest with
  | nil =>
      intro start time
      unfold insertAfter leftover
      rw [Timed.due_self, Option.some.injEq, BitVec.add_right_inj]
      constructor
      · rintro same left ⟨⟩
        split at same
        · exact Or.inr same.symm
        · rename_i small
          exact Or.inl (BitVec.not_lt.mp small)
      · intro fits
        split
        · rename_i late
          rcases fits time rfl with small | same
          · exact absurd late (BitVec.not_lt.mpr small)
          · exact same.symm
        · rfl
  | cons t rest ih =>
      intro start time
      rw [Timed.names_cons, List.mem_cons, not_or] at fresh
      unfold insertAfter leftover
      by_cases early : time < t.time
      · rw [if_pos early, if_pos early, Timed.due_self]
        simp
      · rw [if_neg early, if_neg early, Timed.due_cons_ne (Ne.symm fresh.1), ← ih fresh.2]
        have sum : start + t.time + (time - t.time) = start + time := by
          rw [BitVec.add_assoc, word_add_sub_cancel]
        rw [sum]

end Insert

namespace Timeouts

/-- When `k` is due. -/
def due (s : Timeouts) (k : Timer) : Option Word := Timed.due s.last s.next k

/-- `sys_timeout` counts from the right moment: it does not go to the front with time
passed since `timeouts_last_time`, and not to the end with more left than it was given. -/
def Timely (s : Timeouts) (now msecs : Word) : Prop :=
  match s.next with
  | [] => True
  | first :: rest =>
    if msecs < first.time then now = s.last
    else ∀ left, leftover (msecs + (now - s.last) - first.time) rest = some left →
      left ≤ msecs ∨ left = msecs + first.time

variable {s : Timeouts}

/-- A timer that goes to the front puts the others off by the time since
`timeouts_last_time`. -/
theorem due_front {first : SysTimeo} {rest : List SysTimeo} {h k : Timer} (other : h ≠ k)
    (last now msecs : Word) :
    Timed.due last (⟨msecs + (now - last), h⟩ :: ⟨first.time - msecs, first.h⟩ :: rest) k =
      (Timed.due last (first :: rest) k).map (· + (now - last)) := by
  have sum : last + (msecs + (now - last)) + (first.time - msecs) = last + (now - last) + first.time := by
    have whole := word_add_sub_cancel msecs first.time
    calc
      _ = last + (now - last) + (msecs + (first.time - msecs)) := by ac_rfl
      _ = _ := by rw [whole]
  rw [Timed.due_cons_ne other, ← Timed.due_later]
  unfold Timed.due
  dsimp only
  rw [sum]

/-- Exactly when a new timer is due `msecs` from now and all the others when they were. -/
theorem sysTimeout_due_iff (s : Timeouts) (now msecs : Word) (h : Timer)
    (room : s.next.length < mempNumSysTimeout) (fresh : h ∉ Timed.names s.next) :
    ((s.sysTimeout now msecs h).due h = some (now + msecs) ∧
      ∀ k, k ≠ h → (s.sysTimeout now msecs h).due k = s.due k) ↔ s.Timely now msecs := by
  obtain ⟨next, last, tcpTimer⟩ := s
  have full : ¬ mempNumSysTimeout ≤ next.length := Nat.not_le.mpr room
  have target : last + (msecs + (now - last)) = now + msecs := by
    calc
      _ = last + (now - last) + msecs := by ac_rfl
      _ = _ := by rw [word_add_sub_cancel]
  unfold Timely due sysTimeout
  dsimp only at fresh ⊢
  rw [if_neg full]
  cases next with
  | nil =>
      refine ⟨fun _ => trivial, fun _ => ⟨Timed.due_self _ _ _ _, fun k other => ?_⟩⟩
      exact Timed.due_cons_ne (Ne.symm other)
  | cons first rest =>
      dsimp only
      rw [Timed.names_cons, List.mem_cons, not_or] at fresh
      by_cases front : msecs < first.time
      · rw [if_pos front, if_pos front]
        dsimp only
        constructor
        · rintro ⟨-, others⟩
          have shifted := others first.h (Ne.symm fresh.1)
          rw [due_front fresh.1, Timed.due, if_pos rfl, Option.map_some, Option.some.injEq] at shifted
          bv_omega
        · rintro rfl
          refine ⟨?_, fun k other => ?_⟩
          · rw [Timed.due_self, target]
          · rw [due_front (Ne.symm other), BitVec.sub_self]
            simp only [BitVec.add_zero, Option.map_id']
      · rw [if_neg front, if_neg front, ← insertAfter_new_iff first.time msecs rest fresh.2 (last + first.time)]
        have sum : last + first.time + (msecs + (now - last) - first.time) = now + msecs := by
          rw [BitVec.add_assoc, word_add_sub_cancel, target]
        dsimp only
        rw [Timed.due_cons_ne (Ne.symm fresh.1), sum]
        refine ⟨fun both => both.1, fun new => ⟨new, fun k other => ?_⟩⟩
        unfold Timed.due
        rw [insertAfter_due _ _ (Ne.symm other)]

/-- The clock is back at zero: the next call of TCP's timer is not due 250 ms later. -/
theorem sysTimeout_due_iff_wrapped :
    let s : Timeouts := ⟨[⟨250, .dhcpFine⟩, ⟨500, .ipReass⟩, ⟨0, .etharp⟩, ⟨49000, .dhcpCoarse⟩],
      10250, true⟩
    ¬ ((s.sysTimeout 0 250 .tcp).due .tcp = some 250 ∧
      ∀ k, k ≠ .tcp → (s.sysTimeout 0 250 .tcp).due k = s.due k) := by
  intro s right
  have timely := (sysTimeout_due_iff s 0 250 .tcp (by decide) (by decide)).mp right
  exact absurd (timely 4294907546 (by decide)) (by decide)

/-- The time from one end of a queue to the other. -/
def span : List SysTimeo → Nat
  | [] => 0
  | t :: rest => t.time.toNat + span rest

/-- By the log `b` has not been called before `a`, and it will not be. -/
structure Ordered (a b : Timer) (s : Timeouts) (log : List Timer) : Prop where
  past : ∀ pre post, log = pre ++ b :: post → a ∈ pre
  future : a ∈ log ∨ [a, b].Sublist (Timed.names s.next)

theorem handle_sublist (room : s.next.length < mempNumSysTimeout) (t : Timer) (call : Handled) :
    (Timed.names s.next).Sublist (Timed.names (s.handle t call).next) := by
  unfold handle
  split
  · exact List.Sublist.refl _
  · exact (sysTimeout_joined room _ _ _).sublist

/-- One more call. -/
theorem Ordered.call {a b : Timer} {log : List Timer} (ordered : Ordered a b s log) (other : a ≠ b)
    (kept : s.Kept) {t : SysTimeo} {rest : List SysTimeo} (first : s.next = t :: rest) (last : Word)
    (call : Handled) :
    Ordered a b (({ s with next := rest, last := last } : Timeouts).handle t.h call) (log ++ [t.h]) := by
  have once := kept.nodup
  have few := kept.length_le
  rw [first] at once few
  rw [List.length_cons] at few
  have room : rest.length < mempNumSysTimeout := Nat.lt_of_le_of_lt (Nat.le_of_succ_le few) (by decide)
  refine ⟨?_, ?_⟩
  · intro pre post split
    rcases List.eq_nil_or_concat post with rfl | ⟨post, last, rfl⟩
    · -- The call is one of `b`, which is not the first while `a` waits before it.
      obtain ⟨rfl, same⟩ := List.append_inj' split rfl
      rcases ordered.future with called | waits
      · exact called
      · rw [first] at waits
        exact absurd (List.cons.inj same).1 (Timed.head_ne_of_ordered once other waits)
    · rw [List.concat_eq_append, ← List.cons_append, ← List.append_assoc] at split
      exact ordered.past pre post (List.append_inj' split rfl).1
  · by_cases same : t.h = a
    · rw [same]
      exact Or.inl (List.mem_append_right _ List.mem_cons_self)
    · rcases ordered.future with called | waits
      · exact Or.inl (List.mem_append_left _ called)
      · rw [first] at waits
        have kept := handle_sublist (s := { s with next := rest, last := last }) room t.h call
        exact Or.inr ((Timed.ordered_tail waits same).trans kept)

theorem Ordered.checkLoop {a b : Timer} (other : a ≠ b) (calls : List Handled) :
    ∀ {s : Timeouts} {log : List Timer} (diff : Word), s.Kept → Ordered a b s log →
    Ordered a b (checkLoop diff calls s).timeouts (log ++ (checkLoop diff calls s).called) := by
  induction calls with
  | nil =>
      intro s log diff _ ordered
      unfold Timeouts.checkLoop
      rw [List.append_nil]
      exact ordered
  | cons call calls ih =>
      intro s log diff kept ordered
      rcases expired : s.pop diff with - | ⟨t, popped⟩
      · rw [checkLoop_none expired, List.append_nil]
        exact ordered
      · rw [checkLoop_some expired]
        obtain ⟨rest, first, -, rfl⟩ := pop_eq_some expired
        have next := ih (diff - t.time) (kept.handled first (s.last + t.time) call)
          (ordered.call other kept first (s.last + t.time) call)
        rw [List.append_assoc] at next
        exact next

theorem Ordered.needed {a b : Timer} {log : List Timer} (ordered : Ordered a b s log) (kept : s.Kept)
    (now : Word) (pcbs : Bool) : Ordered a b (s.tcpTimerNeeded now pcbs) log := by
  unfold tcpTimerNeeded
  split
  · have room : s.next.length < mempNumSysTimeout := Nat.lt_of_le_of_lt kept.length_le (by decide)
    have joined := sysTimeout_joined (s := { s with tcpTimer := true }) room now Timer.tcp.interval .tcp
    exact ⟨ordered.past, ordered.future.imp_right fun waits => waits.trans joined.sublist⟩
  · exact ordered

/-- Whoever waits in front is called first, whatever happens. -/
theorem Ordered.run {a b : Timer} (other : a ≠ b) (events : List Event) :
    ∀ s : Timeouts × List Timer, s.1.Kept → Ordered a b s.1 s.2 →
    Ordered a b (Run.after Timeouts.step s events).1 (Run.after Timeouts.step s events).2 := by
  intro s kept ordered
  have both := Run.invariant_always
    (I := fun s : Timeouts × List Timer => s.1.Kept ∧ Ordered a b s.1 s.2)
    (fun s event holds => ⟨holds.1.step event, by
      cases event with
      | check now calls => exact holds.2.checkLoop other calls _ holds.1
      | needed now pcbs => exact holds.2.needed holds.1 now pcbs⟩) events s ⟨kept, ordered⟩
  exact both.2

section Back

variable {time now : Word} {first : SysTimeo} {rest : List SysTimeo}

end Back

end Timeouts

end OtaBoot.Lwip
