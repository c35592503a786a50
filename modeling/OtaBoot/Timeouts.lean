import OtaBoot.Lib.DeltaQueue
import OtaBoot.Lib.Run
import OtaBoot.Delay

set_option autoImplicit false

/- The timers of lwIP (`timeouts.c`), which the waits of the program run with
`sys_check_timeouts`. Their clock `sys_now` is `HAL_GetTick`. -/
namespace OtaBoot.Lwip

/-- The timers of `lwip_cyclic_timers` in this configuration. -/
inductive Timer
  | tcp
  | ipReass
  | etharp
  | dhcpCoarse
  | dhcpFine
  deriving DecidableEq

/-- `interval_ms`. -/
def Timer.interval : Timer → Word
  | .tcp => 250
  | .ipReass => 1000
  | .etharp => 1000
  | .dhcpCoarse => 60000
  | .dhcpFine => 500

abbrev SysTimeo : Type := Timed Word Timer

/-- `MEMP_NUM_SYS_TIMEOUT`. -/
abbrev mempNumSysTimeout : Nat := 10

/-- The clock `sys_now` has 32 bits. -/
abbrev clockWrap : Nat := 4294967296

/-- `next_timeout`, `timeouts_last_time` and `tcpip_tcp_timer_active`. -/
structure Timeouts where
  next : List SysTimeo
  last : Word
  tcpTimer : Bool

/-- The loop of `sys_timeout` behind a timer: `time` is counted from that one on. -/
def insertAfter (head msecs : Word) (h : Timer) : Word → List SysTimeo → List SysTimeo
  | time, [] => [⟨if msecs < time then msecs + head else time, h⟩]
  | time, t :: rest =>
    if time < t.time then ⟨time, h⟩ :: ⟨t.time - time, t.h⟩ :: rest
    else t :: insertAfter head msecs h (time - t.time) rest

namespace Timeouts

/-- `sys_timeout`. -/
def sysTimeout (s : Timeouts) (now msecs : Word) (h : Timer) : Timeouts :=
  if mempNumSysTimeout ≤ s.next.length then s
  else
    match s.next with
    | [] => { s with next := [⟨msecs, h⟩], last := now }
    | first :: rest =>
      let time := msecs + (now - s.last)
      if msecs < first.time then
        { s with next := ⟨time, h⟩ :: ⟨first.time - msecs, first.h⟩ :: rest }
      else
        { s with next := first :: insertAfter first.time msecs h (time - first.time) rest }

/-- What a call of a timer meets: the clock when it is set again, and whether TCP still has
connections. -/
structure Handled where
  now : Word
  pcbs : Bool

/-- `tcpip_tcp_timer` and `cyclic_timer`. -/
def handle (s : Timeouts) (t : Timer) (call : Handled) : Timeouts :=
  if t = .tcp ∧ call.pcbs = false then { s with tcpTimer := false }
  else s.sysTimeout call.now t.interval t

/-- The first timer, if it has expired, and what remains. -/
def pop (s : Timeouts) (diff : Word) : Option (SysTimeo × Timeouts) :=
  match s.next with
  | [] => none
  | t :: rest =>
    if t.time ≤ diff then some (t, { s with next := rest, last := s.last + t.time }) else none

/-- What a check has done; with too few calls it has not ended yet. -/
structure Checked where
  timeouts : Timeouts
  called : List Timer
  ended : Bool

/-- The loop of `sys_check_timeouts`. -/
def checkLoop : Word → List Handled → Timeouts → Checked
  | diff, [], s => ⟨s, [], (s.pop diff).isNone⟩
  | diff, call :: calls, s =>
    match s.pop diff with
    | none => ⟨s, [], true⟩
    | some (t, popped) =>
      let after := checkLoop (diff - t.time) calls (popped.handle t.h call)
      { after with called := t.h :: after.called }

/-- `sys_check_timeouts`. -/
def sysCheckTimeouts (s : Timeouts) (now : Word) (calls : List Handled) : Checked :=
  checkLoop (now - s.last) calls s

/-- `tcp_timer_needed`. -/
def tcpTimerNeeded (s : Timeouts) (now : Word) (pcbs : Bool) : Timeouts :=
  if s.tcpTimer = false ∧ pcbs = true then
    { s with tcpTimer := true }.sysTimeout now Timer.tcp.interval .tcp
  else s

/-- The timers that are started at once. -/
abbrev cyclic : List Timer := [.ipReass, .etharp, .dhcpCoarse, .dhcpFine]

/-- `sys_timeouts_init`, with the readings of the clock in it. -/
def sysTimeoutsInit (readings : Timer → Word) (now : Word) : Timeouts :=
  let started : Timeouts := cyclic.foldl
    (fun (s : Timeouts) t => s.sysTimeout (readings t) t.interval t) ⟨[], 0, false⟩
  { started with last := now }

/-- What the program does with the timers: a check in one of its waits, or a connection
that TCP registers. -/
inductive Event
  | check (now : Word) (calls : List Handled)
  | needed (now : Word) (pcbs : Bool)

/-- The timers, and which of them have been called. -/
def step (s : Timeouts × List Timer) : Event → Timeouts × List Timer
  | .check now calls =>
    ((s.1.sysCheckTimeouts now calls).timeouts, s.2 ++ (s.1.sysCheckTimeouts now calls).called)
  | .needed now pcbs => (s.1.tcpTimerNeeded now pcbs, s.2)

/-- Who should wait. -/
def expected (s : Timeouts) : List Timer := if s.tcpTimer then .tcp :: cyclic else cyclic

/-- Every timer that should wait does, once. -/
def Kept (s : Timeouts) : Prop := (Timed.names s.next).Perm s.expected

section Kept

variable {s : Timeouts}

theorem insertAfter_joined (head msecs : Word) (h : Timer) (rest : List SysTimeo) :
    ∀ time, Timed.Joined h (Timed.names rest) (Timed.names (insertAfter head msecs h time rest)) := by
  induction rest with
  | nil =>
      intro time
      exact Timed.joined_head h []
  | cons t rest ih =>
      intro time
      unfold insertAfter
      split
      · exact Timed.joined_head h _
      · exact (ih _).cons t.h

/-- While the pool has room, `sys_timeout` adds its timer and leaves the order of the
others. -/
theorem sysTimeout_joined (room : s.next.length < mempNumSysTimeout) (now msecs : Word) (h : Timer) :
    Timed.Joined h (Timed.names s.next) (Timed.names (s.sysTimeout now msecs h).next) := by
  obtain ⟨next, last, tcpTimer⟩ := s
  unfold sysTimeout
  rw [if_neg (by omega)]
  cases next with
  | nil => exact Timed.joined_head h []
  | cons first rest =>
      dsimp only
      split
      · exact Timed.joined_head h _
      · exact (insertAfter_joined _ _ _ _ _).cons first.h

theorem sysTimeout_tcpTimer (s : Timeouts) (now msecs : Word) (h : Timer) :
    (s.sysTimeout now msecs h).tcpTimer = s.tcpTimer := by
  unfold sysTimeout
  split
  · rfl
  · split
    · rfl
    · dsimp only
      split <;> rfl

theorem Kept.length_le (kept : s.Kept) : s.next.length ≤ 5 := by
  have size := kept.length_eq
  rw [Timed.length_names] at size
  rw [size]
  unfold expected
  split <;> decide

theorem Kept.nodup (kept : s.Kept) : (Timed.names s.next).Nodup := by
  rw [kept.nodup_iff]
  unfold expected
  split <;> decide

/-- Setting a timer that is not waiting. -/
theorem sysTimeout_perm (room : s.next.length < mempNumSysTimeout) (now msecs : Word) {h : Timer}
    {waiting : List Timer} (before : (Timed.names s.next).Perm waiting) :
    (Timed.names (s.sysTimeout now msecs h).next).Perm (h :: waiting) :=
  (sysTimeout_joined room now msecs h).perm.trans (before.cons h)

theorem pop_eq_some {diff : Word} {t : SysTimeo} {popped : Timeouts}
    (expired : s.pop diff = some (t, popped)) :
    ∃ rest, s.next = t :: rest ∧ t.time ≤ diff ∧
      popped = { s with next := rest, last := s.last + t.time } := by
  obtain ⟨next, last, tcpTimer⟩ := s
  unfold pop at expired
  cases next with
  | nil => cases expired
  | cons first rest =>
      dsimp only at expired
      split at expired
      · rename_i due
        obtain ⟨rfl, rfl⟩ := Prod.mk.inj (Option.some.inj expired)
        exact ⟨rest, rfl, due, rfl⟩
      · cases expired

theorem checkLoop_none {diff : Word} (ready : s.pop diff = none) (calls : List Handled) :
    checkLoop diff calls s = ⟨s, [], true⟩ := by
  cases calls <;> simp only [checkLoop, ready, Option.isNone_none]

theorem checkLoop_some {diff : Word} {t : SysTimeo} {popped : Timeouts}
    (expired : s.pop diff = some (t, popped)) (call : Handled) (calls : List Handled) :
    checkLoop diff (call :: calls) s =
      { checkLoop (diff - t.time) calls (popped.handle t.h call) with
        called := t.h :: (checkLoop (diff - t.time) calls (popped.handle t.h call)).called } := by
  simp only [checkLoop, expired]

/-- The call of a timer that was the first puts it back, or TCP needs it no more. -/
theorem Kept.handled {t : SysTimeo} {rest : List SysTimeo} (kept : s.Kept) (first : s.next = t :: rest)
    (last : Word) (call : Handled) :
    Kept (({ s with next := rest, last := last } : Timeouts).handle t.h call) := by
  have size : rest.length < mempNumSysTimeout := by
    have few := kept.length_le
    rw [first, List.length_cons] at few
    exact Nat.lt_of_le_of_lt (Nat.le_of_succ_le few) (by decide)
  have before : (t.h :: Timed.names rest).Perm s.expected := by
    rw [← Timed.names_cons, ← first]
    exact kept
  unfold handle
  split
  · rename_i stops
    have active : s.tcpTimer = true := by
      by_contra off
      have waits : Timer.tcp ∈ s.expected := before.subset (by rw [stops.1]; exact List.mem_cons_self)
      unfold expected at waits
      rw [if_neg off] at waits
      exact absurd waits (by decide)
    unfold expected at before
    rw [if_pos active, stops.1] at before
    exact before.cons_inv
  · have added := sysTimeout_perm (s := { s with next := rest, last := last }) size call.now
      t.h.interval (h := t.h) (List.Perm.refl (Timed.names rest))
    unfold Kept expected
    rw [sysTimeout_tcpTimer]
    exact added.trans before

theorem Kept.needed (kept : s.Kept) (now : Word) (pcbs : Bool) : (s.tcpTimerNeeded now pcbs).Kept := by
  unfold tcpTimerNeeded
  split
  · rename_i starts
    have size : s.next.length < mempNumSysTimeout := Nat.lt_of_le_of_lt kept.length_le (by decide)
    have idle : s.expected = cyclic := by
      unfold expected
      rw [starts.1]
      rfl
    unfold Kept at kept
    rw [idle] at kept
    unfold Kept expected
    rw [sysTimeout_tcpTimer]
    exact sysTimeout_perm (s := { s with tcpTimer := true }) size now _ kept
  · exact kept

theorem Kept.checkLoop (calls : List Handled) : ∀ {s : Timeouts} (diff : Word), s.Kept →
    (checkLoop diff calls s).timeouts.Kept := by
  induction calls with
  | nil =>
      intro s diff kept
      exact kept
  | cons call calls ih =>
      intro s diff kept
      rcases expired : s.pop diff with - | ⟨t, popped⟩
      · rw [checkLoop_none expired]
        exact kept
      · rw [checkLoop_some expired]
        obtain ⟨rest, first, -, rfl⟩ := pop_eq_some expired
        exact ih _ (kept.handled first _ call)

/-- No step loses a timer or sets one twice. -/
theorem Kept.step {s : Timeouts × List Timer} (kept : s.1.Kept) (event : Event) :
    (Timeouts.step s event).1.Kept := by
  cases event with
  | check now calls => exact Kept.checkLoop calls _ kept
  | needed now pcbs => exact kept.needed now pcbs

/-- Timers that are set one after the other. -/
theorem started_perm (readings : Timer → Word) (timers : List Timer) : ∀ s : Timeouts,
    s.next.length + timers.length ≤ mempNumSysTimeout →
    (Timed.names (timers.foldl (fun (s : Timeouts) t => s.sysTimeout (readings t) t.interval t) s).next).Perm
        (timers ++ Timed.names s.next) ∧
      (timers.foldl (fun (s : Timeouts) t => s.sysTimeout (readings t) t.interval t) s).tcpTimer =
        s.tcpTimer := by
  induction timers with
  | nil =>
      intro s _
      exact ⟨List.Perm.refl _, rfl⟩
  | cons t timers ih =>
      intro s room
      rw [List.length_cons] at room
      have added := (sysTimeout_joined (s := s) (by omega) (readings t) t.interval t).perm
      have size := added.length_eq
      rw [Timed.length_names, List.length_cons, Timed.length_names] at size
      obtain ⟨perm, flag⟩ := ih (s.sysTimeout (readings t) t.interval t) (by omega)
      refine ⟨?_, flag.trans (sysTimeout_tcpTimer s _ _ _)⟩
      have together := perm.trans (added.append_left timers)
      exact together.trans List.perm_middle

theorem init_kept (readings : Timer → Word) (now : Word) : (sysTimeoutsInit readings now).Kept := by
  obtain ⟨perm, flag⟩ := started_perm readings cyclic ⟨[], 0, false⟩ (by decide)
  unfold Kept expected sysTimeoutsInit
  dsimp only
  rw [flag]
  exact perm

theorem reachable_kept (readings : Timer → Word) (now : Word) (events : List Event) :
    (Run.after Timeouts.step (sysTimeoutsInit readings now, []) events).1.Kept :=
  Run.invariant_always (I := fun s : Timeouts × List Timer => s.1.Kept)
    (fun _ event kept => kept.step event) events _ (init_kept readings now)

/-- Whatever the clock shows and however the checks and the connections follow each other:
every timer of lwIP waits exactly once, that of TCP if it is active, and the pool of
timers never runs out. -/
theorem timers_kept (readings : Timer → Word) (now : Word) (events : List Event) :
    let s := (Run.after Timeouts.step (sysTimeoutsInit readings now, []) events).1
    (∀ t, (Timed.names s.next).count t = if t = .tcp ∧ s.tcpTimer = false then 0 else 1) ∧
      s.next.length < mempNumSysTimeout := by
  intro s
  have kept : s.Kept := reachable_kept readings now events
  refine ⟨?_, Nat.lt_of_le_of_lt kept.length_le (by decide)⟩
  intro t
  rw [kept.count_eq]
  unfold expected
  cases s.tcpTimer <;> cases t <;> rfl

end Kept

end Timeouts

end OtaBoot.Lwip
