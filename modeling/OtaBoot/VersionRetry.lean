import OtaBoot.VersionCheck
import OtaBoot.Lib.Run

set_option autoImplicit false

namespace OtaBoot

namespace VersionNet

/-- The connection of the last attempt, if it had one, has been closed by its peer, by the
program or by lwIP. -/
def LastEnded (s : VersionNet) : Prop :=
  ∀ id, id + 1 = s.started → s.phase id ≠ some .connecting ∧ s.phase id ≠ some .established

/-- `Version_Check_Start` has opened a connection and cleared its variables. -/
structure Opened (s t : VersionNet) : Prop where
  pcb : t.check.pcb = some s.started
  phase : t.phase s.started = some .connecting
  done : t.check.done = false
  ok : t.check.ok = false
  connected : t.check.connected = false
  resp : t.check.resp = []

/-- After the event a query can be started if the last one has ended, and so it could be
if the event is such a start. -/
def Retryable (s : VersionNet) (event : VersionEvent) : Prop :=
  ((s.step event).LastEnded → (s.step event).Opened ((s.step event).start .connecting [])) ∧
    match event with
    | .start .connecting _ => s.LastEnded → s.Opened (s.step event)
    | _ => True

/-- The connection in `v_pcb` neither ends while it connects nor is closed by its peer
before a complete line, and `tcp_new` aborts no connection that has an error callback. -/
def Heard (s : VersionNet) (event : VersionEvent) : Prop :=
  match event with
  | .lost id => s.check.pcb = some id → s.phase id ≠ some .connecting
  | .fin id => s.check.pcb = some id → s.phase id ≠ some .established
  | .start .connecting aborted => s.LastEnded → ∀ id ∈ aborted, ¬ s.Registered id
  | _ => True

/-- `v_pcb` is a connection that has not ended. -/
def Ready (s : VersionNet) : Prop :=
  ∀ id, s.check.pcb = some id →
    id + 1 = s.started ∧ (s.phase id = some .connecting ∨ s.phase id = some .established)

theorem Ready.idle {s : VersionNet} (ready : s.Ready) (ended : s.LastEnded) :
    s.check.pcb = none := by
  cases pcb : s.check.pcb with
  | none => rfl
  | some id =>
      obtain ⟨last, alive⟩ := ready id pcb
      obtain ⟨notConnecting, notEstablished⟩ := ended id last
      exact absurd alive (not_or.mpr ⟨notConnecting, notEstablished⟩)

theorem ready_of_idle {s : VersionNet} (idle : s.check.pcb = none) : s.Ready := by
  intro id pcb
  rw [idle] at pcb
  cases pcb

/-- A connection that has ended and is still in `v_pcb` is not replaced. -/
theorem stuck (s : VersionNet) (id : Nat) (pcb : s.check.pcb = some id)
    (last : id + 1 = s.started)
    (ended : s.phase id ≠ some .connecting ∧ s.phase id ≠ some .established) :
    ¬ (s.LastEnded → s.Opened (s.start .connecting [])) := by
  intro opens
  have same : s.start .connecting [] = s := by
    unfold start
    rw [pcb]
    rfl
  have finished : s.LastEnded := by
    intro other lastOther
    have : other = id := by omega
    exact this ▸ ended
  have wrong := (opens finished).pcb
  rw [same, pcb] at wrong
  cases wrong
  omega

theorem cleared_opened {s t : VersionNet} {aborted : List Nat} (cleared : s.Cleared aborted t) :
    s.Opened (t.attempt .connecting) ↔ ∀ id ∈ aborted, ¬ s.Registered id := by
  have number : t.started = s.started := cleared.started
  constructor
  · intro opened
    rcases cleared.check with ⟨deaf, -⟩ | ⟨-, failed⟩
    · exact deaf
    · have done := opened.done
      change t.check.done = false at done
      rw [failed] at done
      cases done
  · intro deaf
    rcases cleared.check with ⟨-, same⟩ | ⟨⟨id, found, registered⟩, -⟩
    · have check : (t.attempt .connecting).check = { s.check.clear with pcb := some s.started } := by
        show { t.check with pcb := some t.started } = _
        rw [same, number]
      refine ⟨by rw [check], ?_, by rw [check]; rfl, by rw [check]; rfl, by rw [check]; rfl,
        by rw [check]; rfl⟩
      rw [← number]
      exact t.setPhase_same t.started _
    · exact absurd registered (deaf id found)

theorem start_opened_iff {s : VersionNet} (idle : s.check.pcb = none) (aborted : List Nat) :
    s.Opened (s.start .connecting aborted) ↔ ∀ id ∈ aborted, ¬ s.Registered id := by
  have cleared : s.Cleared aborted (aborted.foldl lose
    { s with check := s.check.clear, answered := [] }) := aborted_foldl aborted _
  rw [← cleared_opened cleared]
  unfold start
  rw [idle]
  rfl

theorem Ready.opens {s : VersionNet} (ready : s.Ready) :
    s.LastEnded → s.Opened (s.start .connecting []) := by
  intro ended
  apply (start_opened_iff (ready.idle ended) []).mpr
  intro id none
  cases none

theorem Ready.setPhase {s : VersionNet} (ready : s.Ready) {id : Nat} (phase : Option Phase)
    (other : s.check.pcb ≠ some id) : (s.setPhase id phase).Ready := by
  intro held pcb
  obtain ⟨last, alive⟩ := ready held pcb
  have different : held ≠ id := by
    intro same
    exact other (same ▸ pcb)
  rw [s.setPhase_other phase different]
  exact ⟨last, alive⟩

theorem Ready.step {s : VersionNet} (ready : s.Ready) (event : VersionEvent)
    (heard : s.Heard event) : (s.step event).Ready := by
  have move := s.step_move event
  generalize s.step event = t at move
  cases move with
  | held | notConnected | notData | notFin | notLost => exact ready
  | started idle result aborted t cleared =>
      cases result with
      | newFails | connectFails => exact ready_of_idle rfl
      | connecting =>
          intro id pcb
          cases pcb
          exact ⟨rfl, .inl (t.setPhase_same t.started _)⟩
  | connected id found =>
      intro held pcb
      obtain ⟨last, alive⟩ := ready held pcb
      refine ⟨last, ?_⟩
      by_cases same : held = id
      · exact .inr (same ▸ s.setPhase_same id _)
      · rw [s.setPhase_other _ same]
        exact alive
  | part id chain live more =>
      obtain ⟨resp, same⟩ := VersionCheck.recvData_part more
      rw [same]
      exact ready
  | line id chain live whole => exact ready_of_idle (VersionCheck.recvData_line whole).1
  | lateData id chain closing => exact ready_of_idle rfl
  | failed id registered => exact ready_of_idle rfl
  | fin id live =>
      have other : s.check.pcb ≠ some id := by
        intro pcb
        rcases (ready id pcb).2 with connecting | established
        · rcases live with found | found <;> exact absurd (connecting.symm.trans found) (by decide)
        · exact heard pcb established
      exact ready.setPhase _ other
  | lateFin id closing => exact ready
  | refused id connecting => exact ready.setPhase _ (fun pcb => heard pcb connecting)

theorem Ready.retryable_iff {s : VersionNet} (ready : s.Ready) (event : VersionEvent) :
    s.Retryable event ↔ s.Heard event := by
  constructor
  · rintro ⟨next, started⟩
    cases event with
    | connected id => trivial
    | data id chain => trivial
    | start result aborted =>
        cases result with
        | newFails => trivial
        | connectFails => trivial
        | connecting =>
            intro ended
            exact (start_opened_iff (ready.idle ended) aborted).mp (started ended)
    | fin id =>
        intro pcb established
        have closed : s.step (.fin id) =
            { s.setPhase id (some .peerClosed) with check := s.check.recvFin } := by
          simp only [VersionNet.step, fin, established]
        have phase : (s.step (.fin id)).phase id = some .peerClosed := by
          rw [closed]
          exact s.setPhase_same id _
        refine stuck (s.step (.fin id)) id (by rw [closed]; exact pcb)
          (by rw [closed]; exact (ready id pcb).1) ?_ next
        rw [phase]
        decide
    | lost id =>
        intro pcb connecting
        have gone : s.step (.lost id) = s.setPhase id none := by
          simp only [VersionNet.step, lose, connecting]
        have phase : (s.step (.lost id)).phase id = none := by
          rw [gone]
          exact s.setPhase_same id _
        refine stuck (s.step (.lost id)) id (by rw [gone]; exact pcb)
          (by rw [gone]; exact (ready id pcb).1) ?_ next
        rw [phase]
        decide
  · intro heard
    refine ⟨(ready.step event heard).opens, ?_⟩
    cases event with
    | start result aborted =>
        cases result with
        | newFails => trivial
        | connectFails => trivial
        | connecting =>
            intro ended
            exact (start_opened_iff (ready.idle ended) aborted).mpr (heard ended)
    | connected id => trivial
    | data id chain => trivial
    | fin id => trivial
    | lost id => trivial

/-- A query can be retried exactly as long as every end of its connection is heard of. -/
theorem retryable_run_iff (events : List VersionEvent) :
    Run.Along VersionNet.step Retryable initial events ↔
      Run.Along VersionNet.step Heard initial events :=
  Run.along_congr (fun _ event ready heard => ready.step event heard)
    (fun _ event ready => ready.retryable_iff event) events initial (ready_of_idle rfl)

/-- The server refuses the connection, or closes it without a line: the next start does
nothing. -/
theorem retry_fails :
    let refused : List VersionEvent := [.start .connecting [], .lost 0]
    let closed : List VersionEvent := [.start .connecting [], .connected 0, .fin 0]
    let s := Run.after VersionNet.step initial refused
    let t := Run.after VersionNet.step initial closed
    s.phase 0 = none ∧ s.step (.start .connecting []) = s ∧
      t.phase 0 = some .peerClosed ∧ t.step (.start .connecting []) = t ∧
      ¬ Run.Along VersionNet.step Retryable initial refused ∧
      ¬ Run.Along VersionNet.step Retryable initial closed := by
  intro refused closed s t
  refine ⟨rfl, rfl, rfl, rfl, ?_, ?_⟩
  · rintro ⟨-, ⟨next, -⟩, -⟩
    refine stuck s 0 rfl rfl ?_ next
    decide
  · rintro ⟨-, -, ⟨next, -⟩, -⟩
    refine stuck t 0 rfl rfl ?_ next
    decide

end VersionNet

end OtaBoot
