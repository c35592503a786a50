import OtaBoot.VersionRetry

set_option autoImplicit false

namespace OtaBoot

/-- What the program has been told about the new version. -/
structure VersionCheck.SameAnswer (v w : VersionCheck) : Prop where
  ok : w.ok = v.ok
  version : w.version = v.version
  length : w.length = v.length
  crc : w.crc = v.crc

/-- How far the attempt has got. -/
structure VersionCheck.SameAttempt (v w : VersionCheck) : Prop where
  pcb : w.pcb = v.pcb
  done : w.done = v.done
  ok : w.ok = v.ok

namespace VersionNet

/-- An event of one connection does not touch an answer it has given, nor an attempt that
was started after its own. -/
def Untouched (s t : VersionNet) (id : Nat) : Prop :=
  (id ∈ s.answered → s.check.SameAnswer t.check) ∧
    (id + 1 < s.started → s.check.SameAttempt t.check)

/-- Answers are final at the event. What `tcp_new` aborts are older connections, too. -/
def Final (s : VersionNet) (event : VersionEvent) : Prop :=
  match event with
  | .start result aborted => (s.start result []).check.SameAttempt (s.start result aborted).check
  | .connected id => s.Untouched (s.step event) id
  | .data id _ => s.Untouched (s.step event) id
  | .fin id => s.Untouched (s.step event) id
  | .lost id => s.Untouched (s.step event) id

/-- No attempt is running and none has found a new version. -/
def Idle (s : VersionNet) : Prop :=
  s.check.pcb = none ∧ s.check.done = true ∧ s.check.ok = false

/-- A closed connection fails or gets data only if no attempt is running and no version was
found, it gets a FIN only if `v_done` is set, and `tcp_new` aborts none for a connection. -/
def Quiet (s : VersionNet) (event : VersionEvent) : Prop :=
  match event with
  | .start .connecting aborted => s.check.pcb = none → ∀ id ∈ aborted, ¬ s.Registered id
  | .start _ _ => True
  | .connected _ => True
  | .data id _ => s.phase id = some .closing → s.Idle
  | .fin id => s.phase id = some .closing → s.check.done = true
  | .lost id => s.phase id = some .closing → s.Idle

/-- All connections but the one in `v_pcb` are closed, and the last answer still stands. -/
structure Answering (s : VersionNet) : Prop where
  held : ∀ id p, s.phase id = some p → p ≠ .closing → s.check.pcb = some id
  last : ∀ id, s.check.pcb = some id → id + 1 = s.started
  fresh : ∀ id, s.started ≤ id → s.phase id = none
  answered : ∀ id ∈ s.answered, id + 1 = s.started ∧ s.check.ok = true ∧ s.check.pcb = none
  closed : ∀ id, s.phase id = some .closing → id + 1 = s.started →
    s.check.pcb = none ∧ s.check.done = true ∧ (s.check.ok = true → id ∈ s.answered)

theorem Answering.pcb {s : VersionNet} (answering : s.Answering) {id : Nat} (live : s.Live id) :
    s.check.pcb = some id := by
  rcases live with found | found
  · exact answering.held id _ found (by decide)
  · exact answering.held id _ found (by decide)

/-- While there is a connection in `v_pcb` there is no answer. -/
theorem Answering.unanswered {s : VersionNet} (answering : s.Answering) {id : Nat}
    (pcb : s.check.pcb = some id) : s.answered = [] := by
  apply List.eq_nil_iff_forall_not_mem.mpr
  intro other found
  have idle := (answering.answered other found).2.2
  rw [pcb] at idle
  cases idle

/-- All are closed when there is none in `v_pcb`. -/
theorem Answering.closing {s : VersionNet} (answering : s.Answering) (idle : s.check.pcb = none)
    {id : Nat} {p : Phase} (found : s.phase id = some p) : p = .closing := by
  by_contra kept
  have pcb := answering.held id p found kept
  rw [idle] at pcb
  cases pcb

theorem untouched_same {s t : VersionNet} {id : Nat} (same : t.check = s.check) :
    s.Untouched t id := by
  constructor
  · intro _
    rw [same]
    exact ⟨rfl, rfl, rfl, rfl⟩
  · intro _
    rw [same]
    exact ⟨rfl, rfl, rfl⟩

/-- The connection in `v_pcb` has no answer and no later attempt to touch. -/
theorem Answering.untouched {s : VersionNet} (answering : s.Answering) {id : Nat}
    (pcb : s.check.pcb = some id) (t : VersionNet) : s.Untouched t id := by
  constructor
  · intro found
    rw [answering.unanswered pcb] at found
    cases found
  · intro older
    have last := answering.last id pcb
    omega

theorem Answering.number {s : VersionNet} (answering : s.Answering) {id : Nat}
    (closing : s.phase id = some .closing) : id + 1 < s.started ∨ id + 1 = s.started := by
  by_contra outside
  have absent := answering.fresh id (by omega)
  rw [closing] at absent
  cases absent

theorem Answering.fail_untouched_iff {s : VersionNet} (answering : s.Answering) {id : Nat}
    (closing : s.phase id = some .closing) : s.Untouched (s.fail id) id ↔ s.Idle := by
  constructor
  · rintro ⟨answer, attempt⟩
    rcases answering.number closing with older | last
    · have same := attempt older
      exact ⟨same.pcb.symm, same.done.symm, same.ok.symm⟩
    · obtain ⟨idle, done, given⟩ := answering.closed id closing last
      refine ⟨idle, done, ?_⟩
      cases ok : s.check.ok with
      | false => rfl
      | true =>
          have same := (answer (given ok)).ok
          rw [ok] at same
          cases same
  · rintro ⟨idle, done, ok⟩
    exact ⟨fun _ => ⟨ok.symm, rfl, rfl, rfl⟩, fun _ => ⟨idle.symm, done.symm, ok.symm⟩⟩

theorem Answering.fin_untouched_iff {s : VersionNet} (answering : s.Answering) {id : Nat}
    (closing : s.phase id = some .closing) :
    s.Untouched { s with check := s.check.recvFin } id ↔ s.check.done = true := by
  constructor
  · rintro ⟨-, attempt⟩
    rcases answering.number closing with older | last
    · exact (attempt older).done.symm
    · exact (answering.closed id closing last).2.1
  · intro done
    exact ⟨fun _ => ⟨rfl, rfl, rfl, rfl⟩, fun _ => ⟨rfl, done.symm, rfl⟩⟩

theorem start_final_iff (s : VersionNet) (result : ConnectResult) (aborted : List Nat) :
    s.Final (.start result aborted) ↔ s.Quiet (.start result aborted) := by
  show (s.start result []).check.SameAttempt (s.start result aborted).check ↔ _
  unfold start
  cases pcb : s.check.pcb with
  | some id =>
      refine ⟨fun _ => ?_, fun _ => ⟨rfl, rfl, rfl⟩⟩
      cases result with
      | newFails => trivial
      | connectFails => trivial
      | connecting =>
          intro idle
          rw [pcb] at idle
          cases idle
  | none =>
      have cleared : s.Cleared aborted (aborted.foldl lose
        { s with check := s.check.clear, answered := [] }) := aborted_foldl aborted _
      show (attempt { s with check := s.check.clear, answered := [] } result).check.SameAttempt
        ((aborted.foldl lose { s with check := s.check.clear, answered := [] }).attempt
          result).check ↔ _
      generalize aborted.foldl lose { s with check := s.check.clear, answered := [] } = t at cleared
      have number : t.started = s.started := cleared.started
      have refused : t.check.ok = false := by
        rcases cleared.check with ⟨-, same⟩ | ⟨-, same⟩
        · rw [same]
          rfl
        · rw [same]
          rfl
      cases result with
      | newFails => exact ⟨fun _ => trivial, fun _ => ⟨rfl, rfl, refused⟩⟩
      | connectFails => exact ⟨fun _ => trivial, fun _ => ⟨rfl, rfl, refused⟩⟩
      | connecting =>
          constructor
          · intro same _
            rcases cleared.check with ⟨deaf, -⟩ | ⟨-, failed⟩
            · exact deaf
            · have done : t.check.done = false := same.done
              rw [failed] at done
              cases done
          · intro quiet
            rcases cleared.check with ⟨-, same⟩ | ⟨⟨id, found, registered⟩, -⟩
            · refine ⟨congrArg some number, ?_, refused⟩
              show t.check.done = false
              rw [same]
              rfl
            · exact absurd registered (quiet pcb id found)

theorem Answering.final_iff {s : VersionNet} (answering : s.Answering) (event : VersionEvent) :
    s.Final event ↔ s.Quiet event := by
  have move := s.step_move event
  cases event with
  | start result aborted => exact s.start_final_iff result aborted
  | connected id =>
      refine ⟨fun _ => trivial, fun _ => untouched_same ?_⟩
      generalize s.step (.connected id) = t at move
      cases move <;> rfl
  | data id chain =>
      show s.Untouched (s.step (.data id chain)) id ↔ (s.phase id = some .closing → s.Idle)
      generalize s.step (.data id chain) = t at move
      cases move with
      | part _ _ live | line _ _ live =>
          exact ⟨fun _ closing => absurd closing live.not_closing,
            fun _ => answering.untouched (answering.pcb live) _⟩
      | lateData _ _ closing =>
          rw [answering.fail_untouched_iff closing]
          exact ⟨fun idle _ => idle, fun idle => idle closing⟩
      | notData _ _ deaf =>
          refine ⟨fun _ closing => ?_, fun _ => untouched_same rfl⟩
          exact absurd ((s.registered_iff id).mpr (.inr closing)) deaf
  | fin id =>
      show s.Untouched (s.step (.fin id)) id ↔ (s.phase id = some .closing → s.check.done = true)
      generalize s.step (.fin id) = t at move
      cases move with
      | fin _ live =>
          exact ⟨fun _ closing => absurd closing live.not_closing,
            fun _ => answering.untouched (answering.pcb live) _⟩
      | lateFin _ closing =>
          rw [answering.fin_untouched_iff closing]
          exact ⟨fun done _ => done, fun done => done closing⟩
      | notFin _ deaf =>
          refine ⟨fun _ closing => ?_, fun _ => untouched_same rfl⟩
          exact absurd ((s.registered_iff id).mpr (.inr closing)) deaf
  | lost id =>
      show s.Untouched (s.step (.lost id)) id ↔ (s.phase id = some .closing → s.Idle)
      generalize s.step (.lost id) = t at move
      cases move with
      | failed _ registered =>
          rcases (s.registered_iff id).mp registered with live | closing
          · exact ⟨fun _ closing => absurd closing live.not_closing,
              fun _ => answering.untouched (answering.pcb live) _⟩
          · rw [answering.fail_untouched_iff closing]
            exact ⟨fun idle _ => idle, fun idle => idle closing⟩
      | refused _ connecting =>
          refine ⟨fun _ closing => ?_, fun _ => untouched_same rfl⟩
          exact absurd (connecting.symm.trans closing) (by decide)
      | notLost _ absent =>
          refine ⟨fun _ closing => ?_, fun _ => untouched_same rfl⟩
          exact absurd (absent.symm.trans closing) (by decide)

/-- Connections that are gone, and the bytes of a response, do not matter. -/
theorem Answering.shrink {s t : VersionNet} (answering : s.Answering)
    (attempt : s.check.SameAttempt t.check) (started : t.started = s.started)
    (answered : t.answered = s.answered) (phase : ∀ id, t.phase id = s.phase id ∨ t.phase id = none) :
    t.Answering := by
  have still : ∀ id p, t.phase id = some p → s.phase id = some p := by
    intro id p found
    rcases phase id with same | gone
    · rw [← same, found]
    · rw [gone] at found
      cases found
  constructor
  · intro id p found kept
    rw [attempt.pcb]
    exact answering.held id p (still id p found) kept
  · intro id pcb
    rw [started]
    exact answering.last id (attempt.pcb ▸ pcb)
  · intro id outside
    rcases phase id with same | gone
    · rw [same]
      exact answering.fresh id (started ▸ outside)
    · exact gone
  · intro id found
    rw [started, attempt.ok, attempt.pcb]
    exact answering.answered id (answered ▸ found)
  · intro id closing last
    rw [attempt.pcb, attempt.done, attempt.ok, answered]
    exact answering.closed id (still id _ closing) (started ▸ last)

/-- The connection in `v_pcb` gets on. -/
theorem Answering.advance {s t : VersionNet} (answering : s.Answering) {id : Nat} {p : Phase}
    (pcb : s.check.pcb = some id) (same : t.check.pcb = some id) (started : t.started = s.started)
    (answered : t.answered = s.answered) (own : t.phase id = some p) (kept : p ≠ .closing)
    (others : ∀ other, other ≠ id → t.phase other = s.phase other) : t.Answering := by
  have last := answering.last id pcb
  constructor
  · intro other q found going
    by_cases again : other = id
    · rw [again]
      exact same
    · rw [others other again] at found
      rw [same, ← pcb]
      exact answering.held other q found going
  · intro other found
    rw [same] at found
    cases found
    rw [started]
    exact last
  · intro other outside
    rw [started] at outside
    rw [others other (by omega)]
    exact answering.fresh other outside
  · intro other found
    rw [answered, answering.unanswered pcb] at found
    cases found
  · intro other closing newest
    rw [started] at newest
    obtain rfl : other = id := by omega
    rw [own] at closing
    cases closing
    exact absurd rfl kept

/-- Nothing but closed connections is left when `v_pcb` is dropped. -/
theorem Answering.release {s t : VersionNet} (answering : s.Answering) {id : Nat}
    (pcb : s.check.pcb = some id) (idle : t.check.pcb = none) (started : t.started = s.started)
    (others : ∀ other, other ≠ id → t.phase other = s.phase other)
    (own : t.phase id = none ∧ t.answered = [] ∨
      t.phase id = some .closing ∧ t.check.done = true ∧
        t.answered = if t.check.ok then [id] else []) : t.Answering := by
  have last := answering.last id pcb
  have closing : ∀ other p, t.phase other = some p → p = .closing := by
    intro other p found
    by_cases same : other = id
    · subst same
      rcases own with ⟨gone, -⟩ | ⟨closing, -⟩
      · rw [gone] at found
        cases found
      · rw [closing] at found
        cases found
        rfl
    · rw [others other same] at found
      by_contra kept
      have wrong := answering.held other p found kept
      rw [pcb] at wrong
      cases wrong
      exact same rfl
  constructor
  · intro other p found kept
    exact absurd (closing other p found) kept
  · intro other wrong
    rw [idle] at wrong
    cases wrong
  · intro other outside
    rw [started] at outside
    rw [others other (by omega)]
    exact answering.fresh other outside
  · intro other found
    rcases own with ⟨-, none⟩ | ⟨-, -, answered⟩
    · rw [none] at found
      cases found
    · rw [answered] at found
      cases ok : t.check.ok with
      | false =>
          rw [ok] at found
          cases found
      | true =>
          rw [ok] at found
          obtain rfl := List.mem_singleton.mp found
          exact ⟨by rw [started]; exact last, rfl, idle⟩
  · intro other closing newest
    rw [started] at newest
    obtain rfl : other = id := by omega
    rcases own with ⟨gone, -⟩ | ⟨-, done, answered⟩
    · rw [gone] at closing
      cases closing
    · refine ⟨idle, done, ?_⟩
      intro ok
      rw [answered, ok]
      exact List.mem_singleton.mpr rfl

/-- When the aborts before a new attempt are done, only closing connections are left, none
of them with the number of the attempt, and nobody has answered. -/
theorem Answering.cleared {s t : VersionNet} (answering : s.Answering)
    (idle : s.check.pcb = none) {aborted : List Nat} (cleared : s.Cleared aborted t) :
    (∀ id p, t.phase id = some p → p = .closing) ∧ (∀ id, t.started ≤ id → t.phase id = none) ∧
      ∀ id, id ∉ t.answered := by
  have number : t.started = s.started := cleared.started
  have nobody : t.answered = [] := cleared.answered
  refine ⟨?_, ?_, ?_⟩
  · intro id p found
    rcases cleared.phase id with same | gone
    · exact answering.closing idle (same.symm.trans found)
    · rw [gone] at found
      cases found
  · intro id outside
    rcases cleared.phase id with same | gone
    · rw [same]
      exact answering.fresh id (number ▸ outside)
    · exact gone
  · intro id
    rw [nobody]
    exact List.not_mem_nil

theorem Answering.attempt {s t : VersionNet} (answering : s.Answering)
    (idle : s.check.pcb = none) (aborted : List Nat) (cleared : s.Cleared aborted t)
    (result : ConnectResult) : (t.attempt result).Answering := by
  obtain ⟨closing, fresh, nobody⟩ := answering.cleared idle cleared
  have failing : ({ t with
      check := { t.check with pcb := none, done := true }
      started := t.started + 1 } : VersionNet).Answering := by
    constructor
    · intro id p found kept
      exact absurd (closing id p found) kept
    · intro id wrong
      cases wrong
    · intro id outside
      change t.started + 1 ≤ id at outside
      exact fresh id (by omega)
    · intro id found
      exact absurd found (nobody id)
    · intro id found newest
      change id + 1 = t.started + 1 at newest
      have absent := fresh id (by omega)
      exact absurd (absent.symm.trans found) (by decide)
  cases result with
  | newFails => exact failing
  | connectFails => exact failing
  | connecting =>
      have own := t.setPhase_same t.started (some .connecting)
      have others : ∀ id, id ≠ t.started → (t.attempt .connecting).phase id = t.phase id :=
        fun id different => t.setPhase_other _ different
      constructor
      · intro id p found kept
        by_cases same : id = t.started
        · rw [same]
          rfl
        · rw [others id same] at found
          exact absurd (closing id p found) kept
      · intro id pcb
        cases pcb
        rfl
      · intro id outside
        change t.started + 1 ≤ id at outside
        rw [others id (by omega)]
        exact fresh id (by omega)
      · intro id found
        exact absurd found (nobody id)
      · intro id found newest
        change id + 1 = t.started + 1 at newest
        obtain rfl : id = t.started := by omega
        exact absurd (own.symm.trans found) (by decide)

theorem Idle.errCb {s : VersionNet} (idle : s.Idle) : s.check.SameAttempt s.check.errCb :=
  ⟨idle.1.symm, idle.2.1.symm, idle.2.2.symm⟩

theorem Answering.step {s : VersionNet} (answering : s.Answering) (event : VersionEvent)
    (quiet : s.Quiet event) : (s.step event).Answering := by
  have move := s.step_move event
  generalize s.step event = t at move
  have shrinks : ∀ id other, (s.setPhase id none).phase other = s.phase other ∨
      (s.setPhase id none).phase other = none := by
    intro id other
    by_cases same : other = id
    · exact .inr (same ▸ s.setPhase_same id none)
    · exact .inl (s.setPhase_other none same)
  cases move with
  | held | notConnected | notData | notFin | notLost => exact answering
  | started idle result aborted t cleared => exact answering.attempt idle aborted cleared result
  | connected id found =>
      have pcb := answering.held id _ found (by decide)
      exact answering.advance pcb pcb rfl rfl (s.setPhase_same id _) (by decide)
        fun other different => s.setPhase_other _ different
  | part id chain live more =>
      obtain ⟨resp, same⟩ := VersionCheck.recvData_part more
      rw [same]
      exact answering.shrink ⟨rfl, rfl, rfl⟩ rfl rfl fun _ => .inl rfl
  | line id chain live whole =>
      have pcb := answering.pcb live
      obtain ⟨idle, done⟩ := VersionCheck.recvData_line whole
      refine answering.release pcb idle rfl (fun other different => s.setPhase_other _ different)
        (.inr ⟨s.setPhase_same id _, done, ?_⟩)
      rw [answering.unanswered pcb]
  | lateData id chain closing =>
      exact answering.shrink (quiet closing).errCb rfl rfl (shrinks id)
  | failed id registered =>
      rcases (s.registered_iff id).mp registered with live | closing
      · have pcb := answering.pcb live
        exact answering.release pcb rfl rfl (fun other different => s.setPhase_other _ different)
          (.inl ⟨s.setPhase_same id _, answering.unanswered pcb⟩)
      · exact answering.shrink (quiet closing).errCb rfl rfl (shrinks id)
  | fin id live =>
      have pcb := answering.pcb live
      exact answering.advance pcb pcb rfl rfl (s.setPhase_same id _) (by decide)
        fun other different => s.setPhase_other _ different
  | lateFin id closing =>
      have done : s.check.done = true := quiet closing
      exact answering.shrink ⟨rfl, done.symm, rfl⟩ rfl rfl fun _ => .inl rfl
  | refused id connecting => exact answering.shrink ⟨rfl, rfl, rfl⟩ rfl rfl (shrinks id)

theorem initial_answering : initial.Answering where
  held := by intro id p found; cases found
  last := by intro id pcb; cases pcb
  fresh := by intro id _; rfl
  answered := by intro id found; cases found
  closed := by intro id found; cases found

/-- Answers are final exactly as long as closed connections stay quiet. -/
theorem final_run_iff (events : List VersionEvent) :
    Run.Along VersionNet.step Final initial events ↔
      Run.Along VersionNet.step Quiet initial events :=
  Run.along_congr (fun _ event answering quiet => answering.step event quiet)
    (fun _ event answering => answering.final_iff event) events initial initial_answering

/-- `RESP|1.2.3|8|FF` and a line feed. -/
def sampleLine : List Byte :=
  [0x52, 0x45, 0x53, 0x50, 0x7C, 0x31, 0x2E, 0x32, 0x2E, 0x33, 0x7C, 0x38, 0x7C, 0x46, 0x46, 0x0A]

/-- The server resets the connection after its answer: the offer is lost. It closes it
late: the next attempt ends before it has an answer. -/
theorem late_events_touch :
    let answer : List VersionEvent := [.start .connecting [], .connected 0,
      .data 0 [⟨sampleLine, by decide⟩]]
    let next : List VersionEvent := answer ++ [.start .connecting []]
    let s := Run.after VersionNet.step initial answer
    let t := Run.after VersionNet.step initial next
    s.check.get = ([0x31, 0x2E, 0x32, 0x2E, 0x33], 8, 0xFF) ∧
      s.check.ok = true ∧ (s.step (.lost 0)).check.ok = false ∧
      t.check.done = false ∧ (t.step (.fin 0)).check.done = true ∧
      ¬ Run.Along VersionNet.step Final initial (answer ++ [.lost 0]) ∧
      ¬ Run.Along VersionNet.step Final initial (next ++ [.fin 0]) := by
  intro answer next s t
  have given : s.check.ok = true := by decide
  have lost : (s.step (.lost 0)).check.ok = false := by decide
  have running : t.check.done = false := by decide
  have ended : (t.step (.fin 0)).check.done = true := by decide
  refine ⟨by decide, given, lost, running, ended, ?_, ?_⟩
  · intro along
    obtain ⟨-, last, -⟩ := (Run.along_append _ _ answer _).mp along
    have same := (last.1 (by decide)).ok
    rw [lost, given] at same
    cases same
  · intro along
    obtain ⟨-, last, -⟩ := (Run.along_append _ _ next _).mp along
    have same := (last.2 (by decide)).done
    rw [ended, running] at same
    cases same

end VersionNet

end OtaBoot
