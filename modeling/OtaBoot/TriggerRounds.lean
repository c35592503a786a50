import OtaBoot.Connections
import OtaBoot.Reception

set_option autoImplicit false

namespace OtaBoot

namespace Connections

/-- The wait of one round: each pass processes a burst of input and then looks at
`ota_client_pcb`. -/
def triggerRound : Connections → List (List NetEvent) → Connections × Bool
  | s, [] => (s, false)
  | s, burst :: rest =>
    let t := Run.after net s burst
    if t.client.isSome then (t, true) else triggerRound t rest

def triggerRounds : Connections → List (List (List NetEvent)) → Connections × Bool
  | s, [] => (s, false)
  | s, passes :: rest =>
    match triggerRound s passes with
    | (t, true) => (t, true)
    | (t, false) => triggerRounds t rest

/-- `Firmware_Update` from the answer to its prompt on, with the passes of its three
rounds; the number is the return value. -/
def firmwareUpdate (s : Connections) (first second third : List (List NetEvent)) :
    Connections × Nat :=
  match triggerRounds (s.start .listening) [first, second, third] with
  | (t, true) => (t, 0)
  | (t, false) => ({ t.stop with ota := t.stop.ota.resetState }, 1)

/-- The events that are processed before a pass finds a client. -/
def seen : Connections → List (List NetEvent) → List NetEvent
  | _, [] => []
  | s, burst :: rest =>
    let t := Run.after net s burst
    if t.client.isSome then burst else burst ++ seen t rest

/-- The events of the three rounds that are processed. -/
def roundsSeen (s : Connections) (first second third : List (List NetEvent)) : List NetEvent :=
  seen (s.start .listening) [first, second, third].flatten

theorem triggerRound_append (front : List (List NetEvent)) : ∀ (s : Connections) back,
    triggerRound s (front ++ back) =
      match triggerRound s front with
      | (t, true) => (t, true)
      | (t, false) => triggerRound t back := by
  induction front with
  | nil =>
      intro s back
      rfl
  | cons burst rest ih =>
      intro s back
      simp only [List.cons_append, triggerRound]
      split
      · rfl
      · exact ih _ back

/-- The rounds only cut the sequence of passes. -/
theorem triggerRounds_flatten (rounds : List (List (List NetEvent))) : ∀ s : Connections,
    triggerRounds s rounds = triggerRound s rounds.flatten := by
  induction rounds with
  | nil =>
      intro s
      rfl
  | cons passes rest ih =>
      intro s
      rw [List.flatten_cons, triggerRound_append, triggerRounds]
      generalize triggerRound s passes = result
      obtain ⟨t, found⟩ := result
      cases found with
      | true => rfl
      | false => exact ih t

/-- The loop stops in the state after the events it has processed, and it has found a
client exactly if there is one then. -/
theorem triggerRound_seen (passes : List (List NetEvent)) : ∀ s : Connections, s.client = none →
    triggerRound s passes =
      (Run.after net s (seen s passes), (Run.after net s (seen s passes)).client.isSome) := by
  induction passes with
  | nil =>
      intro s none
      simp only [triggerRound, seen, Run.after_nil, none, Option.isSome_none]
  | cons burst rest ih =>
      intro s none
      simp only [triggerRound, seen]
      by_cases found : (Run.after net s burst).client.isSome
      · simp only [found, ↓reduceIte]
      · have missing : (Run.after net s burst).client = Option.none := by simpa using found
        simp only [found, Bool.false_eq_true, ↓reduceIte, Run.after_append]
        exact ih _ missing

end Connections

namespace Machine

theorem step_triggerCheck {m : Machine} {round : Nat} (loc : m.loc = .trigger round)
    (elapsed : Bool) : m.step (.triggerCheck elapsed) = m.triggerCheck round elapsed := by
  simp only [step, loc]

theorem step_promptKey {m : Machine} {crc : Word} (loc : m.loc = .prompt crc) (key : Nat)
    (result : StartResult) : m.step (.updateKey key result) = m.promptKey crc key result := by
  simp only [step, updateKey, loc]

end Machine

namespace Connections

/-- A burst is a sequence of inputs of the machine. -/
theorem burst_simulated (burst : List NetEvent) : ∀ (s : Connections) (m : Machine), s.Counted →
    m.listens = true → m.ota = s.ota →
    (Run.after net s burst).Counted ∧
      ∃ inputs, Run.after Machine.step m inputs = m.onOta fun _ => (Run.after net s burst).ota := by
  induction burst with
  | nil =>
      intro s m counted _ same
      refine ⟨counted, [], ?_⟩
      show m = { m with ota := s.ota }
      rw [← same]
  | cons event rest ih =>
      intro s m counted listens same
      obtain ⟨front, first⟩ := counted.simulates m listens same event
      obtain ⟨after, back, others⟩ := ih (s.net event) (m.onOta fun _ => (s.net event).ota)
        (counted.net event) listens rfl
      refine ⟨after, front ++ back, ?_⟩
      rw [Run.after_append, first, others]
      rfl

/-- The machine looks for a client after a burst. -/
theorem Counted.looks {t : Connections} (counted : t.Counted) {m : Machine} {round : Nat}
    (loc : m.loc = .trigger round) :
    (m.onOta fun _ => t.ota).step (.triggerCheck false) =
      { m with ota := t.ota, loc := if t.client.isSome then .input else .trigger round } := by
  rw [Machine.step_triggerCheck (show (m.onOta fun _ => t.ota).loc = .trigger round from loc)]
  show (if t.ota.clientPcb then _ else _) = _
  rw [counted.pcb]
  cases t.client with
  | none =>
      show m.onOta (fun _ => t.ota) = { m with ota := t.ota, loc := .trigger round }
      rw [← loc]
      rfl
  | some id => rfl

/-- One round: after each burst the machine looks for a client. -/
theorem triggerRound_simulated (passes : List (List NetEvent)) (round : Nat) :
    ∀ (s : Connections) (m : Machine), s.Counted → m.ethInited = true →
    m.loc = .trigger round → m.ota = s.ota →
    (triggerRound s passes).1.Counted ∧
      ∃ inputs, Run.after Machine.step m inputs =
        { m with
          ota := (triggerRound s passes).1.ota
          loc := if (triggerRound s passes).2 then .input else .trigger round } := by
  induction passes with
  | nil =>
      intro s m counted _ loc same
      refine ⟨counted, [], ?_⟩
      show m = { m with ota := s.ota, loc := .trigger round }
      rw [← same, ← loc]
  | cons burst rest ih =>
      intro s m counted eth loc same
      have listens : m.listens = true := by
        unfold Machine.listens
        rw [eth, loc]
        rfl
      obtain ⟨after, inputs, run⟩ := burst_simulated burst s m counted listens same
      generalize last : Run.after net s burst = t at after run
      have look : Run.after Machine.step m (inputs ++ [.triggerCheck false]) =
          { m with ota := t.ota, loc := if t.client.isSome then .input else .trigger round } := by
        rw [Run.after_append, run]
        exact after.looks loc
      cases client : t.client with
      | some id =>
          rw [client] at look
          have found : triggerRound s (burst :: rest) = (t, true) := by
            simp only [triggerRound, last, client, Option.isSome_some, ↓reduceIte]
          rw [found]
          exact ⟨after, _, look⟩
      | none =>
          rw [client] at look
          have waits : triggerRound s (burst :: rest) = triggerRound t rest := by
            simp only [triggerRound, last, client, Option.isSome_none, Bool.false_eq_true,
              ↓reduceIte]
          obtain ⟨counted, others, run⟩ :=
            ih t { m with ota := t.ota, loc := .trigger round } after eth rfl rfl
          rw [waits]
          refine ⟨counted, (inputs ++ [.triggerCheck false]) ++ others, ?_⟩
          rw [Run.after_append, look]
          exact run

/-- The time of a round that found nobody runs out. -/
theorem Counted.elapses {t : Connections} (counted : t.Counted) (nobody : t.client = none)
    {m : Machine} {round : Nat} :
    ({ m with ota := t.ota, loc := .trigger round } : Machine).step (.triggerCheck true) =
      if round + 1 < 3 then { m with ota := t.ota, loc := .trigger (round + 1) }
      else { m with ota := t.ota.serverStop.resetState, loc := .input } := by
  have pcb : t.ota.clientPcb = false := by
    rw [counted.pcb, nobody]
    rfl
  show (if t.ota.clientPcb then _ else _) = _
  rw [pcb]
  rfl

/-- Up to three rounds: the time of each that found nobody runs out. -/
theorem triggerRounds_simulated (rounds : List (List (List NetEvent))) :
    ∀ (round : Nat) (s : Connections) (m : Machine), s.Counted → s.client = none →
    m.ethInited = true → m.loc = .trigger round → m.ota = s.ota → rounds ≠ [] →
    round + rounds.length = 3 →
    ∃ inputs, Run.after Machine.step m inputs =
      { m with
        ota := if (triggerRounds s rounds).2 then (triggerRounds s rounds).1.ota
          else (triggerRounds s rounds).1.stop.ota.resetState
        loc := .input } := by
  induction rounds with
  | nil =>
      intro round s m _ _ _ _ _ some
      exact absurd rfl some
  | cons passes rest ih =>
      intro round s m counted idle eth loc same _ three
      obtain ⟨after, inputs, run⟩ := triggerRound_simulated passes round s m counted eth loc same
      have found := triggerRound_seen passes s idle
      unfold triggerRounds
      generalize triggerRound s passes = result at after run found
      obtain ⟨t, connected⟩ := result
      cases connected with
      | true => exact ⟨inputs, run⟩
      | false =>
          obtain ⟨rfl, missing⟩ := Prod.mk.inj found
          generalize Run.after net s (seen s passes) = t at after run missing
          have nobody : t.client = none := by simpa using missing.symm
          have elapsed : Run.after Machine.step m (inputs ++ [.triggerCheck true]) =
              if round + 1 < 3 then { m with ota := t.ota, loc := .trigger (round + 1) }
              else { m with ota := t.ota.serverStop.resetState, loc := .input } := by
            rw [Run.after_append, run]
            exact after.elapses nobody
          cases rest with
          | nil =>
              have last : round = 2 := by
                simp only [List.length_cons, List.length_nil] at three
                omega
              rw [last] at elapsed
              exact ⟨_, elapsed⟩
          | cons next others =>
              have more : round + 1 < 3 := by
                simp only [List.length_cons] at three
                omega
              rw [if_pos more] at elapsed
              obtain ⟨back, rounds⟩ := ih (round + 1) t
                { m with ota := t.ota, loc := .trigger (round + 1) } after nobody eth rfl rfl
                (List.cons_ne_nil _ _) (by simp only [List.length_cons] at three ⊢; omega)
              refine ⟨(inputs ++ [.triggerCheck true]) ++ back, ?_⟩
              rw [Run.after_append, elapsed]
              exact rounds

/-- `Firmware_Update` from the prompt on is a run of the machine. -/
theorem firmwareUpdate_simulated (s : Connections) (m : Machine) (crc : Word)
    (counted : s.Counted) (eth : m.ethInited = true) (loc : m.loc = .prompt crc)
    (same : m.ota = s.ota) (first second third : List (List NetEvent)) :
    ∃ inputs, Run.after Machine.step m inputs =
      { m with
        ota := (firmwareUpdate { s with ota := { s.ota with crcExpected := crc } }
          first second third).1.ota
        loc := .input } := by
  have told : ({ s with ota := { s.ota with crcExpected := crc } } : Connections).Counted :=
    ⟨counted.pcb, counted.connected, counted.closing, counted.client, counted.known,
      counted.nodup, counted.apart, counted.senders⟩
  generalize start : ({ s with ota := { s.ota with crcExpected := crc } } : Connections) = u at told
  have ota : u.ota = { m.ota with crcExpected := crc } := by rw [← start, same]
  have yes : m.step (.updateKey 121 .listening) =
      { m with ota := (u.start .listening).ota, loc := .trigger 0 } := by
    rw [Machine.step_promptKey loc]
    unfold Machine.promptKey
    rw [← ota]
    rfl
  obtain ⟨back, run⟩ := triggerRounds_simulated [first, second, third] 0 (u.start .listening)
    { m with ota := (u.start .listening).ota, loc := .trigger 0 } (told.start .listening) rfl eth
    rfl rfl (List.cons_ne_nil _ _) rfl
  refine ⟨.updateKey 121 .listening :: back, ?_⟩
  rw [Run.after_cons, yes, run]
  unfold firmwareUpdate
  generalize triggerRounds (u.start .listening) [first, second, third] = result
  obtain ⟨t, connected⟩ := result
  cases connected <;> rfl

end Connections

/-- The callback gives up at a buffer: it does not fit, or it completes a header with a
wrong magic. -/
def Ota.Refuses : Ota → List Pbuf → Prop
  | _, [] => False
  | o, p :: rest => (o.takePbuf p.payload).2 = false ∨ (o.takePbuf p.payload).1.Refuses rest

theorem Ota.takePbuf_accepts (o : Ota) (data : List Byte) (accepts : (o.takePbuf data).2 = true) :
    (o.takePbuf data).1.state = o.state := by
  revert accepts
  unfold Ota.takePbuf
  dsimp only
  split_ifs
  · intro refused
    cases refused
  · exact fun _ => rfl
  · exact fun _ => rfl
  · intro refused
    cases refused
  · exact fun _ => rfl
  · exact fun _ => rfl

theorem Ota.recvData_accepts (chain : List Pbuf) : ∀ o : Ota, ¬ o.Refuses chain →
    (o.recvData chain).state = o.state := by
  induction chain with
  | nil =>
      intro o _
      rfl
  | cons p rest ih =>
      intro o accepts
      have kept := o.takePbuf_accepts p.payload
      unfold Ota.Refuses at accepts
      unfold Ota.recvData
      generalize o.takePbuf p.payload = result at accepts kept
      obtain ⟨next, more⟩ := result
      cases more with
      | false => exact absurd (.inl rfl) accepts
      | true => exact (ih next (fun refuses => accepts (.inr refuses))).trans (kept rfl)

theorem recvFin_aborted (o : Ota) :
    (o.recvFin false).state = if o.state = .receiving then .error else o.state := by
  unfold Ota.recvFin Ota.fail Ota.errCb
  by_cases receiving : o.state = .receiving
  · simp only [Bool.false_eq_true, ↓reduceIte, receiving, reduceCtorEq]
  · simp only [Bool.false_eq_true, ↓reduceIte, receiving]

namespace Connections

/-- A client is installed only in a session that has neither failed nor counted a byte, a
client's data is not refused and nobody else's comes in between, and no client completes
an image. -/
def Steady (s : Connections) (event : NetEvent) : Prop :=
  match event with
  | .accept => s.ota.serverPcb = true → s.client = none → s.ota.state ≠ .error ∧ s.ota.received = 0
  | .data id chain =>
    id ∈ s.live → s.client = none ∨ s.client = some id ∧ ¬ s.ota.Refuses chain
  | .fin id closed =>
    id ∈ s.live → closed = true → ¬ (s.ota.state = .receiving ∧ s.ota.expected ≠ 0 ∧
      s.ota.expected ≤ s.ota.received)
  | .err _ => True

/-- A client belongs to a session that is alive and has only its bytes. -/
structure Live (s : Connections) : Prop where
  state : s.ota.state = .receiving ∨ s.ota.state = .error
  client : ∀ id, s.client = some id → s.ota.state ≠ .error ∧ ∀ sender ∈ s.senders, sender = id
  senders : s.senders.length = s.ota.received

theorem live_of_none {t : Connections} (none : t.client = none)
    (state : t.ota.state = .receiving ∨ t.ota.state = .error)
    (senders : t.senders.length = t.ota.received) : t.Live := by
  refine ⟨state, ?_, senders⟩
  intro id client
  rw [none] at client
  cases client

theorem start_live (s : Connections) : (s.start .listening).Live :=
  live_of_none rfl (.inl rfl) rfl

theorem Live.data {s : Connections} (live : s.Live) (id : Nat) (chain : List Pbuf)
    (steady : s.client = none ∨ s.client = some id ∧ ¬ s.ota.Refuses chain) :
    (s.data id chain).Live := by
  refine ⟨?_, ?_, s.data_senders id chain live.senders⟩
  · show (s.ota.recvData chain).state = .receiving ∨ (s.ota.recvData chain).state = .error
    rcases (Ota.recvData_state chain s.ota).2 with same | failed
    · rw [same]
      exact live.state
    · exact .inr failed
  · intro other client
    have same : s.client = some other := client
    rcases steady with none | ⟨own, accepts⟩
    · rw [none] at same
      cases same
    · rw [own] at same
      cases same
      have alive := live.client id own
      refine ⟨by rw [show (s.data id chain).ota.state = s.ota.state from
        Ota.recvData_accepts chain s.ota accepts]; exact alive.1, ?_⟩
      intro sender found
      change sender ∈ (if s.ota.headerParsed = (s.ota.recvData chain).headerParsed then
        s.senders ++ List.replicate ((s.ota.recvData chain).received - s.ota.received) id
        else List.replicate (s.ota.recvData chain).received id) at found
      split at found
      · rcases List.mem_append.mp found with old | new
        · exact alive.2 sender old
        · exact List.eq_of_mem_replicate new
      · exact List.eq_of_mem_replicate found

theorem Live.accept {s : Connections} (live : s.Live)
    (steady : s.client = none → s.ota.state ≠ .error ∧ s.ota.received = 0) : s.accept.Live := by
  unfold Connections.accept
  cases client : s.client with
  | some other => exact live
  | none =>
      obtain ⟨alive, empty⟩ := steady client
      have same := s.ota.acceptCb_same
      have nobody : s.senders = [] := by
        apply List.length_eq_zero_iff.mp
        rw [live.senders, empty]
      constructor
      · show s.ota.acceptCb.state = _ ∨ s.ota.acceptCb.state = _
        rw [same.state]
        exact live.state
      · intro id _
        constructor
        · show s.ota.acceptCb.state ≠ _
          rw [same.state]
          exact alive
        · intro sender found
          change sender ∈ s.senders at found
          rw [nobody] at found
          cases found
      · show s.senders.length = s.ota.acceptCb.received
        rw [same.received]
        exact live.senders

theorem Live.fin {s : Connections} (live : s.Live) (id : Nat) (closed : Bool)
    (steady : closed = true → ¬ (s.ota.state = .receiving ∧ s.ota.expected ≠ 0 ∧
      s.ota.expected ≤ s.ota.received)) : (s.fin id closed).Live := by
  obtain ⟨-, -, -, received⟩ := Ota.recvFin_counts closed s.ota
  refine live_of_none rfl ?_ (live.senders.trans received.symm)
  show (s.ota.recvFin closed).state = _ ∨ (s.ota.recvFin closed).state = _
  cases closed with
  | false =>
      rw [recvFin_aborted]
      rcases live.state with receiving | failed
      · rw [if_pos receiving]
        exact .inr rfl
      · rw [if_neg (by rw [failed]; decide)]
        exact .inr failed
  | true =>
      rw [(recvFin_closed s.ota).1]
      rcases live.state with receiving | failed
      · rw [if_pos receiving, if_neg (fun complete => steady rfl ⟨receiving, complete⟩)]
        exact .inr rfl
      · rw [if_neg (by rw [failed]; decide)]
        exact .inr failed

theorem Live.err {s : Connections} (live : s.Live) (id : Nat) : (s.err id).Live := by
  have failing : ∀ closing, ((s.ota.fail closing).state = .receiving ∨
      (s.ota.fail closing).state = .error) ∧ (s.ota.fail closing).received = s.ota.received := by
    intro closing
    obtain ⟨left, held, failed⟩ := Ota.fail_eq closing s.ota
    rw [failed]
    refine ⟨?_, rfl⟩
    rcases live.state with receiving | error
    · exact .inr (if_pos receiving)
    · exact .inr ((if_neg (by rw [error]; decide)).trans error)
  unfold Connections.err
  split
  · exact live_of_none rfl (failing true).1 (live.senders.trans (failing true).2.symm)
  · exact live_of_none rfl (failing false).1 (live.senders.trans (failing false).2.symm)

theorem Live.net {s : Connections} (live : s.Live) (event : NetEvent) (steady : s.Steady event) :
    (s.net event).Live := by
  cases event with
  | accept =>
      simp only [Connections.net]
      split
      · rename_i listening
        exact live.accept (steady listening)
      · exact live
  | data id chain =>
      simp only [Connections.net]
      split
      · rename_i found
        exact live.data id chain (steady found)
      · exact live
  | fin id closed =>
      simp only [Connections.net]
      split
      · rename_i found
        exact live.fin id closed (steady found)
      · exact live
  | err id =>
      simp only [Connections.net]
      split
      · exact live.err id
      · exact live

/-- What entering receive mode, or giving up, has to mean. `events` are those processed
since `OTA_Server_Start`. -/
structure ReceiveMode (s : Connections) (events : List NetEvent) (result : Connections × Nat) :
    Prop where
  entered : result.2 = 0 → result.1.ota.state ≠ .error ∧
    result.1.senders.length = result.1.ota.received ∧
    ∀ sender ∈ result.1.senders, result.1.client = some sender
  aborted : result.2 = 1 →
    Run.Within net (fun t => t.ota.state ≠ .verify) (s.start .listening) events

theorem firmwareUpdate_eq (s : Connections) (first second third : List (List NetEvent)) :
    firmwareUpdate s first second third =
      let t := Run.after net (s.start .listening) (roundsSeen s first second third)
      if t.client.isSome then (t, 0) else ({ t.stop with ota := t.stop.ota.resetState }, 1) := by
  unfold firmwareUpdate roundsSeen
  rw [triggerRounds_flatten, triggerRound_seen _ _ rfl]
  dsimp only
  cases (Run.after net (s.start .listening)
    (seen (s.start .listening) [first, second, third].flatten)).client <;> rfl

/-- If every event that is processed is steady, a returned 0 means a session that is alive
and has only the client's bytes, and a returned 1 that no image was complete. -/
theorem receiveMode_steady (s : Connections) (first second third : List (List NetEvent))
    (steady : Run.Along net Steady (s.start .listening) (roundsSeen s first second third)) :
    ReceiveMode s (roundsSeen s first second third) (firmwareUpdate s first second third) := by
  have live := Run.invariant_after (fun t event (held : t.Live) ok => held.net event ok)
    (roundsSeen s first second third) (s.start .listening) s.start_live steady
  have notVerify : ∀ t : Connections, t.Live → t.ota.state ≠ .verify := by
    intro t held
    rcases held.state with receiving | failed
    · rw [receiving]
      decide
    · rw [failed]
      decide
  have always := Run.invariant_along (fun t event (held : t.Live) ok => held.net event ok)
    (fun t event held ok => notVerify _ (held.net event ok))
    (roundsSeen s first second third) (s.start .listening) s.start_live steady
  rw [firmwareUpdate_eq]
  dsimp only
  generalize Run.after net (s.start .listening) (roundsSeen s first second third) = t at live
  cases client : t.client with
  | none => exact ⟨by simp, fun _ => ⟨notVerify _ s.start_live, always⟩⟩
  | some id =>
      refine ⟨fun _ => ?_, by simp⟩
      obtain ⟨alive, own⟩ := live.client id client
      refine ⟨alive, live.senders, ?_⟩
      intro sender found
      show t.client = some sender
      rw [client, own sender found]

/-- One client that connects and sends the start of its header. -/
theorem receiveMode_steady_connected :
    let passes : List (List NetEvent) := [[.accept, .data 0 [⟨[0x4F, 0x54], by decide⟩]]]
    (firmwareUpdate (initial fun _ => 0) [] passes []).2 = 0 ∧
      (firmwareUpdate (initial fun _ => 0) [] passes []).1.senders = [0, 0] ∧
      ReceiveMode (initial fun _ => 0) (roundsSeen (initial fun _ => 0) [] passes [])
        (firmwareUpdate (initial fun _ => 0) [] passes []) := by
  intro passes
  refine ⟨by decide, by decide, receiveMode_steady _ _ _ _ ?_⟩
  refine ⟨fun _ _ => by decide, fun _ => .inr ⟨by decide, ?_⟩, trivial⟩
  rintro (refused | none)
  · revert refused
    decide
  · exact none

/-- A client is reset in the burst in which a second one connects: 0 is returned in ERROR.
A client sends all of an image and closes: 1 is returned after VERIFY. -/
theorem receiveMode_fails :
    let reset : List (List NetEvent) := [[.accept, .err 0, .accept]]
    let complete : List (List NetEvent) :=
      [[.accept, .data 0 [⟨[0x4F, 0x54, 0x41, 0, 1, 0, 0, 0, 0x22], by decide⟩], .fin 0 true]]
    let s := initial fun _ => 0
    (firmwareUpdate s reset [] []).2 = 0 ∧
      (firmwareUpdate s reset [] []).1.ota.state = .error ∧
      (firmwareUpdate s complete [] []).2 = 1 ∧
      (Run.after net (s.start .listening) (roundsSeen s complete [] [])).ota.state = .verify ∧
      ¬ ReceiveMode s (roundsSeen s reset [] []) (firmwareUpdate s reset [] []) ∧
      ¬ ReceiveMode s (roundsSeen s complete [] []) (firmwareUpdate s complete [] []) := by
  intro reset complete s
  have entered : (firmwareUpdate s reset [] []).2 = 0 := by decide
  have failed : (firmwareUpdate s reset [] []).1.ota.state = .error := by decide
  have aborted : (firmwareUpdate s complete [] []).2 = 1 := by decide
  have verify : (Run.after net (s.start .listening) (roundsSeen s complete [] [])).ota.state =
      .verify := by decide
  refine ⟨entered, failed, aborted, verify, ?_, ?_⟩
  · intro mode
    exact (mode.entered entered).1 failed
  · intro mode
    exact (mode.aborted aborted).last _ _ verify

end Connections

end OtaBoot
