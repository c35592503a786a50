import OtaBoot.MainLoop
import OtaBoot.TriggerRounds

set_option autoImplicit false

namespace OtaBoot

/-- `Firmware_Update` waits here for the version server or for a key. -/
def Loc.inUpdate : Loc → Bool
  | .connecting | .prompt _ | .upToDate | .noServer => true
  | _ => false

/-- The identities of the connections go with four of the receiver's variables. -/
theorem Connections.Counted.withOta {s : Connections} (counted : s.Counted) {o : Ota}
    (pcb : o.clientPcb = s.ota.clientPcb) (connected : o.connected = s.ota.connected)
    (closing : o.closing = s.ota.closing) (received : o.received = s.ota.received) :
    ({ s with ota := o } : Connections).Counted :=
  ⟨pcb.trans counted.pcb, connected.trans counted.connected, closing.trans counted.closing,
    counted.client, counted.known, counted.nodup, counted.apart,
    counted.senders.trans received.symm⟩

namespace Machine

variable {s : Machine}

theorem perform_done {α : Type} {op : Op Board α} {value : α} {b : Board}
    (run : op s.board = (.done value, b)) (next : Loc) :
    s.perform op next = { s with board := b, loc := next } := by
  unfold perform
  rw [run]

theorem perform_cut {α : Type} {op : Op Board α} {b : Board} (run : op s.board = (.cut, b))
    (next : Loc) : s.perform op next = { s with board := b, loc := .off } := by
  unfold perform
  rw [run]

theorem poll_done {faults : PollFaults} {state : OtaState} {nor : Mem}
    (run : otaPoll faults s.ota s.board.nor = (.done state, nor)) :
    s.poll faults =
      { s with
        board := { s.board with nor := nor }
        ota := { s.ota with state := state }
        loc := if state = .confirm then .confirm else .menu } := by
  unfold poll
  rw [run]

theorem poll_cut {faults : PollFaults} {nor : Mem}
    (run : otaPoll faults s.ota s.board.nor = (.cut, nor)) :
    s.poll faults = { s with board := { s.board with nor := nor }, loc := .off } := by
  unfold poll
  rw [run]

theorem confirmKey_cut {key : Nat} (yes : isYes key = true) {faults : UpdateFaults} {b : Board}
    (run : otaFlashWrite faults s.update s.board = (.cut, b)) :
    s.confirmKey key faults = { s with board := b, loc := .off } := by
  unfold confirmKey
  rw [if_pos yes, run]

theorem confirmKey_done {key : Nat} (yes : isYes key = true) {faults : UpdateFaults}
    {written : Bool} {b : Board}
    (run : otaFlashWrite faults s.update s.board = (.done written, b)) :
    s.confirmKey key faults =
      if written then { s with board := b, ota := { s.ota with state := .done }, loc := .off }
      else { s with board := b }.endSession .menu := by
  unfold confirmKey
  rw [if_pos yes, run]
  cases written <;> rfl

theorem promptKey_yes {key : Nat} (yes : isYes key = true) {crc : Word} {result : StartResult}
    {o : Ota} {listening : Bool}
    (run : { s.ota with crcExpected := crc }.serverStart result = (o, listening)) :
    s.promptKey crc key result =
      if listening then { s with ota := o, loc := .trigger 0 }
      else { s with ota := o }.endSession .input := by
  unfold promptKey
  rw [if_pos yes, run]
  cases listening <;> rfl

end Machine

namespace Loop

theorem onBoard_done {α : Type} {op : Op Board α} {s : Loop} {value : α} {b : Board}
    (run : op s.board = (.done value, b)) : onBoard op s = .next value { s with board := b } := by
  unfold onBoard
  rw [run]

theorem onBoard_cut {α : Type} {op : Op Board α} {s : Loop} {b : Board}
    (run : op s.board = (.cut, b)) : onBoard op s = .stop .off { s with board := b } := by
  unfold onBoard
  rw [run]

/-- What the machine keeps of the program, while it is at a place. -/
def machine (s : Loop) (place : Loc) : Machine where
  board := s.board
  ota := s.server.ota
  version := s.numbers
  ethInited := s.ethInited
  iwdg := s.iwdg
  loc := place

/-- The machine is in the program's state, and the program in one in which it can be at
that place. -/
structure Matches (place : Loc) (s : Loop) (m : Machine) : Prop where
  same : m = s.machine place
  counted : s.server.Counted
  updating : place.inUpdate = true → s.ethInited = true
  trigger : ∀ t, place = .trigger t → s.ethInited = true ∧ s.server.client = none

/-- The simulation by the machine. -/
abbrev Simulated {α : Type} (place : Loc) (c : Control α) (next : α → Loc) : Prop :=
  Follows Machine.step Matches place c next

theorem matches_plain {s : Loop} {m : Machine} {place : Loc} (same : m = s.machine place)
    (counted : s.server.Counted) (plain : place.inUpdate = false)
    (outside : ∀ t, place ≠ .trigger t) : Matches place s m where
  same := same
  counted := counted
  updating := by rw [plain]; intro absurd; cases absurd
  trigger := fun t found => absurd found (outside t)

theorem matches_update {s : Loop} {m : Machine} {place : Loc} (same : m = s.machine place)
    (counted : s.server.Counted) (eth : s.ethInited = true)
    (outside : ∀ t, place ≠ .trigger t) : Matches place s m where
  same := same
  counted := counted
  updating := fun _ => eth
  trigger := fun t found => absurd found (outside t)

theorem deliver_eth (t : Traffic) (s : Loop) : (s.deliver t).ethInited = s.ethInited := by
  cases t <;> rfl

/-- What is delivered to the receiver is a run of the machine; the version check is not
part of it. -/
theorem deliver_run (t : Traffic) (s : Loop) (place : Loc) (counted : s.server.Counted)
    (listens : (s.machine place).listens = true) :
    (s.deliver t).server.Counted ∧
      ∃ inputs, Run.after Machine.step (s.machine place) inputs = (s.deliver t).machine place := by
  cases t with
  | server event =>
      obtain ⟨inputs, run⟩ := counted.simulates (s.machine place) listens rfl event
      exact ⟨counted.net event, inputs, run⟩
  | connected id => exact ⟨counted, [], rfl⟩
  | response id chain => exact ⟨counted, [], rfl⟩
  | responseFin id => exact ⟨counted, [], rfl⟩
  | lost id => exact ⟨counted, [], rfl⟩

theorem burst_run (place : Loc) (burst : List Traffic) : ∀ s : Loop, s.server.Counted →
    (s.machine place).listens = true →
    (burst.foldl deliver s).server.Counted ∧ (burst.foldl deliver s).ethInited = s.ethInited ∧
      ∃ inputs, Run.after Machine.step (s.machine place) inputs =
        (burst.foldl deliver s).machine place := by
  induction burst with
  | nil =>
      intro s counted _
      exact ⟨counted, rfl, [], rfl⟩
  | cons t rest ih =>
      intro s counted listens
      obtain ⟨first, front, one⟩ := deliver_run t s place counted listens
      have still : ((s.deliver t).machine place).listens = true := by
        unfold Machine.listens at listens ⊢
        rw [show ((s.deliver t).machine place).ethInited = s.ethInited from deliver_eth t s]
        exact listens
      obtain ⟨last, eth, back, others⟩ := ih (s.deliver t) first still
      refine ⟨last, eth.trans (deliver_eth t s), front ++ back, ?_⟩
      rw [Run.after_append, one, others]
      rfl

theorem inUpdate_listens {s : Loop} {place : Loc} (updating : place.inUpdate = true)
    (eth : s.ethInited = true) : (s.machine place).listens = true := by
  unfold Machine.listens
  show (s.ethInited && _) = true
  rw [eth]
  cases place <;> first | rfl | cases updating

theorem inUpdate_outside {place : Loc} (updating : place.inUpdate = true) (t : Nat) :
    place ≠ .trigger t := by
  rintro rfl
  cases updating

theorem input_simulated {place : Loc} (updating : place.inUpdate = true) (burst : List Traffic) :
    Simulated place (ethernetifInput burst) fun _ => place := by
  intro s m related
  have eth := related.updating updating
  obtain ⟨counted, kept, inputs, run⟩ :=
    burst_run place burst s related.counted (inUpdate_listens updating eth)
  refine ⟨inputs, ?_⟩
  rw [related.same, run]
  exact matches_update rfl counted (kept.trans eth) (inUpdate_outside updating)

theorem waitKey_simulated {place : Loc} (updating : place.inUpdate = true) (pass : KeyPass) :
    Simulated place (waitKey pass) fun _ => place :=
  (input_simulated updating pass.burst).bind (fun _ => place) fun _ =>
    follows_pure place pass.key rfl

theorem versionWait_simulated (t0 : Word) (passes : List WaitPass) :
    Simulated .connecting (versionWait t0 passes) fun _ => .connecting := by
  induction passes with
  | nil =>
      refine (follows_gets Loc.connecting _).bind (fun _ => .connecting) fun done => ?_
      exact Follows.ite (fun _ => follows_pure Loc.connecting () rfl)
        fun _ => follows_halt Loc.connecting _
  | cons pass rest ih =>
      refine (follows_gets Loc.connecting _).bind (fun _ => .connecting) fun done => ?_
      refine Follows.ite (fun _ => follows_pure Loc.connecting () rfl) fun _ => ?_
      refine (input_simulated rfl pass.burst).bind (fun _ => .connecting) fun _ => ?_
      exact Follows.ite (fun _ => follows_pure Loc.connecting () rfl) fun _ => ih

/-- A key that ends a wait of `Firmware_Update`. -/
theorem key_simulated {place there : Loc} {α : Type} {value : α} {next : α → Loc} (key : Nat)
    (target : next value = there) (plain : there.inUpdate = true → place.inUpdate = true)
    (outside : ∀ t, there ≠ .trigger t)
    (moves : ∀ s : Loop, (s.machine place).step (.updateKey key .listening) = s.machine there) :
    Simulated place (pure value) next := by
  apply follows_return
  intro s m related
  refine ⟨[.updateKey key .listening], ?_⟩
  rw [target, related.same]
  exact ⟨moves s, related.counted, fun updating => related.updating (plain updating),
    fun t found => absurd found (outside t)⟩

theorem upToDateLoop_simulated (keys : List KeyPass) :
    Simulated .upToDate (upToDateLoop keys) fun _ => .input := by
  induction keys with
  | nil => exact follows_halt Loc.upToDate _
  | cons pass rest ih =>
      refine (waitKey_simulated rfl pass).bind (fun _ => .upToDate) fun c => ?_
      refine Follows.ite (fun esc => ?_) fun _ => ih
      exact key_simulated c rfl (fun _ => rfl) (by simp) fun s => if_pos esc

/-- `goto retry` is back at the wait for the version server. -/
theorem noServerLoop_simulated (keys : List KeyPass) :
    Simulated .noServer (noServerLoop keys) fun retry => if retry then .connecting else .input := by
  induction keys with
  | nil => exact follows_halt Loc.noServer _
  | cons pass rest ih =>
      refine (waitKey_simulated rfl pass).bind (fun _ => .noServer) fun c => ?_
      refine Follows.ite (fun one => ?_) fun other => Follows.ite (fun two => ?_) fun _ => ih
      · exact key_simulated c rfl (fun _ => rfl) (by simp) fun s => if_pos one
      · refine key_simulated c rfl (fun _ => rfl) (by simp) fun s => ?_
        exact (if_neg other).trans (if_pos two)

/-- One window: the machine looks for a client after each pass. -/
theorem triggerRound_simulated (t : Nat) (tw0 : Word) (passes : List WaitPass) :
    Simulated (.trigger t) (triggerRound t tw0 passes)
      fun connected => if connected then .input else .trigger t := by
  induction passes with
  | nil => exact follows_halt (Loc.trigger t) _
  | cons pass rest ih =>
      refine Follows.ite (fun _ => ?_) fun _ => follows_pure (Loc.trigger t) false rfl
      intro s m related
      obtain ⟨eth, -⟩ := related.trigger t rfl
      have listens : (s.machine (.trigger t)).listens = true := by
        unfold Machine.listens
        show (s.ethInited && true) = true
        rw [eth]
        rfl
      obtain ⟨counted, kept, inputs, run⟩ := burst_run (.trigger t) pass.burst s related.counted listens
      have body : (ethernetifInput pass.burst >>= fun _ => (Prog.gets fun s : Loop =>
          s.server.client.isSome) >>= fun found =>
            if found then pure true else triggerRound t tw0 rest : Control Bool) s =
          (if (pass.burst.foldl deliver s).server.client.isSome then pure true
            else triggerRound t tw0 rest : Control Bool) (pass.burst.foldl deliver s) := rfl
      rw [related.same, body]
      generalize pass.burst.foldl deliver s = u at counted kept run
      have look : Run.after Machine.step (s.machine (.trigger t)) (inputs ++ [.triggerCheck false]) =
          { u.machine (.trigger t) with
            loc := if u.server.client.isSome then .input else .trigger t } := by
        rw [Run.after_append, run]
        exact counted.looks (m := u.machine (.trigger t)) rfl
      cases client : u.server.client with
      | some id =>
          rw [client] at look
          refine ⟨inputs ++ [.triggerCheck false], ?_⟩
          rw [look]
          exact matches_plain rfl counted rfl (by simp)
      | none =>
          rw [client] at look
          have here : Matches (.trigger t) u (Run.after Machine.step (s.machine (.trigger t))
              (inputs ++ [.triggerCheck false])) :=
            ⟨look, counted, fun _ => kept.trans eth, fun _ _ => ⟨kept.trans eth, client⟩⟩
          obtain ⟨others, ends⟩ := ih u _ here
          refine ⟨(inputs ++ [.triggerCheck false]) ++ others, ?_⟩
          rw [Run.after_append]
          exact ends

theorem triggerRounds_simulated (rounds : Nat → TriggerRound) (left : Nat) : ∀ t, 0 < left →
    t + left = 3 → Simulated (.trigger t) (triggerRounds rounds left t)
      fun connected => if connected then .input else .trigger 2 := by
  induction left with
  | zero =>
      intro t some
      exact absurd some (Nat.lt_irrefl 0)
  | succ left ih =>
      intro t _ three
      refine (triggerRound_simulated t (rounds t).tw0 (rounds t).passes).bind _ fun connected => ?_
      cases connected with
      | true => exact follows_pure Loc.input true rfl
      | false =>
          cases left with
          | zero =>
              have last : t = 2 := by omega
              subst last
              exact follows_pure (Loc.trigger 2) false rfl
          | succ left =>
              refine (ih (t + 1) (Nat.succ_pos left) (by omega)).advance ?_
              intro s m related
              obtain ⟨eth, nobody⟩ := related.trigger t rfl
              refine ⟨[.triggerCheck true], ?_⟩
              have elapsed : (s.machine (.trigger t)).step (.triggerCheck true) =
                  s.machine (.trigger (t + 1)) :=
                (related.counted.elapses nobody (m := s.machine (.trigger t))).trans
                  (if_pos (by omega))
              rw [related.same]
              exact ⟨elapsed, related.counted, fun _ => eth, fun _ _ => ⟨eth, nobody⟩⟩

/-- The third window is over: the machine gives up as the program does. -/
theorem cancelUpdate_simulated :
    Simulated (.trigger 2) cancelUpdate fun _ => .input := by
  intro s m related
  obtain ⟨eth, nobody⟩ := related.trigger 2 rfl
  refine ⟨[.triggerCheck true], ?_⟩
  have elapsed : (s.machine (.trigger 2)).step (.triggerCheck true) =
      { s.machine .input with ota := s.server.ota.serverStop.resetState } :=
    (related.counted.elapses nobody (m := s.machine (.trigger 2))).trans (if_neg (by decide))
  rw [related.same]
  exact matches_plain elapsed (related.counted.stop.withOta rfl rfl rfl rfl) rfl (by simp)

/-- The three windows and what follows them. -/
theorem triggers_simulated (rounds : Nat → TriggerRound) :
    Simulated (.trigger 0) (do if ← triggerRounds rounds 3 0 then pure true else cancelUpdate)
      fun _ => .input := by
  refine (triggerRounds_simulated rounds 3 0 (by decide) rfl).bind _ fun connected => ?_
  cases connected with
  | true => exact follows_pure Loc.input true rfl
  | false => exact cancelUpdate_simulated

/-- One input of the machine stands for the announced CRC, the start of the server and,
if that fails, the way back. -/
theorem acceptUpdate_simulated (turn : UpdateTry) (crc : Word) (c : Nat) (yes : isYes c = true) :
    Simulated (.prompt crc) (acceptUpdate turn crc) fun _ => .input := by
  intro s m related
  have eth := related.updating rfl
  let told : Connections := { s.server with ota := { s.server.ota with crcExpected := crc } }
  have counted : (told.start turn.listen).Counted :=
    (related.counted.withOta (o := told.ota) rfl rfl rfl rfl).start turn.listen
  have body : acceptUpdate turn crc s =
      (if (told.ota.serverStart turn.listen).2 then
        (do if ← triggerRounds turn.rounds 3 0 then pure true else cancelUpdate)
      else cancelUpdate : Control Bool) { s with server := told.start turn.listen } := rfl
  have answered {o : Ota} {listening : Bool}
      (run : told.ota.serverStart turn.listen = (o, listening)) : m.step (.updateKey c turn.listen) =
        if listening then { s.machine (.trigger 0) with ota := o }
        else { s.machine .input with ota := o.serverStop.resetState } := by
    have asked : (s.machine (.prompt crc)).loc = .prompt crc := rfl
    rw [related.same, Machine.step_promptKey asked]
    exact Machine.promptKey_yes yes run
  rw [body]
  have first : (told.start turn.listen).ota = (told.ota.serverStart turn.listen).1 := rfl
  have nobody : (told.start turn.listen).client = none := rfl
  generalize told.start turn.listen = started at counted first nobody
  generalize run : told.ota.serverStart turn.listen = result at answered first
  obtain ⟨o, listening⟩ := result
  obtain rfl : started.ota = o := first
  have moves := answered rfl
  cases listening with
  | true =>
      have here : Matches (.trigger 0) { s with server := started }
          (m.step (.updateKey c turn.listen)) :=
        ⟨moves, counted, fun _ => eth, fun _ _ => ⟨eth, nobody⟩⟩
      obtain ⟨inputs, ends⟩ := triggers_simulated turn.rounds _ _ here
      exact ⟨.updateKey c turn.listen :: inputs, ends⟩
  | false =>
      exact ⟨[.updateKey c turn.listen],
        matches_plain moves (counted.stop.withOta rfl rfl rfl rfl) rfl (by simp)⟩

theorem promptLoop_simulated (turn : UpdateTry) (crc : Word) (keys : List KeyPass) :
    Simulated (.prompt crc) (promptLoop turn crc keys) fun _ => .input := by
  induction keys with
  | nil => exact follows_halt (Loc.prompt crc) _
  | cons pass rest ih =>
      refine (waitKey_simulated rfl pass).bind (fun _ => Loc.prompt crc) fun c => ?_
      refine Follows.ite (acceptUpdate_simulated turn crc c) fun notYes => ?_
      refine Follows.ite (fun no => ?_) fun _ => ih
      refine key_simulated c rfl (fun _ => rfl) (by simp) fun s => ?_
      exact (if_neg notYes).trans (if_pos no)

theorem firmwareUpdate_simulated (tries : List UpdateTry) :
    Simulated .connecting (firmwareUpdate tries) fun _ => .input := by
  induction tries with
  | nil => exact follows_halt Loc.connecting _
  | cons turn rest ih =>
      have moves : ∀ (place : Loc) (f : Loop → Loop) (result : VersionResult),
          (place.inUpdate = true) → (∀ s, (f s).server = s.server ∧ (f s).ethInited = s.ethInited) →
          (∀ s : Loop, (s.machine .connecting).step (.versionChecked result) = (f s).machine place) →
          Simulated .connecting (Prog.modify f) fun _ => place := by
        intro place f result updating keeps run
        apply follows_modify
        intro s m related
        refine ⟨[.versionChecked result], ?_⟩
        rw [related.same]
        exact matches_update (run s) ((keeps s).1 ▸ related.counted)
          ((keeps s).2.trans (related.updating rfl)) (inUpdate_outside updating)
      refine Follows.bind (fun _ => .connecting) (follows_modify ?_) fun _ => ?_
      · intro s m related
        exact ⟨[], matches_update related.same related.counted (related.updating rfl) (by simp)⟩
      · refine (versionWait_simulated turn.t0 turn.wait).bind _ fun _ => ?_
        refine (follows_gets Loc.connecting _).bind _ fun ok => ?_
        refine Follows.ite (fun _ => ?_) fun _ => ?_
        · refine (follows_gets Loc.connecting _).bind _ fun answer => ?_
          refine (moves (.prompt answer.2.2) (fun s => { s with numbers := turn.numbers })
            (.update answer.2.2 turn.numbers) rfl (fun _ => ⟨rfl, rfl⟩) fun _ => rfl).bind _ fun _ => ?_
          exact promptLoop_simulated turn answer.2.2 turn.keys
        · refine (follows_gets Loc.connecting _).bind _ fun connected => ?_
          refine Follows.ite (fun _ => ?_) fun _ => ?_
          · exact (upToDateLoop_simulated turn.keys).advance
              (moves .upToDate id .none rfl (fun _ => ⟨rfl, rfl⟩) fun _ => rfl)
          · refine Follows.advance (Follows.bind _ (noServerLoop_simulated turn.keys) fun retry => ?_)
              (moves .noServer id .unreachable rfl (fun _ => ⟨rfl, rfl⟩) fun _ => rfl)
            cases retry with
            | true => exact ih
            | false => exact follows_pure Loc.input false rfl

/-- An operation on the board that the machine performs in one input. -/
theorem onBoard_simulated {α : Type} {place there : Loc} (op : Op Board α)
    (plain : there.inUpdate = false) (outside : ∀ t, there ≠ .trigger t) (input : Input)
    (moves : ∀ s : Loop, (s.machine place).step input = (s.machine place).perform op there) :
    Simulated place (onBoard op) fun _ => there := by
  apply follows_step
  intro s m related
  refine ⟨input, ?_⟩
  rw [related.same, moves s]
  generalize run : op s.board = result
  obtain ⟨exit, b⟩ := result
  cases exit with
  | done value =>
      rw [onBoard_done run, Machine.perform_done (s := s.machine place) run]
      exact matches_plain rfl related.counted plain outside
  | cut =>
      rw [onBoard_cut run, Machine.perform_cut (s := s.machine place) run]
      exact matches_plain rfl related.counted rfl (by simp)

theorem menuHandleKey_simulated (key : Nat) (faults : MenuFaults) (tries : List UpdateTry) :
    Simulated .menu (menuHandleKey key faults tries) fun _ => .input := by
  have steps : ∀ s : Loop, (s.machine .menu).step (.menuKey key faults) =
      (s.machine .menu).menuKey key faults := fun _ => rfl
  have ends : ∀ {place : Loc}, place.inUpdate = false → (∀ t, place ≠ .trigger t) →
      (∀ s : Loop, (s.machine .menu).menuKey key faults = s.machine place) →
      ∀ (s : Loop) (m : Machine), Matches .menu s m →
      ∃ inputs, Matches place s (Run.after Machine.step m inputs) := by
    intro place plain outside moves s m related
    refine ⟨[.menuKey key faults], ?_⟩
    rw [related.same]
    exact matches_plain (moves s) related.counted plain outside
  refine Follows.ite (fun two => ?_) fun notTwo => Follows.ite (fun three => ?_) fun notThree =>
    Follows.ite (fun four => ?_) fun notFour => Follows.ite (fun six => ?_) fun notSix =>
    Follows.ite (fun five => ?_) fun notFive => Follows.ite (fun esc => ?_) fun notEsc => ?_
  · intro s m related
    show ∃ inputs, Flow.Meets Matches (fun _ => Loc.input) _
      ((if (s.machine .menu).busy = true then pure ()
      else do
        ethInitOnce
        let _ ← firmwareUpdate tries
        pure () : Control Unit) s)
    by_cases busy : (s.machine .menu).busy = true
    · rw [if_pos busy]
      refine ⟨[.menuKey key faults], matches_plain ?_ related.counted rfl (by simp)⟩
      rw [related.same]
      exact (if_pos two).trans (if_pos busy)
    · rw [if_neg busy]
      have here : Matches .connecting { s with ethInited := true } (m.step (.menuKey key faults)) := by
        refine matches_update ?_ related.counted rfl (by simp)
        rw [related.same]
        exact (if_pos two).trans (if_neg busy)
      have update : Simulated .connecting (firmwareUpdate tries >>= fun _ => pure ()) fun _ => .input :=
        (firmwareUpdate_simulated tries).bind _ fun _ => follows_pure Loc.input () rfl
      obtain ⟨inputs, run⟩ := update _ _ here
      exact ⟨.menuKey key faults :: inputs, run⟩
  · exact onBoard_simulated _ rfl (by simp) (.menuKey key faults) fun s =>
      (if_neg notTwo).trans (if_pos three)
  · exact onBoard_simulated _ rfl (by simp) (.menuKey key faults) fun s =>
      (if_neg notTwo).trans ((if_neg notThree).trans (if_pos four))
  · refine (follows_halt Loc.off _).advance (ends rfl (by simp) fun s => ?_)
    exact (if_neg notTwo).trans ((if_neg notThree).trans ((if_neg notFour).trans (if_pos six)))
  · refine (follows_halt Loc.app _).advance (ends rfl (by simp) fun s => ?_)
    exact (if_neg notTwo).trans ((if_neg notThree).trans ((if_neg notFour).trans
      ((if_neg notSix).trans (if_pos five))))
  · intro s m related
    have moves : m.step (.menuKey key faults) =
        if (s.machine .menu).busy = true then
          { s.machine .input with ota := s.server.ota.serverStop }
        else s.machine .input := by
      rw [related.same, steps]
      unfold Machine.menuKey
      rw [if_neg notTwo, if_neg notThree, if_neg notFour, if_neg notSix, if_neg notFive]
      simp only [esc, true_and]
      rfl
    show ∃ inputs, Flow.Meets Matches (fun _ => Loc.input) _
      ((if (s.machine .menu).busy = true then serverStop else pure () : Control Unit) s)
    refine ⟨[.menuKey key faults], ?_⟩
    rw [Run.after_cons, moves]
    by_cases busy : (s.machine .menu).busy = true
    · rw [if_pos busy, if_pos busy]
      exact matches_plain rfl related.counted.stop rfl (by simp)
    · rw [if_neg busy, if_neg busy]
      exact matches_plain rfl related.counted rfl (by simp)
  · refine follows_return (ends rfl (by simp) fun s => ?_)
    unfold Machine.menuKey
    rw [if_neg notTwo, if_neg notThree, if_neg notFour, if_neg notSix, if_neg notFive,
      if_neg (fun both => notEsc both.1)]
    rfl

/-- `setState .done` or the way back: what one answer does to a board after the write. -/
theorem confirmAnswer_simulated (answer : Nat) (faults : UpdateFaults) :
    Simulated .confirm (confirmAnswer answer faults) fun _ => .menu := by
  apply follows_step
  intro s m related
  refine ⟨.confirmKey answer faults, ?_⟩
  rw [related.same]
  show (confirmAnswer answer faults s).Meets Matches _
    ((s.machine .confirm).confirmKey answer faults)
  by_cases yes : isYes answer = true
  · have body : confirmAnswer answer faults s =
        (onBoard (otaFlashWrite faults s.update) >>= fun written => if written then (do
          setState .done
          Prog.halt .off)
        else (do
          serverStop
          resetState) : Control Unit) s := by
      unfold confirmAnswer
      rw [if_pos yes]
      rfl
    rw [body]
    generalize run : otaFlashWrite faults s.update s.board = result
    obtain ⟨exit, b⟩ := result
    cases exit with
    | cut =>
        rw [Prog.bind_stop (onBoard_cut run), Machine.confirmKey_cut (s := s.machine .confirm) yes run]
        exact matches_plain rfl related.counted rfl (by simp)
    | done written =>
        rw [Prog.bind_next (onBoard_done run),
          Machine.confirmKey_done (s := s.machine .confirm) yes run]
        cases written with
        | true =>
            exact matches_plain rfl (related.counted.withOta rfl rfl rfl rfl) rfl (by simp)
        | false =>
            exact matches_plain rfl (related.counted.stop.withOta rfl rfl rfl rfl) rfl (by simp)
  · unfold confirmAnswer Machine.confirmKey
    rw [if_neg yes, if_neg yes]
    by_cases no : isNo answer = true
    · rw [if_pos no, if_pos no]
      exact matches_plain rfl (related.counted.stop.withOta rfl rfl rfl rfl) rfl (by simp)
    · rw [if_neg no, if_neg no]
      exact matches_plain rfl related.counted rfl (by simp)

/-- What `OTA_Poll` leaves. -/
def polled (s : Loop) (state : OtaState) (nor : Mem) : Loop :=
  { s with
    board := { s.board with nor := nor }
    server := { s.server with ota := { s.server.ota with state := state } } }

theorem poll_done {faults : PollFaults} {s : Loop} {state : OtaState} {nor : Mem}
    (run : otaPoll faults s.server.ota s.board.nor = (.done state, nor)) :
    poll faults s = .next () (s.polled state nor) := by
  show Prog.bind (onBoard (onNor (otaPoll faults s.server.ota))) setState s = _
  unfold Prog.bind onBoard onNor Op.zoom
  dsimp only
  rw [run]
  rfl

theorem poll_cut {faults : PollFaults} {s : Loop} {nor : Mem}
    (run : otaPoll faults s.server.ota s.board.nor = (.cut, nor)) :
    poll faults s = .stop .off { s with board := { s.board with nor := nor } } := by
  show Prog.bind (onBoard (onNor (otaPoll faults s.server.ota))) setState s = _
  unfold Prog.bind onBoard onNor Op.zoom
  dsimp only
  rw [run]

/-- `OTA_Poll` and the question that may follow it. -/
theorem pollConfirm_simulated (faults : PollFaults) (answer : Nat) (write : UpdateFaults)
    {rest : Control Unit} (follows : Simulated .menu rest fun _ => .input) :
    Simulated .input (do
      poll faults
      confirmStep answer write
      rest) fun _ => .input := by
  intro s m related
  have polls : m.step (.poll faults) = (s.machine .input).poll faults := by
    rw [related.same]
    rfl
  generalize run : otaPoll faults s.server.ota s.board.nor = result
  obtain ⟨exit, nor⟩ := result
  cases exit with
  | cut =>
      have step := polls.trans (Machine.poll_cut (s := s.machine .input) run)
      rw [Prog.bind_stop (poll_cut run)]
      exact ⟨[.poll faults], matches_plain step related.counted rfl (by simp)⟩
  | done state =>
      have step : m.step (.poll faults) =
          (s.polled state nor).machine (if state = .confirm then .confirm else .menu) :=
        polls.trans (Machine.poll_done (s := s.machine .input) run)
      rw [Prog.bind_next (poll_done run)]
      have counted : (s.polled state nor).server.Counted := related.counted.withOta rfl rfl rfl rfl
      by_cases confirm : state = .confirm
      · subst confirm
        obtain ⟨inputs, ends⟩ := (confirmAnswer_simulated answer write).bind _ (fun _ => follows)
          _ _ (matches_plain step counted rfl (by simp))
        exact ⟨.poll faults :: inputs, ends⟩
      · rw [if_neg confirm] at step
        obtain ⟨inputs, ends⟩ := follows _ _ (matches_plain step counted rfl (by simp))
        refine ⟨.poll faults :: inputs, ?_⟩
        have other : (state == .confirm) = false := beq_eq_false_iff_ne.mpr confirm
        show Flow.Meets Matches _ _ (((if state == .confirm then confirmAnswer answer write
          else pure () : Control Unit) >>= fun _ => rest) _)
        rw [other]
        exact ends

theorem inputStep_simulated (burst : List Traffic) :
    Simulated .input (inputStep burst) fun _ => .input := by
  intro s m related
  show ∃ inputs, Flow.Meets Matches (fun _ => Loc.input) _
    ((if s.ethInited = true then ethernetifInput burst else pure () : Control Unit) s)
  by_cases eth : s.ethInited = true
  · rw [if_pos eth]
    have listens : (s.machine .input).listens = true := by
      show (s.ethInited && true) = true
      rw [eth]
      rfl
    obtain ⟨counted, -, inputs, run⟩ := burst_run .input burst s related.counted listens
    refine ⟨inputs, ?_⟩
    rw [related.same, run]
    exact matches_plain rfl counted rfl (by simp)
  · rw [if_neg eth]
    exact ⟨[], related⟩

theorem keyStep_simulated (key : Nat) (faults : MenuFaults) (tries : List UpdateTry) :
    Simulated .menu (keyStep key faults tries) fun _ => .input := by
  refine Follows.ite (fun _ => menuHandleKey_simulated key faults tries) fun none => ?_
  apply follows_return
  intro s m related
  refine ⟨[.menuKey 0 faults], ?_⟩
  rw [related.same]
  exact matches_plain rfl related.counted rfl (by simp)

theorem mainPass_simulated (pass : Pass) : Simulated .input (mainPass pass) fun _ => .input :=
  (inputStep_simulated pass.burst).bind (fun _ => .input) fun _ =>
    pollConfirm_simulated pass.poll pass.answer pass.write
      (keyStep_simulated pass.key pass.menu pass.tries)

theorem qspiInitOnce_run (qspi : Status) (s : Loop) : qspiInitOnce qspi s =
    if s.board.qspiInited = true then .next () s
    else if qspi = .cut then .stop .off s
    else .next () { s with board := { s.board with qspiInited := true } } := by
  show ((if s.board.qspiInited = true then pure ()
    else do
      let _ ← onBoard (onNor (Qspi.bspQspiInit qspi))
      Prog.modify fun s => { s with board := { s.board with qspiInited := true } } :
        Control Unit) s) = _
  split
  · rfl
  · cases qspi <;> rfl

/-- `interactive_mode` begins where the machine enters the menu. -/
theorem interactiveMode_simulated (qspi : Status) (passes : List Pass) (s : Loop) (place : Loc)
    (counted : s.server.Counted) :
    ∃ inputs, (interactiveMode qspi passes s).Meets Matches (fun _ => Loc.input)
      (Run.after Machine.step ((s.machine place).enterMenu qspi) inputs) := by
  have loops := follows_forM mainPass_simulated passes
  have run := qspiInitOnce_run qspi s
  have enters : (s.machine place).enterMenu qspi =
      if s.board.qspiInited = true then s.machine .input
      else if qspi = .cut then s.machine .off
      else { s with board := { s.board with qspiInited := true } }.machine .input := rfl
  unfold interactiveMode
  rw [enters]
  split_ifs at run ⊢ with inited cut
  · rw [Prog.bind_next run]
    exact loops s _ (matches_plain rfl counted rfl (by simp))
  · rw [Prog.bind_stop run]
    exact ⟨[], matches_plain rfl counted rfl (by simp)⟩
  · rw [Prog.bind_next run]
    exact loops _ _ (matches_plain rfl counted rfl (by simp))

/-- A reset is possible wherever the program is; `main` begins with it. -/
theorem main_simulated (boot : Boot) (keyOn : Bool) (qspi : Status) (passes : List Pass)
    (place : Loc) : Simulated place (main boot keyOn qspi passes) fun _ => .input := by
  intro s m related
  have reset : m.step (.reset boot keyOn qspi) =
      ((s.machine place).restarted (boot.run s.board).2).dispatch (boot.run s.board).1 keyOn qspi := by
    rw [related.same]
    rfl
  have counted := Connections.initial_counted s.server.ota.buf
  have body : main boot keyOn qspi passes s = (onBoard boot.run >>= fun bootReq =>
      if keyOn then interactiveMode qspi passes
      else if bootReq = 0 then interactiveMode qspi passes
      else if bootReq = 1 then do
        Prog.modify fun s => { s with iwdg := true }
        Prog.halt .app
      else Prog.halt .app : Control Unit) s.restarted := rfl
  rw [body]
  generalize run : boot.run s.board = result at reset
  obtain ⟨exit, b⟩ := result
  cases exit with
  | cut =>
      rw [Prog.bind_stop (onBoard_cut (s := s.restarted) run)]
      exact ⟨[.reset boot keyOn qspi], matches_plain reset counted rfl (by simp)⟩
  | done request =>
      rw [Prog.bind_next (onBoard_done (s := s.restarted) run)]
      have menu : ((s.machine place).restarted b).dispatch (.done request) keyOn qspi =
          (({ s.restarted with board := b } : Loop).machine .off).enterMenu qspi →
          ∃ inputs, Flow.Meets Matches (fun _ => Loc.input) (Run.after Machine.step m inputs)
            (interactiveMode qspi passes { s.restarted with board := b }) := by
        intro enters
        obtain ⟨inputs, run⟩ := interactiveMode_simulated qspi passes
          { s.restarted with board := b } .off counted
        refine ⟨.reset boot keyOn qspi :: inputs, ?_⟩
        rw [Run.after_cons, reset, enters]
        exact run
      by_cases on : keyOn = true
      · rw [if_pos on]
        exact menu (if_pos on)
      · rw [if_neg on]
        by_cases zero : request = 0
        · rw [if_pos zero]
          exact menu ((if_neg on).trans (if_pos zero))
        · rw [if_neg zero]
          refine ⟨[.reset boot keyOn qspi], ?_⟩
          rw [Run.after_cons, reset]
          have jumps : ((s.machine place).restarted b).dispatch (.done request) keyOn qspi =
              if request = 1 then
                ({ s.restarted with board := b, iwdg := true } : Loop).machine .app
              else ({ s.restarted with board := b } : Loop).machine .app :=
            (if_neg on).trans (if_neg zero)
          rw [jumps]
          split
          · exact matches_plain rfl counted rfl (by simp)
          · exact matches_plain rfl counted rfl (by simp)

/-- The time from one reset to the next is a run of the machine. -/
theorem cycle_simulated (c : Cycle) (s : Loop) (place : Loc) (m : Machine)
    (related : Matches place s m) :
    ∃ inputs, Matches (s.cycle c).2 (s.cycle c).1 (Run.after Machine.step m inputs) := by
  obtain ⟨inputs, run⟩ := main_simulated c.boot c.keyOn c.qspi c.passes place s m related
  unfold cycle
  generalize main c.boot c.keyOn c.qspi c.passes s = flow at run
  cases flow with
  | next value t => exact ⟨inputs, run⟩
  | stop there t =>
      dsimp only
      by_cases app : there = .app
      · subst app
        rw [if_pos rfl]
        have confirmed : Simulated .app (confirmations c.confirms) fun _ => .app :=
          follows_forM (fun faults => onBoard_simulated _ rfl (by simp) (.appConfirm faults)
            fun _ => rfl) c.confirms
        obtain ⟨more, ends⟩ := confirmed t _ run
        refine ⟨inputs ++ more, ?_⟩
        rw [Run.after_append]
        generalize confirmations c.confirms t = flow at ends ⊢
        cases flow with
        | next value u => exact ends
        | stop place u => exact ends
      · rw [if_neg app]
        exact ⟨inputs, run⟩

theorem history_simulated (cycles : List Cycle) : ∀ (s : Loop) (place : Loc) (m : Machine),
    Matches place s m →
    ∃ inputs, Matches (cycles.foldl (fun now c => now.1.cycle c) (s, place)).2
      (cycles.foldl (fun now c => now.1.cycle c) (s, place)).1
      (Run.after Machine.step m inputs) := by
  induction cycles with
  | nil =>
      intro s place m related
      exact ⟨[], related⟩
  | cons c rest ih =>
      intro s place m related
      obtain ⟨front, one⟩ := cycle_simulated c s place m related
      obtain ⟨back, others⟩ := ih _ _ _ one
      refine ⟨front ++ back, ?_⟩
      rw [Run.after_append]
      exact others

/-- Wherever a history of the program ends, its variables and its place are those at the
end of a run of the machine. -/
theorem history_refines (board : Board) (buf : Mem) (cycles : List Cycle) :
    ∃ inputs, Run.after Machine.step ((fresh board buf).machine .off) inputs =
      ((fresh board buf).history cycles).1.machine ((fresh board buf).history cycles).2 := by
  obtain ⟨inputs, related⟩ := history_simulated cycles (fresh board buf) .off _
    (matches_plain rfl (Connections.initial_counted buf) rfl (by simp))
  exact ⟨inputs, related.same⟩

end Loop

end OtaBoot
