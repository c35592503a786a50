import OtaBoot.Machine

set_option autoImplicit false

namespace OtaBoot

open Mem

/-- All that one step can do: an input the program waits for is handled where it waits. -/
inductive Machine.Move (s : Machine) : Input → Machine → Prop
  | ignored (input : Input) : Move s input s
  | reset (boot : Boot) (key1 : Bool) (qspi : Status) :
      Move s (.reset boot key1 qspi) (s.main boot key1 qspi)
  | accept (listens : s.listens = true) : Move s .accept (s.onOta Ota.acceptCb)
  | receive (listens : s.listens = true) (client : 0 < s.ota.connected) (chain : List Pbuf) :
      Move s (.receive chain) (s.onOta fun o => o.recvData chain)
  | fin (listens : s.listens = true) (closed : Bool) :
      Move s (.fin closed) (s.onOta (Ota.recvFin closed))
  | err (listens : s.listens = true) (closing : Bool) :
      Move s (.err closing) (s.onOta (Ota.fail closing))
  | poll (found : s.loc = .input) (faults : PollFaults) : Move s (.poll faults) (s.poll faults)
  | confirmKey (found : s.loc = .confirm) (key : Nat) (faults : UpdateFaults) :
      Move s (.confirmKey key faults) (s.confirmKey key faults)
  | menuKey (found : s.loc = .menu) (key : Nat) (faults : MenuFaults) :
      Move s (.menuKey key faults) (s.menuKey key faults)
  | versionChecked (found : s.loc = .connecting) (result : VersionResult) :
      Move s (.versionChecked result) (s.versionChecked result)
  | promptKey (crc : Word) (found : s.loc = .prompt crc) (key : Nat) (result : StartResult) :
      Move s (.updateKey key result) (s.promptKey crc key result)
  | leave (found : s.loc = .upToDate ∨ s.loc = .noServer) (key : Nat) (result : StartResult)
      (next : Loc) (target : next = .input ∨ next = .connecting) :
      Move s (.updateKey key result) { s with loc := next }
  | triggerCheck (round : Nat) (found : s.loc = .trigger round) (elapsed : Bool) :
      Move s (.triggerCheck elapsed) (s.triggerCheck round elapsed)
  | appConfirm (found : s.loc = .app) (faults : MetaFaults) :
      Move s (.appConfirm faults) (s.perform (OtaBoot.appConfirm faults) .app)

theorem Machine.Move.guarded {s t : Machine} {input : Input} {P : Prop} [Decidable P]
    (taken : P → s.Move input t) : s.Move input (if P then t else s) := by
  by_cases guard : P
  · rw [if_pos guard]
    exact taken guard
  · rw [if_neg guard]
    exact .ignored input

theorem Machine.updateKey_move (s : Machine) (key : Nat) (result : StartResult) :
    s.Move (.updateKey key result) (s.updateKey key result) := by
  unfold Machine.updateKey
  generalize found : s.loc = loc
  cases loc with
  | prompt crc => exact .promptKey crc found key result
  | upToDate =>
      apply Machine.Move.guarded
      intro _
      exact .leave (.inl found) key result .input (.inl rfl)
  | noServer =>
      dsimp only
      split
      · exact .leave (.inr found) key result .input (.inl rfl)
      · apply Machine.Move.guarded
        intro _
        exact .leave (.inr found) key result .connecting (.inr rfl)
  | input | confirm | menu | connecting | trigger _ | app | off => exact .ignored _

/-- The inversion lemma of the machine. -/
theorem Machine.step_move (s : Machine) (input : Input) : s.Move input (s.step input) := by
  unfold Machine.step
  cases input with
  | reset boot key1 qspi => exact .reset boot key1 qspi
  | accept => exact .guarded fun connected => .accept connected.1
  | receive chain => exact .guarded fun connected => .receive connected.1 connected.2 chain
  | fin closed => exact .guarded fun connected => .fin connected.1 closed
  | err closing => exact .guarded fun connected => .err connected.1 closing
  | poll faults => exact .guarded fun found => .poll found faults
  | confirmKey key faults => exact .guarded fun found => .confirmKey found key faults
  | menuKey key faults => exact .guarded fun found => .menuKey found key faults
  | versionChecked result => exact .guarded fun found => .versionChecked found result
  | updateKey key result => exact s.updateKey_move key result
  | triggerCheck elapsed =>
      generalize found : s.loc = loc
      cases loc with
      | trigger round => exact .triggerCheck round found elapsed
      | input | confirm | menu | connecting | prompt _ | upToDate | noServer | app | off =>
          exact .ignored _
  | appConfirm faults => exact .guarded fun found => .appConfirm found faults

/-- This input runs `OTA_Server_Start`. -/
def Machine.Starts (s : Machine) (input : Input) : Prop :=
  ∃ crc key result, s.loc = .prompt crc ∧ input = .updateKey key result ∧ isYes key = true

/-- All that one step can do to the receiver. -/
inductive OtaMove (s : Machine) (input : Input) : Ota → Prop
  | keep : OtaMove s input s.ota
  | reset (boot : Boot) (key1 : Bool) (qspi : Status) (found : input = .reset boot key1 qspi) :
      OtaMove s input (Ota.initial s.ota.buf)
  | accept : OtaMove s input s.ota.acceptCb
  | data (chain : List Pbuf) (found : input = .receive chain)
      (connected : s.listens = true ∧ 0 < s.ota.connected) :
      OtaMove s input (s.ota.recvData chain)
  | fin (closed : Bool) (found : input = .fin closed) : OtaMove s input (s.ota.recvFin closed)
  | err (closing : Bool) : OtaMove s input (s.ota.fail closing)
  | polled (faults : PollFaults) (found : input = .poll faults) (state : OtaState) (nor : Mem)
      (run : otaPoll faults s.ota s.board.nor = (.done state, nor))
      (board : (s.step input).board.nor = nor) :
      OtaMove s input { s.ota with state := state }
  | written : OtaMove s input { s.ota with state := .done }
  | stopped : OtaMove s input s.ota.serverStop
  | started (starts : s.Starts input) (crc : Word) (prompt : s.loc = .prompt crc)
      (listening : Bool) (connected : Nat) : OtaMove s input { s.ota with
        serverPcb := listening
        clientPcb := false
        connected := connected
        state := .receiving
        headerParsed := false
        expected := 0
        received := 0
        crcExpected := crc }
  | refused (starts : s.Starts input) (crc : Word) (connected : Nat) : OtaMove s input { s.ota with
        serverPcb := false
        clientPcb := false
        connected := connected
        state := .idle
        headerParsed := false
        expected := 0
        received := 0
        crcExpected := crc }

theorem Ota.fail_eq (closing : Bool) (o : Ota) : ∃ left held,
    o.fail closing = { o with
      clientPcb := false
      connected := left
      closing := held
      state := if o.state = .receiving then .error else o.state } := by
  cases closing with
  | true => exact ⟨o.connected, o.closing - 1, rfl⟩
  | false => exact ⟨o.connected - 1, o.closing, rfl⟩

/-- The connections left after the client has been aborted. -/
def Ota.left (o : Ota) : Nat := if o.clientPcb then o.connected - 1 else o.connected

theorem Ota.serverStop_eq (o : Ota) : o.serverStop =
    { o with clientPcb := false, serverPcb := false, connected := o.left, state := .idle } := by
  unfold Ota.serverStop Ota.left Ota.fail Ota.errCb
  cases o.clientPcb <;> rfl

/-- What `OTA_Server_Start` leaves, by its result. -/
theorem Ota.serverStart_eq (o : Ota) (result : StartResult) :
    o.serverStart result =
      match result with
      | .newFails => ({ o with
          serverPcb := false, clientPcb := false, connected := o.left, state := .error
          headerParsed := false, expected := 0, received := 0 }, false)
      | .bindFails => ({ o with
          serverPcb := false, clientPcb := false, connected := o.left, state := .idle
          headerParsed := false, expected := 0, received := 0 }, false)
      | .listenFails => ({ o with
          serverPcb := false, clientPcb := false, connected := o.left, state := .receiving
          headerParsed := false, expected := 0, received := 0 }, true)
      | .listening => ({ o with
          serverPcb := true, clientPcb := false, connected := o.left, state := .receiving
          headerParsed := false, expected := 0, received := 0 }, true) := by
  unfold Ota.serverStart
  rw [Ota.serverStop_eq]
  cases result with
  | newFails => rfl
  | listenFails => rfl
  | listening => rfl
  | bindFails =>
      simp only
      rw [Ota.serverStop_eq]
      rfl

theorem Machine.enterMenu_ota (s : Machine) (qspi : Status) : (s.enterMenu qspi).ota = s.ota := by
  unfold Machine.enterMenu
  split
  · rfl
  · split <;> rfl

theorem Machine.dispatch_ota (s : Machine) (answer : Exit Nat) (key1 : Bool) (qspi : Status) :
    (s.dispatch answer key1 qspi).ota = s.ota := by
  unfold Machine.dispatch
  split
  · rfl
  · split
    · exact s.enterMenu_ota qspi
    · split
      · exact s.enterMenu_ota qspi
      · split <;> rfl

theorem Machine.perform_ota {α : Type} (s : Machine) (op : Op Board α) (next : Loc) :
    (s.perform op next).ota = s.ota := by
  unfold Machine.perform
  split <;> rfl

theorem Machine.confirmKey_ota (s : Machine) (key : Nat) (faults : UpdateFaults) :
    (s.confirmKey key faults).ota = s.ota ∨
      (s.confirmKey key faults).ota = { s.ota with state := .done } ∨
      (s.confirmKey key faults).ota = s.ota.serverStop := by
  unfold Machine.confirmKey
  split
  · split
    · exact .inl rfl
    · exact .inr (.inl rfl)
    · exact .inr (.inr rfl)
  · split
    · exact .inr (.inr rfl)
    · exact .inl rfl

theorem Machine.menuKey_ota (s : Machine) (key : Nat) (faults : MenuFaults) :
    (s.menuKey key faults).ota = s.ota ∨ (s.menuKey key faults).ota = s.ota.serverStop := by
  unfold Machine.menuKey
  split
  · left
    split <;> rfl
  · split
    · exact .inl (s.perform_ota _ _)
    · split
      · exact .inl (s.perform_ota _ _)
      · split
        · exact .inl rfl
        · split
          · exact .inl rfl
          · split
            · exact .inr rfl
            · exact .inl rfl

theorem Machine.versionChecked_ota (s : Machine) (result : VersionResult) :
    (s.versionChecked result).ota = s.ota := by
  cases result <;> rfl

theorem Machine.promptKey_move (s : Machine) (crc : Word) (prompt : s.loc = .prompt crc) (key : Nat)
    (result : StartResult) :
    OtaMove s (.updateKey key result) (s.promptKey crc key result).ota := by
  unfold Machine.promptKey
  by_cases yes : isYes key = true
  · have starts : s.Starts (.updateKey key result) := ⟨crc, key, result, prompt, rfl, yes⟩
    rw [if_pos yes, Ota.serverStart_eq]
    cases result with
    | newFails => exact .refused starts crc _
    | bindFails => exact .refused starts crc _
    | listenFails => exact .started starts crc prompt false _
    | listening => exact .started starts crc prompt true _
  · rw [if_neg yes]
    split <;> exact .keep

theorem Machine.triggerCheck_ota (s : Machine) (round : Nat) (elapsed : Bool) :
    (s.triggerCheck round elapsed).ota = s.ota ∨
      (s.triggerCheck round elapsed).ota = s.ota.serverStop := by
  unfold Machine.triggerCheck
  split
  · exact .inl rfl
  · split
    · split
      · exact .inl rfl
      · exact .inr rfl
    · exact .inl rfl

/-- The inversion lemma of the machine for the receiver's variables. -/
theorem Machine.step_ota (s : Machine) (input : Input) : OtaMove s input (s.step input).ota := by
  have move := s.step_move input
  generalize same : s.step input = t at move ⊢
  cases move with
  | ignored => exact .keep
  | reset boot key1 qspi =>
      have ota : (s.main boot key1 qspi).ota = Ota.initial s.ota.buf :=
        Machine.dispatch_ota _ _ _ _
      rw [ota]
      exact .reset boot key1 qspi rfl
  | accept => exact .accept
  | receive listens client chain => exact .data chain rfl ⟨listens, client⟩
  | fin listens closed => exact .fin closed rfl
  | err listens closing => exact .err closing
  | poll found faults =>
      unfold Machine.poll at same ⊢
      generalize run : otaPoll faults s.ota s.board.nor = result at same ⊢
      obtain ⟨exit, nor⟩ := result
      cases exit with
      | cut => exact .keep
      | done state => exact .polled faults rfl state nor run (by rw [same])
  | confirmKey found key faults =>
      rcases s.confirmKey_ota key faults with kept | written | stopped
      · rw [kept]
        exact .keep
      · rw [written]
        exact .written
      · rw [stopped]
        exact .stopped
  | menuKey found key faults =>
      rcases s.menuKey_ota key faults with kept | stopped
      · rw [kept]
        exact .keep
      · rw [stopped]
        exact .stopped
  | versionChecked found result =>
      rw [Machine.versionChecked_ota]
      exact .keep
  | promptKey crc found key result => exact s.promptKey_move crc found key result
  | leave => exact .keep
  | triggerCheck round found elapsed =>
      rcases s.triggerCheck_ota round elapsed with kept | stopped
      · rw [kept]
        exact .keep
      · rw [stopped]
        exact .stopped
  | appConfirm found faults =>
      rw [Machine.perform_ota]
      exact .keep

end OtaBoot
