import OtaBoot.MachineOta
import OtaBoot.OtaPoll

set_option autoImplicit false

namespace OtaBoot

open Mem

/-- Received data can only end a session. -/
theorem Ota.takePbuf_state (o : Ota) (data : List Byte) :
    (o.takePbuf data).1.crcExpected = o.crcExpected ∧
      ((o.takePbuf data).1.state = o.state ∨ (o.takePbuf data).1.state = .error) := by
  unfold Ota.takePbuf
  split
  · exact ⟨rfl, .inr rfl⟩
  · split
    · exact ⟨rfl, .inl rfl⟩
    · split
      · exact ⟨rfl, .inl rfl⟩
      · dsimp only
        split
        · split
          · exact ⟨rfl, .inr rfl⟩
          · exact ⟨rfl, .inl rfl⟩
        · exact ⟨rfl, .inl rfl⟩

theorem Ota.recvData_state (chain : List Pbuf) : ∀ o : Ota,
    (o.recvData chain).crcExpected = o.crcExpected ∧
      ((o.recvData chain).state = o.state ∨ (o.recvData chain).state = .error) := by
  induction chain with
  | nil =>
      intro o
      exact ⟨rfl, .inl rfl⟩
  | cons p rest ih =>
      intro o
      have one := o.takePbuf_state p.payload
      unfold Ota.recvData
      generalize o.takePbuf p.payload = result at one ⊢
      obtain ⟨next, more⟩ := result
      cases more with
      | false => exact one
      | true =>
          obtain ⟨crc, state⟩ := ih next
          refine ⟨crc.trans one.1, ?_⟩
          rcases state with same | failed
          · rw [same]
            exact one.2
          · exact .inr failed

/-- A closed client completes a session that has received all it expects. -/
theorem Ota.recvFin_eq (closed : Bool) (o : Ota) : ∃ left held state,
    o.recvFin closed =
      { o with clientPcb := false, connected := left, closing := held, state := state } ∧
      (state = o.state ∨ state = .error ∨
        o.state = .receiving ∧ state = .verify ∧ o.expected ≠ 0 ∧ o.expected ≤ o.received) := by
  by_cases receiving : o.state = .receiving
  · cases closed with
    | false =>
        refine ⟨o.connected - 1, o.closing, .error, ?_, .inr (.inl rfl)⟩
        simp [Ota.recvFin, Ota.fail, Ota.errCb, receiving]
    | true =>
        by_cases complete : o.expected ≠ 0 ∧ o.expected ≤ o.received
        · refine ⟨o.connected - 1, o.closing + 1, .verify, ?_, .inr (.inr ⟨receiving, rfl, complete⟩)⟩
          simp only [Ota.recvFin, ↓reduceIte, receiving]
          rw [if_pos complete]
        · refine ⟨o.connected - 1, o.closing + 1, .error, ?_, .inr (.inl rfl)⟩
          simp only [Ota.recvFin, ↓reduceIte, receiving]
          rw [if_neg complete]
  · cases closed with
    | false =>
        refine ⟨o.connected - 1, o.closing, o.state, ?_, .inl rfl⟩
        simp [Ota.recvFin, Ota.fail, Ota.errCb, receiving]
    | true =>
        refine ⟨o.connected - 1, o.closing + 1, o.state, ?_, .inl rfl⟩
        simp [Ota.recvFin, receiving]

/-- The transitions of `ota_state`. -/
inductive StateMove (s : Machine) (input : Input) : OtaState → Prop
  | same : StateMove s input s.ota.state
  | idle : StateMove s input .idle
  | error : StateMove s input .error
  | done : StateMove s input .done
  | started (starts : s.Starts input) : StateMove s input .receiving
  | completed (was : s.ota.state = .receiving) (closed : Bool) (found : input = .fin closed) :
      StateMove s input .verify
  | verified (was : s.ota.state = .verify) (faults : PollFaults) (found : input = .poll faults)
      (checked : s.ota.Verified (s.step input).board.nor) : StateMove s input .confirm

theorem Machine.step_state (s : Machine) (input : Input) :
    StateMove s input (s.step input).ota.state := by
  have move := s.step_ota input
  generalize (s.step input).ota = o at move
  cases move with
  | keep => exact .same
  | reset => exact .idle
  | accept =>
      have same : s.ota.acceptCb.state = s.ota.state := by
        unfold Ota.acceptCb
        split <;> rfl
      rw [same]
      exact .same
  | data chain =>
      rcases (Ota.recvData_state chain s.ota).2 with same | failed
      · rw [same]
        exact .same
      · rw [failed]
        exact .error
  | fin closed found =>
      obtain ⟨_, _, state, fin, same | failed | ⟨was, verify, _⟩⟩ := Ota.recvFin_eq closed s.ota
      · rw [fin, same]
        exact .same
      · rw [fin, failed]
        exact .error
      · rw [fin, verify]
        exact .completed was closed found
  | err closing =>
      obtain ⟨_, _, failed⟩ := Ota.fail_eq closing s.ota
      rw [failed]
      dsimp only
      split
      · exact .error
      · exact .same
  | polled faults found state nor run board =>
      rcases otaPoll_cases faults s.ota s.board.nor nor state run with
        ⟨_, rfl⟩ | ⟨was, rfl | ⟨rfl, checked⟩⟩
      · exact .same
      · exact .error
      · rw [← board] at checked
        exact .verified was faults found checked
  | written => exact .done
  | stopped => exact .idle
  | started starts => exact .started starts
  | refused => exact .idle

/-- Only `OTA_Server_Start` changes the expected CRC of a session. -/
theorem Machine.step_crcExpected (s : Machine) (input : Input) (no : ¬ s.Starts input) :
    (s.step input).ota.crcExpected = s.ota.crcExpected ∨ (s.step input).ota.state = .idle := by
  have move := s.step_ota input
  generalize (s.step input).ota = o at move
  cases move with
  | reset => exact .inr rfl
  | data chain => exact .inl (Ota.recvData_state chain s.ota).1
  | fin closed =>
      obtain ⟨_, _, state, fin, _⟩ := Ota.recvFin_eq closed s.ota
      left
      rw [fin]
  | err closing =>
      obtain ⟨_, _, failed⟩ := Ota.fail_eq closing s.ota
      left
      rw [failed]
  | accept =>
      left
      unfold Ota.acceptCb
      split <;> rfl
  | stopped => exact .inr rfl
  | started starts => exact absurd starts no
  | refused starts => exact absurd starts no
  | keep | polled | written => exact .inl rfl

/- The program waits for the answer only in CONFIRM. -/
section Prompted

/-- The prompt is on only in CONFIRM. -/
def Machine.Prompted (s : Machine) : Prop := s.loc = .confirm → s.ota.state = .confirm

theorem Machine.prompted_of_loc {s : Machine} (elsewhere : s.loc ≠ .confirm) : s.Prompted :=
  fun prompt => absurd prompt elsewhere

theorem Machine.enterMenu_loc (s : Machine) (qspi : Status) :
    (s.enterMenu qspi).loc = .input ∨ (s.enterMenu qspi).loc = .off := by
  unfold Machine.enterMenu
  split
  · exact .inl rfl
  · split
    · exact .inr rfl
    · exact .inl rfl

theorem Machine.enterMenu_prompted (s : Machine) (qspi : Status) : (s.enterMenu qspi).Prompted := by
  apply Machine.prompted_of_loc
  rcases s.enterMenu_loc qspi with loc | loc
  · simp [loc]
  · simp [loc]

theorem Machine.main_prompted (s : Machine) (boot : Boot) (key1 : Bool) (qspi : Status) :
    (s.main boot key1 qspi).Prompted := by
  unfold Machine.main
  generalize started : s.restarted (boot.run s.board).2 = t
  have loc : t.loc = .off := by
    rw [← started]
    rfl
  generalize (boot.run s.board).1 = answer
  unfold Machine.dispatch
  cases answer with
  | cut => exact Machine.prompted_of_loc (by simp [loc])
  | done request =>
      dsimp only
      split
      · exact t.enterMenu_prompted qspi
      · split
        · exact t.enterMenu_prompted qspi
        · split
          · exact Machine.prompted_of_loc (by simp)
          · exact Machine.prompted_of_loc (by simp)

theorem Machine.perform_prompted {α : Type} (s : Machine) (op : Op Board α) (next : Loc)
    (elsewhere : next ≠ .confirm) : (s.perform op next).Prompted := by
  unfold Machine.perform
  split
  · exact Machine.prompted_of_loc elsewhere
  · exact Machine.prompted_of_loc (by simp)

theorem Machine.confirmKey_prompted (s : Machine) (key : Nat) (faults : UpdateFaults) :
    (s.confirmKey key faults).Prompted := by
  apply Machine.prompted_of_loc
  unfold Machine.confirmKey
  split
  · split <;> simp [Machine.endSession]
  · split <;> simp [Machine.endSession]

theorem Machine.menuKey_prompted (s : Machine) (key : Nat) (faults : MenuFaults) :
    (s.menuKey key faults).Prompted := by
  unfold Machine.menuKey
  split
  · apply Machine.prompted_of_loc
    split <;> simp
  · split
    · exact s.perform_prompted _ _ (by simp)
    · split
      · exact s.perform_prompted _ _ (by simp)
      · apply Machine.prompted_of_loc
        split
        · simp
        · split
          · simp
          · split <;> simp

theorem Machine.promptKey_prompted (s : Machine) (held : s.Prompted) (crc : Word) (key : Nat)
    (result : StartResult) : (s.promptKey crc key result).Prompted := by
  unfold Machine.promptKey
  split
  · apply Machine.prompted_of_loc
    split <;> simp [Machine.endSession]
  · split
    · exact Machine.prompted_of_loc (by simp)
    · exact held

theorem Machine.triggerCheck_prompted (s : Machine) (held : s.Prompted) (round : Nat)
    (elapsed : Bool) : (s.triggerCheck round elapsed).Prompted := by
  unfold Machine.triggerCheck
  split
  · exact Machine.prompted_of_loc (by simp)
  · split
    · split
      · exact Machine.prompted_of_loc (by simp)
      · exact Machine.prompted_of_loc (by simp [Machine.endSession])
    · exact held

theorem Machine.poll_prompted (s : Machine) (faults : PollFaults) : (s.poll faults).Prompted := by
  unfold Machine.poll
  split
  · exact Machine.prompted_of_loc (by simp)
  · rename_i state nor run
    intro prompt
    dsimp only at prompt ⊢
    by_contra other
    rw [if_neg other] at prompt
    cases prompt

/-- No callback runs while the answer is read. -/
theorem Machine.onOta_prompted (s : Machine) (listens : s.listens = true) (f : Ota → Ota) :
    (s.onOta f).Prompted := by
  apply Machine.prompted_of_loc
  intro prompt
  have loc : s.loc = .confirm := prompt
  simp [Machine.listens, loc] at listens

theorem Machine.step_prompted (s : Machine) (held : s.Prompted) (input : Input) :
    (s.step input).Prompted := by
  have move := s.step_move input
  generalize s.step input = t at move ⊢
  cases move with
  | ignored => exact held
  | reset boot key1 qspi => exact s.main_prompted boot key1 qspi
  | accept listens => exact s.onOta_prompted listens _
  | receive listens => exact s.onOta_prompted listens _
  | fin listens => exact s.onOta_prompted listens _
  | err listens => exact s.onOta_prompted listens _
  | poll found faults => exact s.poll_prompted faults
  | confirmKey found key faults => exact s.confirmKey_prompted key faults
  | menuKey found key faults => exact s.menuKey_prompted key faults
  | versionChecked found result =>
      apply Machine.prompted_of_loc
      cases result <;> simp [Machine.versionChecked]
  | promptKey crc found key result => exact s.promptKey_prompted held crc key result
  | leave found key result next target =>
      apply Machine.prompted_of_loc
      rcases target with rfl | rfl
      · simp
      · simp
  | triggerCheck round found elapsed => exact s.triggerCheck_prompted held round elapsed
  | appConfirm found faults => exact s.perform_prompted _ _ (by simp)

end Prompted

end OtaBoot
