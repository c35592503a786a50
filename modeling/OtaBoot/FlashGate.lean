import OtaBoot.OtaSession
import OtaBoot.TrialRun

set_option autoImplicit false

namespace OtaBoot

open Mem

/-- A device without power. A run of the machine starts with its first reset. -/
def Machine.powerOff (board : Board) (buf : Mem) : Machine where
  board := board
  ota := Ota.initial buf
  version := ⟨0, 0, 0⟩
  ethInited := false
  iwdg := false
  loc := .off

/-- This input enters `OTA_Flash_Write`. -/
def Machine.FlashWrites (s : Machine) (input : Input) : Prop :=
  s.loc = .confirm ∧ ∃ key faults, input = .confirmKey key faults ∧ isYes key = true

/-- A session that can still lead to a write. -/
def Machine.Active (s : Machine) : Prop :=
  s.ota.state = .receiving ∨ s.ota.state = .verify ∨ s.ota.state = .confirm

theorem Machine.receiving_back (s : Machine) (input : Input) (no : ¬ s.Starts input)
    (receiving : (s.step input).ota.state = .receiving) : s.ota.state = .receiving := by
  have move := s.step_state input
  generalize (s.step input).ota.state = state at move receiving
  cases move with
  | same => exact receiving
  | started starts => exact absurd starts no
  | idle | error | done | completed | verified => cases receiving

theorem Machine.active_back (s : Machine) (input : Input) (no : ¬ s.Starts input)
    (active : (s.step input).Active) : s.Active := by
  have move := s.step_state input
  unfold Machine.Active at active
  generalize (s.step input).ota.state = state at move active
  cases move with
  | same => exact active
  | started starts => exact absurd starts no
  | completed was => exact .inl was
  | verified was => exact .inr (.inl was)
  | idle | error | done => simp at active

/-- Between two `OTA_Server_Start` a session stays active with one expected CRC. -/
theorem Machine.active_run (s : Machine) (inputs : List Input)
    (no : Run.Along Machine.step (fun t input => ¬ t.Starts input) s inputs)
    (active : (Run.after Machine.step s inputs).Active) :
    s.Active ∧ s.ota.crcExpected = (Run.after Machine.step s inputs).ota.crcExpected := by
  generalize crc : (Run.after Machine.step s inputs).ota.crcExpected = expected
  refine (Run.within_of_back (F := fun t => t.Active ∧ t.ota.crcExpected = expected)
    ?_ inputs s no ⟨active, crc⟩).1
  intro t input none next
  refine ⟨t.active_back input none next.1, ?_⟩
  rcases t.step_crcExpected input none with same | idle
  · rw [← same]
    exact next.2
  · have active := next.1
    unfold Machine.Active at active
    simp [idle] at active

theorem Machine.step_starts (s : Machine) (crc : Word) (prompt : s.loc = .prompt crc) (key : Nat)
    (yes : isYes key = true) (result : StartResult) :
    (s.step (.updateKey key result)).ota.crcExpected = crc ∧
      ((s.step (.updateKey key result)).ota.state = .receiving ∨
        (s.step (.updateKey key result)).ota.state = .idle) := by
  have step : s.step (.updateKey key result) = s.promptKey crc key result := by
    simp only [Machine.step, Machine.updateKey, prompt]
  rw [step]
  unfold Machine.promptKey
  rw [if_pos yes, Ota.serverStart_eq]
  cases result with
  | newFails | bindFails => exact ⟨rfl, .inr rfl⟩
  | listenFails | listening => exact ⟨rfl, .inl rfl⟩

/-- The inputs of a session up to the prompt: RECEIVING until the client closes, VERIFY
until the poll that finds both CRCs equal to `crc`, CONFIRM from there on. -/
def Machine.VerifiedSession (s : Machine) (crc : Word) (inputs : List Input) : Prop :=
  ∃ reception closed waiting faults prompt,
    inputs = reception ++ .fin closed :: (waiting ++ .poll faults :: prompt) ∧
    Run.Within Machine.step (fun t => t.ota.state = .receiving) s reception ∧
    Run.Within Machine.step (fun t => t.ota.state = .verify)
      (Run.after Machine.step s (reception ++ [.fin closed])) waiting ∧
    ((Run.after Machine.step s (reception ++ .fin closed :: waiting)).ota.crcExpected = crc ∧
      (Run.after Machine.step s (reception ++ .fin closed :: waiting)).ota.Verified
        (Run.after Machine.step s
          (reception ++ .fin closed :: (waiting ++ [.poll faults]))).board.nor) ∧
    Run.Within Machine.step (fun t => t.ota.state = .confirm)
      (Run.after Machine.step s (reception ++ .fin closed :: (waiting ++ [.poll faults]))) prompt

/-- A run without `OTA_Server_Start` from RECEIVING to VERIFY. -/
theorem Machine.verify_session (s : Machine) (inputs : List Input)
    (no : Run.Along Machine.step (fun t input => ¬ t.Starts input) s inputs)
    (fresh : s.ota.state = .receiving)
    (verify : (Run.after Machine.step s inputs).ota.state = .verify) :
    ∃ reception closed waiting, inputs = reception ++ .fin closed :: waiting ∧
      Run.Within Machine.step (fun t => t.ota.state = .receiving) s reception ∧
      Run.Within Machine.step (fun t => t.ota.state = .verify)
        (Run.after Machine.step s (reception ++ [.fin closed])) waiting := by
  rcases Run.within_or_entered (F := fun t : Machine => t.ota.state = .verify) s inputs verify with
    whole | ⟨reception, input, waiting, split, before, within⟩
  · have held : s.ota.state = .verify := whole.1
    rw [fresh] at held
    cases held
  · have front := ((Run.along_append _ s reception _).mp (split ▸ no)).1
    have entered : ((Run.after Machine.step s reception).step input).ota.state = .verify :=
      within.1
    have move := (Run.after Machine.step s reception).step_state input
    generalize ((Run.after Machine.step s reception).step input).ota.state = state
      at move entered
    cases move with
    | same => exact absurd entered before
    | idle | error | done | started | verified => cases entered
    | completed was closed found =>
        refine ⟨reception, closed, waiting, by rw [split, found], ?_, ?_⟩
        · exact Run.within_of_back (fun t e none => t.receiving_back e none) reception s front was
        · rw [Run.after_append, ← found]
          exact within

/-- A run without `OTA_Server_Start` from RECEIVING to CONFIRM. -/
theorem Machine.confirm_session (s : Machine) (inputs : List Input)
    (no : Run.Along Machine.step (fun t input => ¬ t.Starts input) s inputs)
    (fresh : s.ota.state = .receiving)
    (confirm : (Run.after Machine.step s inputs).ota.state = .confirm) :
    s.VerifiedSession s.ota.crcExpected inputs := by
  rcases Run.within_or_entered (F := fun t : Machine => t.ota.state = .confirm) s inputs confirm with
    whole | ⟨front, input, prompt, split, before, within⟩
  · have held : s.ota.state = .confirm := whole.1
    rw [fresh] at held
    cases held
  · have quiet := ((Run.along_append _ s front _).mp (split ▸ no)).1
    have entered : ((Run.after Machine.step s front).step input).ota.state = .confirm := within.1
    have move := (Run.after Machine.step s front).step_state input
    generalize ((Run.after Machine.step s front).step input).ota.state = state at move entered
    cases move with
    | same => exact absurd entered before
    | idle | error | done | started | completed => cases entered
    | verified was faults found checked =>
        have crc := (s.active_run front quiet (.inr (.inl was))).2
        obtain ⟨reception, closed, waiting, rfl, receiving, verify⟩ :=
          s.verify_session front quiet fresh was
        have polled : Run.after Machine.step s
            (reception ++ .fin closed :: (waiting ++ [.poll faults])) =
              (Run.after Machine.step s (reception ++ .fin closed :: waiting)).step input := by
          rw [found, ← List.cons_append, ← List.append_assoc, Run.after_append]
          rfl
        refine ⟨reception, closed, waiting, faults, prompt, ?_, receiving, verify, ?_, ?_⟩
        · rw [split, found, List.append_assoc, List.cons_append]
        · rw [polled]
          exact ⟨crc.symm, checked⟩
        · rw [polled]
          exact within

/-- The last `OTA_Server_Start` of the run began a session that is verified against the
CRC it was started with. -/
def Machine.EndsVerified (s : Machine) (inputs : List Input) : Prop :=
  ∃ before key result session crc,
    inputs = before ++ .updateKey key result :: session ∧
    (Run.after Machine.step s before).loc = .prompt crc ∧ isYes key = true ∧
    Run.Along Machine.step (fun t input => ¬ t.Starts input)
      (Run.after Machine.step s (before ++ [.updateKey key result])) session ∧
    (Run.after Machine.step s (before ++ [.updateKey key result])).VerifiedSession crc session

/-- `OTA_Flash_Write` is entered only at the end of a verified session, and a session
in ERROR stays unverified until the next `OTA_Server_Start`. -/
theorem flashWrite_verified (board : Board) (buf : Mem) (inputs : List Input) :
    (∀ input, (Run.after Machine.step (.powerOff board buf) inputs).FlashWrites input →
      (Machine.powerOff board buf).EndsVerified inputs) ∧
    ∀ before rest, inputs = before ++ rest →
      (Run.after Machine.step (.powerOff board buf) before).ota.state = .error →
      Run.Along Machine.step (fun t input => ¬ t.Starts input)
        (Run.after Machine.step (.powerOff board buf) before) rest →
      (Run.after Machine.step (.powerOff board buf) inputs).ota.state ≠ .verify ∧
        (Run.after Machine.step (.powerOff board buf) inputs).ota.state ≠ .confirm := by
  constructor
  · intro input writes
    have prompted := Run.invariant_always (I := Machine.Prompted)
      (fun s input held => s.step_prompted held input) inputs (.powerOff board buf)
      (Machine.prompted_of_loc (by simp [Machine.powerOff]))
    have confirm := prompted writes.1
    rcases Run.never_or_last Machine.Starts inputs (.powerOff board buf) with
      never | ⟨before, start, session, split, ⟨crc, key, result, prompt, rfl, yes⟩, none⟩
    · have active := (Machine.active_run _ inputs never (.inr (.inr confirm))).1
      simp [Machine.Active, Machine.powerOff, Ota.initial] at active
    · refine ⟨before, key, result, session, crc, split, prompt, yes, ?_, ?_⟩
      · rw [Run.after_append]
        exact none
      · have ended : Run.after Machine.step (.powerOff board buf) inputs = Run.after Machine.step
            ((Run.after Machine.step (.powerOff board buf) before).step (.updateKey key result))
            session := by
          rw [split, Run.after_append]
          rfl
        rw [ended] at confirm
        obtain ⟨set, state⟩ := Machine.step_starts _ crc prompt key yes result
        have active := (Machine.active_run _ session none (.inr (.inr confirm))).1
        have fresh : ((Run.after Machine.step (.powerOff board buf) before).step
            (.updateKey key result)).ota.state = .receiving := by
          rcases state with receiving | idle
          · exact receiving
          · simp [Machine.Active, idle] at active
        have verified := Machine.confirm_session _ session none fresh confirm
        rw [set] at verified
        rw [Run.after_append]
        exact verified
  · intro before rest split failed none
    have inactive : ¬ (Run.after Machine.step (.powerOff board buf) inputs).Active := by
      intro active
      rw [split, Run.after_append] at active
      have was := (Machine.active_run _ rest none active).1
      simp [Machine.Active, failed] at was
    exact ⟨fun verify => inactive (.inr (.inl verify)), fun confirm =>
      inactive (.inr (.inr confirm))⟩

def MenuFaults.clean : MenuFaults := ⟨⟨.clean, fun _ _ => .clean, .clean⟩, .clean, .clean⟩

/-- The header of a one-byte image and the byte. -/
def samplePacket : Pbuf := ⟨[0x4F, 0x54, 0x41, 0x00, 1, 0, 0, 0, 0x22], by decide⟩

/-- The menu is entered by KEY1, an update is accepted and received, and the client
closes. -/
def receivedSession : List Input :=
  [.reset ⟨.powerOn, .clean⟩ true .ok, .poll .clean, .menuKey key2 .clean,
    .versionChecked (.update (crc32Calculate [0x22]) ⟨1, 2, 3⟩), .updateKey 121 .listening,
    .accept, .triggerCheck false, .receive [samplePacket], .fin true]

theorem flashWrite_verified_session :
    (Run.after Machine.step (.powerOff confirmedBoard fun _ => 0)
      (receivedSession ++ [.poll .clean])).FlashWrites (.confirmKey 121 .clean) ∧
    (Machine.powerOff confirmedBoard fun _ => 0).EndsVerified
      (receivedSession ++ [.poll .clean]) := by
  have writes : (Run.after Machine.step (.powerOff confirmedBoard fun _ => 0)
      (receivedSession ++ [.poll .clean])).FlashWrites (.confirmKey 121 .clean) :=
    ⟨by decide +kernel, 121, .clean, rfl, by decide⟩
  exact ⟨writes, (flashWrite_verified _ _ _).1 _ writes⟩

end OtaBoot
