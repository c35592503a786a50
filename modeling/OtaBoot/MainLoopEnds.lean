import OtaBoot.MainLoop
import OtaBoot.DelayLoop
import OtaBoot.OtaPoll
import OtaBoot.FlashGate

set_option autoImplicit false

/- No wait of the program is for ever: if somebody is there to answer, each pass of the
main loop ends. -/
namespace OtaBoot

/-- A pass reads the clock when the wait has certainly lasted its time. -/
def Paced (seconds : Nat) (passes : List WaitPass) : Prop :=
  ∃ pass ∈ passes, seconds * sysClockFreq ≤ pass.elapsed ∧ pass.elapsed + sysClockFreq ≤ cycleWrap

/-- The clock is read often enough, and there is an answer that leads back to the menu. -/
structure UpdateTry.Answered (turn : UpdateTry) : Prop where
  wait : Paced 7 turn.wait
  escapes : ∃ pass ∈ turn.keys, pass.key = keyEsc
  leaves : ∃ pass ∈ turn.keys, pass.key = key1
  rounds : ∀ t, Paced 2 (turn.rounds t).passes

/-- Each try is answered, up to one in which nobody asks for another. -/
def Attended : List UpdateTry → Prop
  | [] => False
  | turn :: rest => turn.Answered ∧ ((∀ pass ∈ turn.keys, pass.key ≠ key2) ∨ Attended rest)

namespace Loop

open Prog

/-- The program goes on from here. -/
abbrev Returns {α : Type} (c : Control α) (s : Loop) (Q : α → Loop → Prop) : Prop :=
  Ensures c s Q fun _ _ => False

/-- Power is lost, the program resets itself, or it has started the App. -/
abbrev Leaves (place : Loc) (_ : Loop) : Prop := place = .off ∨ place = .app

abbrev Ends {α : Type} (c : Control α) (s : Loop) (Q : α → Loop → Prop) : Prop :=
  Ensures c s Q Leaves

theorem Returns.ends {α : Type} {c : Control α} {s : Loop} {Q : α → Loop → Prop}
    (returns : Returns c s Q) : Ends c s Q := returns.mono (fun _ _ held => held) fun _ _ => False.elim

theorem paced_inside {pass : WaitPass}
    (late : pass.elapsed + sysClockFreq ≤ cycleWrap) : pass.elapsed < cycleWrap := by
  simp only [sysClockFreq] at late
  omega

theorem versionWait_returns (t0 : Word) (passes : List WaitPass) (paced : Paced 7 passes) :
    ∀ s, Returns (versionWait t0 passes) s fun _ _ => True := by
  obtain ⟨pass, found, early, late⟩ := paced
  have ended := ((versionTimeout_certain_iff (paced_inside late)).mpr
    ⟨early, late⟩) t0
  induction passes with
  | nil => cases found
  | cons first rest ih =>
      intro s
      refine ensures_bind.mpr (ensures_ite (fun _ => trivial) fun _ => ?_)
      refine ensures_bind.mpr (ensures_ite (fun _ => trivial) fun more => ?_)
      rcases List.mem_cons.mp found with rfl | found
      · exact absurd ended more
      · exact ih found _

theorem triggerRound_returns (t : Nat) (tw0 : Word) (passes : List WaitPass)
    (paced : Paced 2 passes) : ∀ s, Returns (triggerRound t tw0 passes) s
      fun connected u => connected = true → u.server.client.isSome = true := by
  obtain ⟨pass, found, early, late⟩ := paced
  have ended := ((triggerWindow_certain_iff (paced_inside late)).mpr
    ⟨early, late⟩) tw0
  induction passes with
  | nil => cases found
  | cons first rest ih =>
      intro s
      refine ensures_ite (fun more => ?_) fun _ => ?_
      · refine ensures_bind.mpr (ensures_bind.mpr ?_)
        refine ensures_ite (fun connected _ => connected) fun _ => ?_
        rcases List.mem_cons.mp found with rfl | found
        · rw [ended] at more
          cases more
        · exact ih found _
      · intro absurd
        cases absurd

theorem triggerRounds_returns (rounds : Nat → TriggerRound)
    (paced : ∀ t, Paced 2 (rounds t).passes) (left : Nat) : ∀ t s,
    Returns (triggerRounds rounds left t) s
      fun connected u => connected = true → u.server.client.isSome = true := by
  induction left with
  | zero =>
      intro t s absurd
      cases absurd
  | succ left ih =>
      intro t s
      refine Ensures.bind _ (triggerRound_returns t _ _ (paced t) s) fun connected u found => ?_
      exact ensures_ite (fun yes _ => found yes) fun _ => ih (t + 1) u

/-- The return value 0 means that a client is connected. -/
abbrev Entered (entered : Bool) (t : Loop) : Prop :=
  entered = true → t.server.client.isSome = true

theorem cancelUpdate_returns (s : Loop) : Returns cancelUpdate s Entered := by
  intro absurd
  cases absurd

theorem acceptUpdate_returns (turn : UpdateTry) (answered : turn.Answered) (crc : Word) (s : Loop) :
    Returns (acceptUpdate turn crc) s Entered := by
  refine ensures_bind.mpr (ensures_bind.mpr ?_)
  refine ensures_ite (fun _ => ?_) fun _ => cancelUpdate_returns _
  refine Ensures.bind _ (triggerRounds_returns turn.rounds answered.rounds 3 0 _)
    fun connected u found => ?_
  exact ensures_ite (fun yes _ => found yes) fun _ => cancelUpdate_returns u

theorem promptLoop_returns (turn : UpdateTry) (answered : turn.Answered) (crc : Word)
    (keys : List KeyPass) (escapes : ∃ pass ∈ keys, pass.key = keyEsc) :
    ∀ s, Returns (promptLoop turn crc keys) s Entered := by
  obtain ⟨pass, found, esc⟩ := escapes
  induction keys with
  | nil => cases found
  | cons first rest ih =>
      intro s
      refine ensures_bind.mpr (ensures_ite (fun _ => acceptUpdate_returns turn answered crc _)
        fun _ => ensures_ite (fun _ absurd => by cases absurd) fun notNo => ?_)
      rcases List.mem_cons.mp found with rfl | found
      · rw [esc] at notNo
        exact absurd rfl notNo
      · exact ih found _

theorem upToDateLoop_returns (keys : List KeyPass) (escapes : ∃ pass ∈ keys, pass.key = keyEsc) :
    ∀ s, Returns (upToDateLoop keys) s Entered := by
  obtain ⟨pass, found, esc⟩ := escapes
  induction keys with
  | nil => cases found
  | cons first rest ih =>
      intro s
      refine ensures_bind.mpr (ensures_ite (fun _ absurd => by cases absurd) fun notEsc => ?_)
      rcases List.mem_cons.mp found with rfl | found
      · exact absurd esc notEsc
      · exact ih found _

theorem noServerLoop_returns (keys : List KeyPass) (leaves : ∃ pass ∈ keys, pass.key = key1) :
    ∀ s, Returns (noServerLoop keys) s
      fun retry _ => retry = true → ∃ pass ∈ keys, pass.key = key2 := by
  obtain ⟨pass, found, one⟩ := leaves
  induction keys with
  | nil => cases found
  | cons first rest ih =>
      intro s
      refine ensures_bind.mpr (ensures_ite (fun _ absurd => by cases absurd) fun notOne =>
        ensures_ite (fun two _ => ⟨first, List.mem_cons_self, two⟩) fun _ => ?_)
      rcases List.mem_cons.mp found with rfl | found
      · exact absurd one notOne
      · refine (ih found _).mono (fun retry _ asks yes => ?_) fun _ _ => id
        obtain ⟨pass, found, two⟩ := asks yes
        exact ⟨pass, List.mem_cons_of_mem _ found, two⟩

/-- `Firmware_Update` returns. -/
theorem firmwareUpdate_returns (tries : List UpdateTry) : Attended tries →
    ∀ s, Returns (firmwareUpdate tries) s Entered := by
  induction tries with
  | nil => exact False.elim
  | cons turn rest ih =>
      rintro ⟨answered, last⟩ s
      refine ensures_bind.mpr ?_
      refine Ensures.bind _ (versionWait_returns turn.t0 turn.wait answered.wait _) fun _ t _ => ?_
      refine ensures_bind.mpr (ensures_ite (fun _ => ?_) fun _ => ?_)
      · exact ensures_bind.mpr (ensures_bind.mpr
          (promptLoop_returns turn answered _ turn.keys answered.escapes _))
      · refine ensures_bind.mpr (ensures_ite (fun _ => ?_) fun _ => ?_)
        · exact upToDateLoop_returns turn.keys answered.escapes _
        · refine Ensures.bind _ (noServerLoop_returns turn.keys answered.leaves _)
            fun retry u asks => ensures_ite (fun yes => ?_) fun _ absurd => by cases absurd
          rcases last with never | attended
          · obtain ⟨pass, found, two⟩ := asks yes
            exact absurd two (never pass found)
          · exact ih attended u

theorem onBoard_ends {α : Type} {op : Op Board α} {s : Loop} {Q : α → Loop → Prop}
    (returns : ∀ value b, op s.board = (.done value, b) → Q value { s with board := b }) :
    Ends (onBoard op) s Q := by
  unfold Ends Ensures onBoard
  generalize run : op s.board = result
  obtain ⟨exit, b⟩ := result
  cases exit with
  | done value => exact returns value b run
  | cut => exact .inl rfl

theorem menuHandleKey_ends (key : Nat) (faults : MenuFaults) (tries : List UpdateTry)
    (attended : key = key2 → Attended tries) (s : Loop) :
    Ends (menuHandleKey key faults tries) s fun _ _ => True := by
  refine ensures_ite (fun two => ?_) fun _ => ensures_ite (fun _ => ?_) fun _ =>
    ensures_ite (fun _ => ?_) fun _ => ensures_ite (fun _ => .inl rfl) fun _ =>
    ensures_ite (fun _ => .inr rfl) fun _ => ensures_ite (fun _ => ?_) fun _ => trivial
  · refine ensures_bind.mpr (ensures_bind.mpr (ensures_ite (fun _ => trivial) fun _ => ?_))
    exact ensures_bind.mpr (ensures_bind.mpr
      ((firmwareUpdate_returns tries (attended two) _).ends.mono (fun _ _ _ => trivial) fun _ _ => id))
  · exact onBoard_ends fun _ _ _ => trivial
  · exact onBoard_ends fun _ _ _ => trivial
  · exact ensures_bind.mpr (ensures_bind.mpr (ensures_ite (fun _ => trivial) fun _ => trivial))

/-- After the answer the program is no longer in CONFIRM, unless it was none. -/
theorem confirmAnswer_ends (answer : Nat) (faults : UpdateFaults) (s : Loop) :
    Ends (confirmAnswer answer faults) s fun _ t =>
      isYes answer = true ∨ isNo answer = true → t.server.ota.state = .idle := by
  refine ensures_ite (fun _ => ?_) fun notYes => ensures_ite (fun _ _ => rfl) fun notNo => ?_
  · refine ensures_bind.mpr (ensures_bind.mpr (onBoard_ends fun wrote b _ => ?_))
    exact ensures_ite (fun _ => .inl rfl) fun _ _ => rfl
  · rintro (yes | no)
    · exact absurd yes notYes
    · exact absurd no notNo

/-- Nothing waits in VERIFY after `OTA_Poll`. -/
theorem poll_ends (faults : PollFaults) (s : Loop) :
    Ends (poll faults) s fun _ t => t.server.ota.state ≠ .verify := by
  refine ensures_bind.mpr (ensures_bind.mpr (onBoard_ends fun state b run => ?_))
  show state ≠ .verify
  have exit : (otaPoll faults s.server.ota s.board.nor).1 = .done state :=
    congrArg Prod.fst (show onNor (otaPoll faults s.server.ota) s.board = (.done state, b) from run)
  have polled : otaPoll faults s.server.ota s.board.nor =
      (.done state, (otaPoll faults s.server.ota s.board.nor).2) := Prod.ext exit rfl
  rcases otaPoll_cases faults _ _ _ state polled with ⟨other, rfl⟩ | ⟨-, rfl | ⟨rfl, -⟩⟩
  · exact other
  · decide
  · decide

theorem confirmStep_ends (answer : Nat) (faults : UpdateFaults) (s : Loop)
    (checked : s.server.ota.state ≠ .verify) :
    Ends (confirmStep answer faults) s fun _ t =>
      isYes answer = true ∨ isNo answer = true →
        t.server.ota.state ≠ .verify ∧ t.server.ota.state ≠ .confirm := by
  refine ensures_bind.mpr (ensures_ite (fun _ => ?_) fun other => ?_)
  · refine (confirmAnswer_ends answer faults s).mono (fun _ t idle answered => ?_) fun _ _ => id
    rw [idle answered]
    decide
  · intro _
    exact ⟨checked, fun confirm => other (beq_iff_eq.mpr confirm)⟩

theorem mainPass_ends (pass : Pass) (attended : pass.key = key2 → Attended pass.tries) (s : Loop) :
    Ends (mainPass pass) s fun _ _ => True := by
  refine ensures_bind.mpr (ensures_bind.mpr (ensures_ite (fun _ => ?_) fun _ => ?_))
  all_goals
    refine Ensures.bind _ (poll_ends pass.poll _) fun _ t checked => ?_
    refine Ensures.bind _ (confirmStep_ends pass.answer pass.write t checked) fun _ u _ => ?_
    exact ensures_ite (fun _ => menuHandleKey_ends _ _ _ attended u) fun _ => trivial

/-- `main` makes all passes of its loop, unless power is lost, it resets itself or it
starts the App: it waits nowhere for ever. -/
theorem main_ends (boot : Boot) (keyOn : Bool) (qspi : Status) (passes : List Pass)
    (attended : ∀ pass ∈ passes, pass.key = key2 → Attended pass.tries) (s : Loop) :
    Ends (main boot keyOn qspi passes) s fun _ _ => True := by
  have menu : ∀ t : Loop, Ends (interactiveMode qspi passes) t fun _ _ => True := by
    intro t
    have loops := ensures_forM (I := fun _ => True) (C := Leaves) passes
      fun pass found u _ => mainPass_ends pass (attended pass found) u
    refine Ensures.bind (fun _ _ => True) ?_ fun _ u _ => loops u trivial
    refine ensures_bind.mpr (ensures_ite (fun _ => trivial) fun _ => ?_)
    exact ensures_bind.mpr (onBoard_ends fun _ _ _ => trivial)
  refine ensures_bind.mpr (ensures_bind.mpr (onBoard_ends fun request b _ => ?_))
  exact ensures_ite (fun _ => menu _) fun _ => ensures_ite (fun _ => menu _) fun _ =>
    ensures_ite (fun _ => .inr rfl) fun _ => .inr rfl

/-- The clock is read every second, nobody answers, and after a while ESC and 1 are
pressed. -/
def silentTry : UpdateTry where
  connect := .connecting
  aborted := []
  t0 := 0
  wait := (List.range 9).map fun second => ⟨[], second * sysClockFreq⟩
  numbers := ⟨0, 0, 0⟩
  keys := [⟨[], 0⟩, ⟨[], keyEsc⟩, ⟨[], key1⟩]
  listen := .listening
  rounds := fun _ => ⟨0, (List.range 9).map fun second => ⟨[], second * sysClockFreq⟩⟩

theorem silentTry_answered : silentTry.Answered where
  wait := ⟨⟨[], 7 * sysClockFreq⟩, List.mem_map.mpr ⟨7, by decide, rfl⟩, by decide, by decide⟩
  escapes := ⟨⟨[], keyEsc⟩, by simp [silentTry], rfl⟩
  leaves := ⟨⟨[], key1⟩, by simp [silentTry], rfl⟩
  rounds := fun _ =>
    ⟨⟨[], 2 * sysClockFreq⟩, List.mem_map.mpr ⟨2, by decide, rfl⟩, by decide, by decide⟩

/-- The user asks for an update. -/
def updatePass : Pass := ⟨[], .clean, 0, .clean, key2, .clean, [silentTry]⟩

theorem updatePass_attended : Attended updatePass.tries := by
  refine ⟨silentTry_answered, .inl ?_⟩
  simp [silentTry]

theorem main_ends_update :
    Ends (main ⟨.powerOn, .clean⟩ true .ok [updatePass, updatePass])
      (fresh confirmedBoard fun _ => 0) fun _ _ => True := by
  apply main_ends
  intro pass found _
  simp only [List.mem_cons, List.not_mem_nil, or_false, or_self] at found
  rw [found]
  exact updatePass_attended

/-- One pass in which the user answers the question and presses ESC ends any session. -/
theorem escape_ends_session (pass : Pass) (answered : isYes pass.answer = true ∨ isNo pass.answer = true)
    (esc : pass.key = keyEsc) (s : Loop) :
    Ends (mainPass pass) s fun _ t =>
      t.server.ota.state = .idle ∨ t.server.ota.state = .error ∨ t.server.ota.state = .done := by
  refine ensures_bind.mpr (ensures_bind.mpr (ensures_ite (fun _ => ?_) fun _ => ?_))
  all_goals
    refine Ensures.bind _ (poll_ends pass.poll _) fun _ t checked => ?_
    refine Ensures.bind _ (confirmStep_ends pass.answer pass.write t checked) fun _ u after => ?_
    obtain ⟨notVerify, notConfirm⟩ := after answered
    unfold keyStep menuHandleKey
    rw [esc]
    refine ensures_bind.mpr (ensures_bind.mpr (ensures_ite (fun _ => .inl rfl) fun idle => ?_))
    show u.server.ota.state = .idle ∨ u.server.ota.state = .error ∨ u.server.ota.state = .done
    change ¬ (u.server.ota.state == .receiving || u.server.ota.state == .confirm) = true at idle
    revert idle notVerify notConfirm
    cases u.server.ota.state <;> decide

theorem escape_ends_session_receiving :
    let receiving := { fresh confirmedBoard (fun _ => 0) with
      server := ((Connections.initial fun _ => 0).start .listening).net .accept }
    Ends (mainPass ⟨[], .clean, 121, .clean, keyEsc, .clean, []⟩) receiving fun _ t =>
      t.server.ota.state = .idle ∨ t.server.ota.state = .error ∨ t.server.ota.state = .done :=
  escape_ends_session _ (.inl (by decide)) rfl _

end Loop

end OtaBoot
