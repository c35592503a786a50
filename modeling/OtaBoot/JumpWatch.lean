import OtaBoot.BootPhase
import OtaBoot.WatchdogRun
import OtaBoot.FlashGate

set_option autoImplicit false

namespace OtaBoot

/- Only `main` turns the watchdog on, and then it jumps. -/
section Watchdog

theorem Machine.perform_iwdg {α : Type} (s : Machine) (op : Op Board α) (next : Loc) :
    (s.perform op next).iwdg = s.iwdg := by
  unfold Machine.perform
  split <;> rfl

theorem Machine.poll_iwdg (s : Machine) (faults : PollFaults) :
    (s.poll faults).iwdg = s.iwdg := by
  unfold Machine.poll
  split <;> rfl

theorem Machine.confirmKey_iwdg (s : Machine) (key : Nat) (faults : UpdateFaults) :
    (s.confirmKey key faults).iwdg = s.iwdg := by
  unfold Machine.confirmKey
  split
  · split <;> rfl
  · split <;> rfl

theorem Machine.menuKey_iwdg (s : Machine) (key : Nat) (faults : MenuFaults) :
    (s.menuKey key faults).iwdg = s.iwdg := by
  unfold Machine.menuKey
  split
  · split <;> rfl
  · split
    · exact s.perform_iwdg _ _
    · split
      · exact s.perform_iwdg _ _
      · split
        · rfl
        · split
          · rfl
          · split <;> rfl

theorem Machine.promptKey_iwdg (s : Machine) (crc : Word) (key : Nat) (result : StartResult) :
    (s.promptKey crc key result).iwdg = s.iwdg := by
  unfold Machine.promptKey
  split
  · split <;> rfl
  · split <;> rfl

theorem Machine.triggerCheck_iwdg (s : Machine) (round : Nat) (elapsed : Bool) :
    (s.triggerCheck round elapsed).iwdg = s.iwdg := by
  unfold Machine.triggerCheck
  split
  · rfl
  · split
    · split <;> rfl
    · rfl

/-- The bootloader does not run: the App does, or nothing. -/
def Machine.Left (s : Machine) : Prop := s.loc = .app ∨ s.loc = .off

/-- While the bootloader runs the watchdog is off. -/
def Machine.Unwatched (s : Machine) : Prop := s.iwdg = true → s.Left

theorem Machine.enterMenu_iwdg (s : Machine) (qspi : Status) :
    (s.enterMenu qspi).iwdg = s.iwdg := by
  unfold Machine.enterMenu
  split
  · rfl
  · split <;> rfl

theorem Machine.main_unwatched (s : Machine) (boot : Boot) (key1 : Bool) (qspi : Status) :
    (s.main boot key1 qspi).Unwatched := by
  unfold Machine.main
  generalize started : s.restarted (boot.run s.board).2 = t
  have fresh : t.iwdg = false := by
    rw [← started]
    rfl
  have menu : (t.enterMenu qspi).Unwatched := by
    intro watched
    rw [t.enterMenu_iwdg, fresh] at watched
    cases watched
  generalize (boot.run s.board).1 = answer
  unfold Machine.dispatch
  cases answer with
  | cut =>
      intro watched
      rw [fresh] at watched
      cases watched
  | done request =>
      dsimp only
      split
      · exact menu
      · split
        · exact menu
        · split
          · exact fun _ => .inl rfl
          · exact fun _ => .inl rfl

theorem Machine.Unwatched.off {s : Machine} (held : s.Unwatched) (app : s.loc ≠ .app)
    (off : s.loc ≠ .off) : s.iwdg = false := by
  by_contra on
  rcases held (Bool.eq_true_of_not_eq_false on) with found | found
  · exact app found
  · exact off found

theorem Machine.Unwatched.at {s : Machine} (held : s.Unwatched) {loc : Loc} (found : s.loc = loc)
    (app : loc ≠ .app) (off : loc ≠ .off) : s.iwdg = false :=
  held.off (found ▸ app) (found ▸ off)

theorem Machine.unwatched_of_iwdg {s t : Machine} (off : s.iwdg = false) (same : t.iwdg = s.iwdg) :
    t.Unwatched := by
  intro on
  rw [same, off] at on
  cases on

theorem Machine.Unwatched.listening {s : Machine} (held : s.Unwatched) (listens : s.listens = true) :
    s.iwdg = false := by
  apply held.off
  · intro app
    simp [Machine.listens, app] at listens
  · intro off
    simp [Machine.listens, off] at listens

theorem Machine.step_unwatched (s : Machine) (held : s.Unwatched) (input : Input) :
    (s.step input).Unwatched := by
  have move := s.step_move input
  generalize s.step input = t at move ⊢
  cases move with
  | ignored => exact held
  | reset boot key1 qspi => exact s.main_unwatched boot key1 qspi
  | accept listens => exact Machine.unwatched_of_iwdg (held.listening listens) rfl
  | receive listens => exact Machine.unwatched_of_iwdg (held.listening listens) rfl
  | fin listens => exact Machine.unwatched_of_iwdg (held.listening listens) rfl
  | err listens => exact Machine.unwatched_of_iwdg (held.listening listens) rfl
  | poll found faults =>
      have off := held.at found (by simp) (by simp)
      exact Machine.unwatched_of_iwdg off (s.poll_iwdg faults)
  | confirmKey found key faults =>
      have off := held.at found (by simp) (by simp)
      exact Machine.unwatched_of_iwdg off (s.confirmKey_iwdg key faults)
  | menuKey found key faults =>
      have off := held.at found (by simp) (by simp)
      exact Machine.unwatched_of_iwdg off (s.menuKey_iwdg key faults)
  | versionChecked found result =>
      have off := held.at found (by simp) (by simp)
      apply Machine.unwatched_of_iwdg off
      cases result <;> rfl
  | promptKey crc found key result =>
      have off := held.at found (by simp) (by simp)
      exact Machine.unwatched_of_iwdg off (s.promptKey_iwdg crc key result)
  | leave found key result next target =>
      have off : s.iwdg = false := by
        rcases found with found | found
        · exact held.at found (by simp) (by simp)
        · exact held.at found (by simp) (by simp)
      exact Machine.unwatched_of_iwdg off rfl
  | triggerCheck round found elapsed =>
      have off := held.at found (by simp) (by simp)
      exact Machine.unwatched_of_iwdg off (s.triggerCheck_iwdg round elapsed)
  | appConfirm found faults =>
      intro _
      unfold Machine.perform
      split
      · exact .inl rfl
      · exact .inr rfl

end Watchdog

/-- The stored state is PENDING_UPDATE or TESTING. -/
def Board.OnTrial (b : Board) : Prop :=
  b.record.state = statePendingUpdate ∨ b.record.state = stateTesting

/-- This input executes `JumpToApp`: a boot without KEY1 that answers 1 or 2, or key 5. -/
def Machine.Jumps (s : Machine) (input : Input) : Prop :=
  (∃ boot qspi request, input = .reset boot false qspi ∧
    (boot.run s.board).1 = .done request ∧ request ≠ 0) ∨
  s.loc = .menu ∧ ∃ faults, input = .menuKey key5 faults

/-- A jump on trial finds the watchdog on. -/
def Machine.JumpWatched (s : Machine) (input : Input) : Prop :=
  s.Jumps input → (s.step input).board.OnTrial → (s.step input).iwdg = true

/-- A rollback that restores the image, but whose record write fails with the sector
not erased. -/
structure Boot.LosesRecord (boot : Boot) (b : Board) : Prop where
  attempts : boot.Attempts b
  init : boot.faults.init = .ok
  present : ¬ b.backupBlank
  restore : boot.faults.restore.Completes
  stage : boot.faults.record.stage = .unchanged
  powered : boot.faults.record.exit ≠ .cut

theorem Boot.LosesRecord.completes {boot : Boot} {b : Board} (loses : boot.LosesRecord b) :
    boot.Completes b :=
  (completes_iff boot b).mpr ⟨loses.attempts, loses.init, loses.present, loses.restore⟩

/-- The rollback answers 2 if its record write returns. -/
theorem boot_completed_answer (boot : Boot) (b : Board) (completed : boot.Completes b) :
    (boot.run b).1 = .done 2 ↔ boot.faults.record.exit ≠ .cut := by
  have branch : (b.reset boot.cause).bootBranch = .rollback := completed.1
  unfold Boot.run
  rw [bootMetadataStep_run]
  simp only [branch]
  rw [rollbackStep_completed _ _ _ completed.2]
  generalize boot.faults.record.exit = ending
  cases ending with
  | done _ => simp
  | cut => simp

theorem restored_onTrial_iff (b t : Board) (testing : b.record.state = stateTesting)
    (stage : MetaStage) (sector1 : t.sector1 = stage.memory b.record.restored b.sector1) :
    t.OnTrial ↔ stage = .unchanged := by
  have state : t.record.state = (metadataRead (stage.memory b.record.restored b.sector1)).state :=
    congrArg (fun m => (metadataRead m).state) sector1
  have confirmed : b.record.restored.state = stateConfirmed := rfl
  rw [memory_readState] at state
  unfold Board.OnTrial
  rw [state]
  cases stage with
  | unchanged => exact iff_of_true (.inr testing) rfl
  | erased =>
      have other : ¬ (stateEmpty = statePendingUpdate ∨ stateEmpty = stateTesting) := by decide
      exact iff_of_false other (by simp)
  | half | full =>
      have other : ¬ (stateConfirmed = statePendingUpdate ∨ stateConfirmed = stateTesting) := by
        decide
      simp only [confirmed]
      exact iff_of_false other (by simp)

/-- A boot that jumps on trial without the watchdog has lost its record. -/
theorem boot_unwatched_iff (boot : Boot) (b : Board) (request : Nat)
    (answer : (boot.run b).1 = .done request) (jumps : request ≠ 0) :
    (boot.run b).2.OnTrial ∧ request ≠ 1 ↔ boot.LosesRecord b := by
  have phase := boot_phase boot b
  have returns := boot_completed_answer boot b
  rw [answer] at phase returns
  generalize (boot.run b).2 = t at phase ⊢
  cases phase with
  | menu _ empty same => exact absurd rfl jumps
  | trial _ _ pending ending bank2 nor sector1 =>
      apply iff_of_false
      · simp at ending
        simp [ending]
      · intro loses
        have testing := ((attempts_iff boot b).mp loses.attempts).1
        unfold Board.Trial at testing
        rw [pending] at testing
        exact absurd testing (by decide)
  | stay _ testing idle same =>
      apply iff_of_false
      · simp
      · intro loses
        exact idle loses.attempts
  | stopped _ _ testing tried failed ending sector1 nor =>
      simp at ending
      exact absurd ending jumps
  | restored _ _ testing completed ending bank2 nor sector1 =>
      have two : request = 2 := by simpa using ending
      obtain ⟨tried, init, present, restore⟩ := (completes_iff boot b).mp completed
      have powered := (returns completed).mp (by rw [two])
      rw [restored_onTrial_iff b t testing _ sector1]
      constructor
      · intro unwatched
        exact ⟨tried, init, present, restore, unwatched.1, powered⟩
      · intro loses
        exact ⟨loses.stage, by omega⟩
  | direct _ empty pending testing same =>
      apply iff_of_false
      · rintro ⟨trial | trial, _⟩
        · rw [same.record] at trial
          exact pending trial
        · rw [same.record] at trial
          exact testing trial
      · intro loses
        exact testing ((attempts_iff boot b).mp loses.attempts).1

theorem Machine.main_jump (s : Machine) (boot : Boot) (qspi : Status) (request : Nat)
    (answer : (boot.run s.board).1 = .done request) (jumps : request ≠ 0) :
    (s.main boot false qspi).board = (boot.run s.board).2 ∧
      ((s.main boot false qspi).iwdg = true ↔ request = 1) := by
  unfold Machine.main
  rw [answer]
  unfold Machine.dispatch
  simp only [Bool.false_eq_true, ↓reduceIte, jumps]
  by_cases watched : request = 1
  · rw [if_pos watched]
    exact ⟨rfl, iff_of_true rfl watched⟩
  · rw [if_neg watched]
    exact ⟨rfl, iff_of_false (by simp [Machine.restarted]) watched⟩

/-- A boot without KEY1 that loses its record, or key 5 on trial. -/
def Machine.SkipsWatchdog (s : Machine) (input : Input) : Prop :=
  (∃ boot qspi, input = .reset boot false qspi ∧ boot.LosesRecord s.board) ∨
  s.loc = .menu ∧ (∃ faults, input = .menuKey key5 faults) ∧ s.board.OnTrial

theorem Machine.menuKey_jump (s : Machine) (menu : s.loc = .menu) (faults : MenuFaults) :
    s.step (.menuKey key5 faults) = { s with loc := .app } := by
  unfold Machine.step
  dsimp only
  rw [if_pos menu]
  rfl

theorem Machine.jumpWatched_iff (s : Machine) (held : s.Unwatched) (input : Input) :
    s.JumpWatched input ↔ ¬ s.SkipsWatchdog input := by
  constructor
  · intro watched skips
    rcases skips with ⟨boot, qspi, rfl, loses⟩ | ⟨menu, ⟨faults, rfl⟩, trial⟩
    · have answer := (boot_completed_answer boot s.board loses.completes).mpr loses.powered
      have unwatched := (boot_unwatched_iff boot s.board 2 answer (by decide)).mpr loses
      obtain ⟨board, iwdg⟩ := s.main_jump boot qspi 2 answer (by decide)
      have on := watched (.inl ⟨boot, qspi, 2, rfl, answer, by decide⟩)
        (board ▸ unwatched.1)
      exact unwatched.2 (iwdg.mp on)
    · have off := held.at menu (by simp) (by simp)
      have on := watched (.inr ⟨menu, faults, rfl⟩)
      rw [s.menuKey_jump menu faults] at on
      have same : s.iwdg = true := on trial
      rw [off] at same
      cases same
  · intro safe jumps trial
    rcases jumps with ⟨boot, qspi, request, rfl, answer, nonzero⟩ | ⟨menu, faults, rfl⟩
    · obtain ⟨board, iwdg⟩ := s.main_jump boot qspi request answer nonzero
      apply iwdg.mpr
      by_contra other
      apply safe
      left
      refine ⟨boot, qspi, rfl, (boot_unwatched_iff boot s.board request answer nonzero).mp ?_⟩
      rw [← board]
      exact ⟨trial, other⟩
    · rw [s.menuKey_jump menu faults] at trial
      exact absurd (.inr ⟨menu, ⟨faults, rfl⟩, trial⟩) safe

/-- Exactly the runs without key 5 on trial and without a boot that loses the record of
its rollback keep the firmware on trial watched. -/
theorem trial_watched_iff (board : Board) (buf : Mem) (inputs : List Input) :
    Run.Along Machine.step Machine.JumpWatched (.powerOff board buf) inputs ↔
      Run.Along Machine.step (fun s input => ¬ s.SkipsWatchdog input) (.powerOff board buf)
        inputs := by
  have start : (Machine.powerOff board buf).Unwatched := fun _ => .inr rfl
  have reached : ∀ before, (Run.after Machine.step (.powerOff board buf) before).Unwatched :=
    fun before => Run.invariant_always (I := Machine.Unwatched)
      (fun s input held => s.step_unwatched held input) before (.powerOff board buf) start
  rw [Run.along_iff, Run.along_iff]
  constructor
  · intro watched before input rest split
    exact (Machine.jumpWatched_iff _ (reached before) input).mp (watched before input rest split)
  · intro safe before input rest split
    exact (Machine.jumpWatched_iff _ (reached before) input).mpr (safe before input rest split)

/-- A device in its trial period. -/
def trialBoard : Board :=
  Board.holding { Metadata.fresh with state := stateTesting } (fun _ => 0x22) (fun _ => 0x11)

/-- KEY1 at a pin reset during the trial, then key 5. -/
theorem key5_jumps_unwatched :
    ¬ Run.Along Machine.step Machine.JumpWatched (.powerOff trialBoard fun _ => 0)
      [.reset ⟨.pin, .clean⟩ true .ok, .poll .clean, .menuKey key5 .clean] := by
  intro along
  have menu : (Run.after Machine.step (.powerOff trialBoard fun _ => 0)
      [.reset ⟨.pin, .clean⟩ true .ok, .poll .clean]).loc = .menu := by decide +kernel
  have testing : (Run.after Machine.step (.powerOff trialBoard fun _ => 0)
      [.reset ⟨.pin, .clean⟩ true .ok, .poll .clean, .menuKey key5 .clean]).board.record.state =
        stateTesting := by decide +kernel
  have on := along.2.2.1 (.inr ⟨menu, .clean, rfl⟩) (.inr testing)
  revert on
  decide +kernel

end OtaBoot
