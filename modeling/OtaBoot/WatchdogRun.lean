import OtaBoot.Device
import OtaBoot.TrialRun
import Mathlib.Tactic.IntervalCases

set_option autoImplicit false

namespace OtaBoot

theorem watchdog_iff (b : Board) : b.watchdog ↔ b.rsr.getLsbD 26 = true := by
  unfold Board.watchdog
  constructor
  · intro flagged
    by_contra clear
    apply flagged
    apply BitVec.eq_of_getLsbD_eq
    intro i below
    by_cases bit : i = 26
    · subst bit
      simp at clear
      simp [clear]
    · have other : rccRsrIwdg1Rstf.getLsbD i = false := by
        have small : i < 32 := below
        simp only [rccRsrIwdg1Rstf]
        interval_cases i <;> first | rfl | exact absurd rfl bit
      simp only [BitVec.getLsbD_and, other, Bool.and_false]
      exact BitVec.getLsbD_zero.symm
  · intro bit clear
    have same := congrArg (fun w : Word => w.getLsbD 26) clear
    rw [BitVec.getLsbD_and, bit] at same
    simp at same

/-- A power-on reset clears the flag, a watchdog reset sets it, the others keep it. -/
theorem watchdog_reset (b : Board) (cause : ResetCause) :
    (b.reset cause).watchdog ↔ cause = .iwdg ∨ b.watchdog ∧ cause ≠ .powerOn := by
  rw [watchdog_iff, watchdog_iff]
  cases cause <;> simp [Board.reset, ResetCause.flags]

/-- This boot takes the TESTING branch, which reads and clears the flags. -/
def Board.Trial (b : Board) : Prop := b.record.state = stateTesting

theorem bootBranch_notTrial (b : Board) (other : ¬ b.Trial) (cause : ResetCause) :
    (b.reset cause).bootBranch = .empty ∨ (b.reset cause).bootBranch = .pending ∨
      (b.reset cause).bootBranch = .direct := by
  have state : (b.reset cause).record.state ≠ stateTesting := other
  unfold Board.bootBranch
  simp only [state, ↓reduceIte]
  split
  · exact .inl rfl
  · split
    · exact .inr (.inl rfl)
    · exact .inr (.inr rfl)

/-- The boot step clears the reset flags in TESTING and only there. -/
theorem boot_rsr_trial (boot : Boot) (b : Board) (trial : b.Trial) : (boot.run b).2.rsr = 0 := by
  have branch := bootBranch_testing b boot.cause trial
  unfold Boot.run
  rw [bootMetadataStep_run]
  split at branch
  · have kept : Op.Keeps Board.rsr (rollbackStep boot.faults (b.reset boot.cause).record) := by
      apply (keeps_bootDoRollback _ _).bind
      intro ok
      exact ((keeps_onSector1 (fun _ _ => rfl) _).bind fun _ => Op.keeps_pure 2).ite (Op.keeps_pure 0)
    simp only [branch]
    exact kept { b.reset boot.cause with rsr := 0 }
  · simp only [branch]

theorem boot_rsr_other (boot : Boot) (b : Board) (other : ¬ b.Trial) :
    (boot.run b).2.rsr = (b.reset boot.cause).rsr := by
  unfold Boot.run
  rw [bootMetadataStep_run]
  rcases bootBranch_notTrial b other boot.cause with branch | branch | branch
  · simp only [branch]
  · simp only [branch]
    rw [pendingStep_run]
  · simp only [branch]

/-- A watchdog reset whose boot does not take the TESTING branch: the flag stays. -/
def Event.Leaves (b : Board) (event : Event) : Prop :=
  ∃ boot, event = .boot boot ∧ boot.cause = .iwdg ∧ ¬ b.Trial

/-- Neither a power-on reset nor a boot in TESTING. -/
def Event.Quiet (b : Board) (event : Event) : Prop :=
  ∀ boot, event = .boot boot → boot.cause ≠ .powerOn ∧ ¬ b.Trial

theorem watchdog_congr {b t : Board} (same : t.rsr = b.rsr) : t.watchdog ↔ b.watchdog := by
  unfold Board.watchdog
  rw [same]

theorem watchdog_step (b : Board) (event : Event) :
    (deviceStep b event).watchdog ↔ event.Leaves b ∨ b.watchdog ∧ event.Quiet b := by
  have untouched : ∀ t : Board, t.rsr = b.rsr → (∀ boot, event ≠ .boot boot) →
      (t.watchdog ↔ event.Leaves b ∨ b.watchdog ∧ event.Quiet b) := by
    intro t same other
    have never : ¬ event.Leaves b := fun ⟨boot, found, _⟩ => other boot found
    have quiet : event.Quiet b := fun boot found => absurd found (other boot)
    rw [watchdog_congr same]
    simp only [never, quiet, false_or, and_true]
  cases event with
  | update faults image =>
      apply untouched _ _ (by simp)
      exact keeps_otaFlashWrite faults image.update (b.staged image.content)
  | backup faults => exact untouched _ (keeps_backupSlotA faults b) (by simp)
  | restore faults record => exact untouched _ (keeps_restoreSlotA faults record b) (by simp)
  | confirm faults => exact untouched _ (keeps_appConfirm faults b) (by simp)
  | boot boot =>
      have leaves : Event.Leaves b (.boot boot) ↔ boot.cause = .iwdg ∧ ¬ b.Trial := by
        simp [Event.Leaves]
      have quiet : Event.Quiet b (.boot boot) ↔ boot.cause ≠ .powerOn ∧ ¬ b.Trial := by
        simp [Event.Quiet]
      rw [leaves, quiet]
      by_cases trial : b.Trial
      · have clear : ¬ (deviceStep b (.boot boot)).watchdog := by
          have zero : (deviceStep b (.boot boot)).rsr = 0 := boot_rsr_trial boot b trial
          rw [watchdog_iff, zero]
          simp
        simp only [clear, trial, not_true_eq_false, and_false, or_self]
      · have same : (deviceStep b (.boot boot)).rsr = (b.reset boot.cause).rsr :=
          boot_rsr_other boot b trial
        rw [watchdog_congr same, watchdog_reset]
        simp only [trial, not_false_eq_true, and_true]

theorem attempts_iff (boot : Boot) (b : Board) :
    boot.Attempts b ↔ b.Trial ∧ (boot.cause = .iwdg ∨ b.watchdog ∧ boot.cause ≠ .powerOn) := by
  unfold Boot.Attempts
  by_cases trial : b.Trial
  · rw [bootBranch_testing b boot.cause trial, ← watchdog_reset]
    by_cases flagged : (b.reset boot.cause).watchdog
    · simp only [flagged, trial, ↓reduceIte, and_self]
    · simp only [flagged, ↓reduceIte, reduceCtorEq, and_false]
  · simp only [trial, false_and, iff_false]
    rcases bootBranch_notTrial b trial boot.cause with branch | branch | branch
    · simp [branch]
    · simp [branch]
    · simp [branch]

/-- If this event is a boot that rolls back, the watchdog caused its reset. -/
def Event.RollbackWatched (b : Board) (event : Event) : Prop :=
  ∀ boot, event = .boot boot → boot.Attempts b → boot.cause = .iwdg

/-- A watchdog reset is met outside TESTING, and with neither a power-on reset nor a
boot in TESTING since, a pin or software reset is met in TESTING. -/
def StaleFlag (b : Board) (events : List Event) : Prop :=
  ∃ before hung between last rest,
    events = before ++ .boot hung :: (between ++ .boot last :: rest) ∧
    (hung.cause = .iwdg ∧ ¬ (Run.after deviceStep b before).Trial) ∧
    Run.Along deviceStep (fun s event => event.Quiet s)
      (Run.after deviceStep b (before ++ [.boot hung])) between ∧
    (last.cause = .pin ∨ last.cause = .software) ∧
    (Run.after deviceStep b (before ++ .boot hung :: between)).Trial

theorem watchdog_after (b : Board) (clear : ¬ b.watchdog) (events : List Event) :
    (Run.after deviceStep b events).watchdog ↔
      ∃ before hung rest, events = before ++ .boot hung :: rest ∧
        (hung.cause = .iwdg ∧ ¬ (Run.after deviceStep b before).Trial) ∧
        Run.Along deviceStep (fun s event => event.Quiet s)
          (Run.after deviceStep b (before ++ [.boot hung])) rest := by
  rw [Run.flag_after watchdog_step]
  constructor
  · intro up
    rcases up with held | ⟨before, event, rest, split, ⟨boot, rfl, left⟩, quiet⟩
    · exact absurd held.1 clear
    · refine ⟨before, boot, rest, split, left, ?_⟩
      rw [Run.after_append]
      exact quiet
  · intro up
    obtain ⟨before, hung, rest, split, left, quiet⟩ := up
    rw [Run.after_append] at quiet
    exact .inr ⟨before, .boot hung, rest, split, ⟨hung, rfl, left⟩, quiet⟩

/-- Exactly the runs with a stale watchdog flag roll back after another reset. -/
theorem rollback_watched_iff (b : Board) (clear : ¬ b.watchdog) (events : List Event) :
    Run.Along deviceStep (fun s event => event.RollbackWatched s) b events ↔
      ¬ StaleFlag b events := by
  rw [Run.along_iff]
  constructor
  · intro watched stale
    obtain ⟨before, hung, between, last, rest, split, left, quiet, cause, trial⟩ := stale
    have flagged : (Run.after deviceStep b (before ++ .boot hung :: between)).watchdog :=
      (watchdog_after b clear _).mpr ⟨before, hung, between, rfl, left, quiet⟩
    have tries : last.Attempts (Run.after deviceStep b (before ++ .boot hung :: between)) := by
      rw [attempts_iff]
      refine ⟨trial, .inr ⟨flagged, ?_⟩⟩
      rcases cause with pin | software
      · simp [pin]
      · simp [software]
    have list : events = (before ++ .boot hung :: between) ++ .boot last :: rest := by
      rw [split, List.append_assoc, List.cons_append]
    have reset := watched _ _ _ list last rfl tries
    rcases cause with pin | software
    · simp [pin] at reset
    · simp [software] at reset
  · intro fresh prior event rest split boot found tries
    by_contra other
    apply fresh
    rw [attempts_iff] at tries
    obtain ⟨trial, iwdg | ⟨flagged, cause⟩⟩ := tries
    · exact absurd iwdg other
    · obtain ⟨before, hung, between, inner, left, quiet⟩ := (watchdog_after b clear _).mp flagged
      refine ⟨before, hung, between, boot, rest, ?_, left, quiet, ?_, ?_⟩
      · rw [split, inner, found, List.append_assoc, List.cons_append]
      · cases reset : boot.cause with
        | powerOn => exact absurd reset cause
        | pin => exact .inl rfl
        | software => exact .inr rfl
        | iwdg => exact absurd reset other
      · rw [← inner]
        exact trial

theorem confirmedBoard_clear : ¬ confirmedBoard.watchdog := by
  decide

/-- A lone watchdog reset leaves nothing stale. -/
theorem rollback_watched_iff_single :
    Run.Along deviceStep (fun s event => event.RollbackWatched s) confirmedBoard
      [.boot ⟨.iwdg, .clean⟩] := by
  apply (rollback_watched_iff confirmedBoard confirmedBoard_clear _).mpr
  intro stale
  obtain ⟨before, hung, between, last, rest, split, _⟩ := stale
  have length := congrArg List.length split
  simp at length
  omega

/-- A one-byte image. -/
def sampleImage : Staged where
  update := ⟨1, crc32Calculate [0x22], 1, 2, 3⟩
  content := fun _ => 0x22
  fits := by decide

/-- The confirmed device hangs once; after a later update a pin reset during the
trial rolls the update back. -/
theorem rollback_after_pin_reset :
    ¬ confirmedBoard.watchdog ∧
      ¬ Run.Along deviceStep (fun s event => event.RollbackWatched s) confirmedBoard
        [.boot ⟨.iwdg, .clean⟩, .update .clean sampleImage, .boot ⟨.software, .clean⟩,
          .boot ⟨.pin, .clean⟩] := by
  refine ⟨confirmedBoard_clear, ?_⟩
  generalize hung : deviceStep confirmedBoard (.boot ⟨.iwdg, .clean⟩) = afterHang
  generalize updated : deviceStep afterHang (.update .clean sampleImage) = afterUpdate
  generalize started : deviceStep afterUpdate (.boot ⟨.software, .clean⟩) = trial
  have confirmed : ¬ confirmedBoard.Trial := by
    unfold Board.Trial
    rw [confirmedBoard_state]
    decide
  have flagHang : afterHang.watchdog := by
    rw [← hung]
    exact (watchdog_step _ _).mpr (.inl ⟨_, rfl, rfl, confirmed⟩)
  have flagUpdate : afterUpdate.watchdog := by
    rw [← updated]
    exact (watchdog_step _ _).mpr (.inr ⟨flagHang, fun _ found => nomatch found⟩)
  have pending : afterUpdate.record.state = statePendingUpdate := by
    rw [← updated, deviceStep_update, (otaFlashWrite_clean sampleImage.update (by decide)
      (afterHang.staged sampleImage.content)).2.2]
    rfl
  have notYet : ¬ afterUpdate.Trial := by
    unfold Board.Trial
    rw [pending]
    decide
  have flagTrial : trial.watchdog := by
    rw [← started]
    apply (watchdog_step _ _).mpr
    refine .inr ⟨flagUpdate, ?_⟩
    intro boot found
    injection found with same
    rw [← same]
    exact ⟨by simp, notYet⟩
  have testing : trial.Trial := by
    unfold Board.Trial
    rw [← started, deviceStep_boot, (boot_pending afterUpdate .software pending).2.2.2]
    rfl
  simp only [Run.Along, hung, updated, started]
  intro along
  have reset := along.2.2.2.1 ⟨.pin, .clean⟩ rfl ((attempts_iff _ _).mpr
    ⟨testing, .inr ⟨flagTrial, by simp⟩⟩)
  simp at reset

end OtaBoot
