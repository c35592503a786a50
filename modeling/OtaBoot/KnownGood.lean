import OtaBoot.BootPhase
import OtaBoot.WatchdogRun

set_option autoImplicit false

namespace OtaBoot

open Mem

theorem appConfirm_run (faults : MetaFaults) (b : Board) :
    (appConfirm faults b).2 =
      if b.record.state = stateTesting then
        { b with sector1 := faults.stage.memory b.record.confirmed b.sector1 }
      else b := by
  unfold appConfirm
  rw [Op.gets_bind_run]
  split
  · rw [Op.bind_run, recordWrite_run]
    generalize faults.exit = ending
    cases ending <;> rfl
  · rfl

/-- The two memories hold the same 1 MB. -/
def SameImage (m n : Mem) : Prop := ∀ i < appSize, m i = n i

/-- The 1 MB of the backup area. -/
def Board.backupImage (b : Board) : Mem := fun i => b.nor (backupOffset + i)

/-- A device with the images that have been good so far: in Bank 2 at the start, or
when the App confirmed. -/
structure Tracked where
  board : Board
  good : List Mem

namespace Tracked

def IsGood (s : Tracked) (m : Mem) : Prop := ∃ image ∈ s.good, SameImage m image

/-- A confirmation makes the image in Bank 2 good. -/
def goodAfter (s : Tracked) (event : Event) : List Mem :=
  match event with
  | .confirm _ =>
    if s.board.record.state = stateTesting then s.board.bank2 :: s.good else s.good
  | _ => s.good

def step (s : Tracked) (event : Event) : Tracked := ⟨deviceStep s.board event, s.goodAfter event⟩

theorem step_board (s : Tracked) (event : Event) :
    (s.step event).board = deviceStep s.board event := rfl

theorem step_good (s : Tracked) (event : Event) : (s.step event).good = s.goodAfter event := rfl

theorem IsGood.congr {s : Tracked} {m n : Mem} (good : s.IsGood m) (same : SameImage n m) :
    s.IsGood n := by
  obtain ⟨image, found, equal⟩ := good
  exact ⟨image, found, fun i inside => (same i inside).trans (equal i inside)⟩

/-- What was good stays good. -/
theorem IsGood.step {s : Tracked} {m : Mem} (good : s.IsGood m) (event : Event) :
    (s.step event).IsGood m := by
  obtain ⟨image, found, equal⟩ := good
  refine ⟨image, ?_, equal⟩
  rw [Tracked.step_good]
  cases event with
  | confirm faults =>
      unfold goodAfter
      simp only
      split
      · exact List.mem_cons_of_mem _ found
      · exact found
  | boot boot => exact found
  | update faults image => exact found
  | backup faults => exact found
  | restore faults record => exact found

end Tracked

def ManualBackupFaults.clean : ManualBackupFaults := ⟨.clean, fun _ _ => .clean, .clean⟩

theorem ManualBackupFaults.clean_physical : ManualBackupFaults.clean.Physical :=
  ⟨⟨fun _ _ => ChipFault.clean_sound, fun _ _ => ChipFault.clean_sound⟩,
    fun _ _ => ChipFault.clean_sound, fun _ _ => ChipFault.clean_bitwise⟩

theorem ManualBackupFaults.clean_completes : ManualBackupFaults.clean.Completes :=
  ⟨Qspi.EraseFaults.clean_completes 16, fun _ _ _ _ => rfl⟩

/-- An update, manual backup, boot or confirmation without failures. -/
def Event.FaultFree : Event → Prop
  | .boot start => start.faults = .clean
  | .update faults _ => faults = .clean
  | .backup faults => faults = .clean
  | .restore _ _ => False
  | .confirm faults => faults = .clean

/-- An update or manual backup starts with a good image in Bank 2. -/
def Event.StartsGood (s : Tracked) (event : Event) : Prop :=
  match event with
  | .update _ _ => s.IsGood s.board.bank2
  | .backup _ => s.IsGood s.board.bank2
  | _ => True

/-- Whichever image a rollback of this device would bring back is good. -/
structure Tracked.Safe (s : Tracked) : Prop where
  confirmed : s.board.record.state = stateConfirmed → s.IsGood s.board.bank2
  onTrial : s.board.record.state = statePendingUpdate ∨ s.board.record.state = stateTesting →
    s.IsGood s.board.backupImage

/-- Goodness carries over to the next state when the bytes do. -/
theorem Tracked.Safe.of_bytes {s t : Tracked} (event : Event) (next : t = s.step event)
    (confirmed : t.board.record.state = stateConfirmed →
      ∃ m, s.IsGood m ∧ SameImage t.board.bank2 m)
    (onTrial : t.board.record.state = statePendingUpdate ∨ t.board.record.state = stateTesting →
      ∃ m, s.IsGood m ∧ SameImage t.board.backupImage m) : t.Safe := by
  subst next
  constructor
  · intro state
    obtain ⟨m, good, same⟩ := confirmed state
    exact (good.step event).congr same
  · intro state
    obtain ⟨m, good, same⟩ := onTrial state
    exact (good.step event).congr same

theorem SameImage.of_eq {m n : Mem} (same : m = n) : SameImage m n := fun _ _ => by rw [same]

theorem backupImage_congr {b t : Board} (same : t.nor = b.nor) : t.backupImage = b.backupImage := by
  unfold Board.backupImage
  rw [same]

theorem sameImage_backup {b : Board} {m : Mem}
    (bytes : ∀ i < appSize, b.nor (backupOffset + i) = m i) : SameImage b.backupImage m := bytes

theorem safe_update (s : Tracked) (image : Staged) (good : s.IsGood s.board.bank2) :
    (s.step (.update .clean image)).Safe := by
  have fits := image.fitsApp
  have written := otaFlashWrite_clean image.update fits (s.board.staged image.content)
  rw [← deviceStep_update, ← Tracked.step_board] at written
  generalize next : s.step (.update .clean image) = t at written ⊢
  apply Tracked.Safe.of_bytes (.update .clean image) next.symm
  · intro state
    rw [written.2.2] at state
    have pending : statePendingUpdate = stateConfirmed := state
    exact absurd pending (by decide)
  · intro _
    have backup := written.2.1.backup
    rw [Board.staged_bank2] at backup
    exact ⟨s.board.bank2, good, sameImage_backup backup⟩

theorem safe_backup (s : Tracked) (safe : s.Safe) (good : s.IsGood s.board.bank2) :
    (s.step (.backup .clean)).Safe := by
  have phase := backupSlotA_phase .clean ManualBackupFaults.clean_physical s.board
  rw [← deviceStep_backup, ← Tracked.step_board] at phase
  generalize next : s.step (.backup .clean) = t at phase ⊢
  apply Tracked.Safe.of_bytes (.backup .clean) next.symm
  · intro state
    refine ⟨s.board.bank2, good, ?_⟩
    generalize t.board = u at phase
    cases phase with
    | skipped invalid => exact .of_eq rfl
    | stopped _ valid failed only => exact .of_eq only.bank2
    | recorded valid backup =>
        rw [Board.recorded_bank2, Board.backedUp_bank2]
        exact .of_eq rfl
  · intro state
    generalize t.board = u at phase state ⊢
    cases phase with
    | skipped invalid => exact ⟨_, safe.onTrial state, .of_eq rfl⟩
    | stopped _ valid failed only => exact absurd ManualBackupFaults.clean_completes failed
    | recorded valid backup =>
        refine ⟨s.board.bank2, good, ?_⟩
        rw [backupImage_congr (Board.recorded_nor s.board.backedUp _)]
        exact s.board.backedUp_nor

theorem safe_confirm (s : Tracked) (safe : s.Safe) (faults : MetaFaults)
    (clean : faults = .clean) : (s.step (.confirm faults)).Safe := by
  subst clean
  have run := appConfirm_run .clean s.board
  rw [← deviceStep_confirm, ← Tracked.step_board] at run
  by_cases testing : s.board.record.state = stateTesting
  · rw [if_pos testing] at run
    constructor
    · intro _
      refine ⟨s.board.bank2, ?_, ?_⟩
      · rw [Tracked.step_good]
        simp only [Tracked.goodAfter, testing, ↓reduceIte]
        exact List.mem_cons_self
      · rw [run]
        exact .of_eq rfl
    · intro state
      have record : (s.step (.confirm .clean)).board.record.state = stateConfirmed := by
        rw [run]
        exact congrArg Metadata.state (metadataRead_full _ _)
      rw [record] at state
      exact absurd state (by decide)
  · rw [if_neg testing] at run
    apply Tracked.Safe.of_bytes _ rfl
    · intro state
      rw [run] at state ⊢
      exact ⟨_, safe.confirmed state, .of_eq rfl⟩
    · intro state
      rw [run] at state ⊢
      exact ⟨_, safe.onTrial state, .of_eq rfl⟩

theorem safe_same (s t : Tracked) (safe : s.Safe) (event : Event) (next : t = s.step event)
    (same : SameFlash s.board t.board) : t.Safe := by
  apply Tracked.Safe.of_bytes event next
  · intro state
    rw [same.record] at state
    exact ⟨_, safe.confirmed state, .of_eq same.bank2⟩
  · intro state
    rw [same.record] at state
    exact ⟨_, safe.onTrial state, .of_eq (backupImage_congr same.nor)⟩

theorem safe_boot (s : Tracked) (safe : s.Safe) (boot : Boot) (clean : boot.faults = .clean) :
    (s.step (.boot boot)).Safe := by
  have phase := boot_phase boot s.board
  rw [← deviceStep_boot, ← Tracked.step_board] at phase
  generalize next : s.step (.boot boot) = t at phase ⊢
  generalize (boot.run s.board).1 = exit at phase
  have stage : boot.faults.record.stage = .full := by
    rw [clean]
    rfl
  cases phase with
  | menu _ empty same => exact safe_same s t safe _ next.symm same
  | stay _ testing idle same => exact safe_same s t safe _ next.symm same
  | direct _ empty pending testing same => exact safe_same s t safe _ next.symm same
  | trial _ _ pending ending bank2 nor sector1 =>
      rw [stage] at sector1
      have started : t.board.record.state = stateTesting := by
        unfold Board.record
        rw [sector1, metadataRead_full]
        rfl
      apply Tracked.Safe.of_bytes _ next.symm
      · intro state
        rw [started] at state
        exact absurd state (by decide)
      · intro _
        exact ⟨_, safe.onTrial (.inl pending), .of_eq (backupImage_congr nor)⟩
  | stopped _ _ testing tried failed ending sector1 nor =>
      have still : t.board.record.state = stateTesting := by
        unfold Board.record
        rw [sector1]
        exact testing
      apply Tracked.Safe.of_bytes _ next.symm
      · intro state
        rw [still] at state
        exact absurd state (by decide)
      · intro _
        exact ⟨_, safe.onTrial (.inr testing), .of_eq (backupImage_congr nor)⟩
  | restored _ _ testing completed ending bank2 nor sector1 =>
      rw [stage] at sector1
      have confirmed : t.board.record.state = stateConfirmed := by
        unfold Board.record
        rw [sector1, metadataRead_full]
        rfl
      apply Tracked.Safe.of_bytes _ next.symm
      · intro _
        exact ⟨_, safe.onTrial (.inr testing), bank2⟩
      · intro state
        rw [confirmed] at state
        rcases state with pending | trial
        · exact absurd pending (by decide)
        · exact absurd trial (by decide)

/-- One fault-free event that starts no backup of an image on trial keeps the
rollback image good. -/
theorem safe_step (s : Tracked) (event : Event) (safe : s.Safe)
    (permitted : event.FaultFree ∧ event.StartsGood s) : (s.step event).Safe := by
  obtain ⟨clean, good⟩ := permitted
  cases event with
  | boot boot => exact safe_boot s safe boot clean
  | update faults image =>
      have same : faults = .clean := clean
      subst same
      exact safe_update s image good
  | backup faults =>
      have same : faults = .clean := clean
      subst same
      exact safe_backup s safe good
  | restore faults record => exact clean.elim
  | confirm faults => exact safe_confirm s safe faults clean

/-- If this event is a boot that completes a rollback and stores CONFIRMED, the 1 MB
it copied from the backup area into Bank 2 is a good image. -/
def Event.RestoresGood (s : Tracked) (event : Event) : Prop :=
  ∀ start, event = .boot start → start.Completes s.board →
    (s.step event).board.record.state = stateConfirmed →
    SameImage (s.step event).board.bank2 s.board.backupImage ∧
      s.IsGood (s.step event).board.bank2

theorem restoresGood (s : Tracked) (event : Event) (safe : s.Safe) : event.RestoresGood s := by
  intro start found completed confirmed
  subst found
  have step := bootStep_completed s.board start completed
  have copied : SameImage (s.step (.boot start)).board.bank2 s.board.backupImage := step.2.1
  have testing := ((attempts_iff start s.board).mp completed.1).1
  exact ⟨copied, (safe.onTrial (.inr testing)).congr copied⟩

/-- In every fault-free run from a confirmed device whose updates and manual backups
start with a good image in Bank 2, every completed rollback restores a good image. -/
theorem rollback_restores_good (b : Board) (confirmed : b.record.state = stateConfirmed)
    (events : List Event)
    (permitted : Run.Along Tracked.step (fun s event => event.FaultFree ∧ event.StartsGood s)
      ⟨b, [b.bank2]⟩ events) :
    Run.Along Tracked.step (fun s event => event.RestoresGood s) ⟨b, [b.bank2]⟩ events := by
  have start : Tracked.Safe ⟨b, [b.bank2]⟩ := by
    constructor
    · intro _
      exact ⟨b.bank2, List.mem_cons_self, .of_eq rfl⟩
    · intro state
      rcases state with pending | testing
      · exact absurd (confirmed.symm.trans pending) (by decide)
      · exact absurd (confirmed.symm.trans testing) (by decide)
  exact Run.invariant_along safe_step (fun s event safe _ => restoresGood s event safe) events _
    start permitted

/-- A fault-free update of the confirmed device, its first boot and a hang. -/
theorem rollback_restores_good_hang :
    Run.Along Tracked.step (fun s event => event.RestoresGood s)
      ⟨confirmedBoard, [confirmedBoard.bank2]⟩
      [.update .clean sampleImage, .boot ⟨.software, .clean⟩, .boot ⟨.iwdg, .clean⟩] := by
  apply rollback_restores_good confirmedBoard confirmedBoard_state
  have start : Tracked.IsGood ⟨confirmedBoard, [confirmedBoard.bank2]⟩ confirmedBoard.bank2 :=
    ⟨confirmedBoard.bank2, List.mem_cons_self, .of_eq rfl⟩
  exact ⟨⟨rfl, start⟩, ⟨rfl, trivial⟩, ⟨rfl, trivial⟩, trivial⟩

/-- An update and the boot that starts its trial. -/
def trialEvents (image : Staged) : List Event :=
  [.update .clean image, .boot ⟨.software, .clean⟩]

theorem after_trialEvents (s : Tracked) (image : Staged) :
    (Run.after Tracked.step s (trialEvents image)).board.record.state = stateTesting ∧
      (∀ i < image.update.received,
        (Run.after Tracked.step s (trialEvents image)).board.bank2 i =
          (s.board.staged image.content).nor i) ∧
      SameImage (Run.after Tracked.step s (trialEvents image)).board.backupImage s.board.bank2 ∧
      (Run.after Tracked.step s (trialEvents image)).good = s.good := by
  have fits := image.fitsApp
  have written := otaFlashWrite_clean image.update fits (s.board.staged image.content)
  have kept : (s.step (.update .clean image)).good = s.good := s.step_good _
  rw [← deviceStep_update, ← Tracked.step_board] at written
  unfold trialEvents
  rw [Run.after_cons, Run.after_cons, Run.after_nil]
  generalize s.step (.update .clean image) = t at written kept ⊢
  have pending : t.board.record.state = statePendingUpdate := by
    rw [written.2.2]
    rfl
  have started := boot_pending t.board .software pending
  have good : (t.step (.boot ⟨.software, .clean⟩)).good = t.good := t.step_good _
  rw [← deviceStep_boot, ← Tracked.step_board] at started
  generalize t.step (.boot ⟨.software, .clean⟩) = u at started good ⊢
  obtain ⟨-, bank2, nor, record⟩ := started
  have backup := written.2.1.backup
  rw [Board.staged_bank2] at backup
  refine ⟨?_, ?_, ?_, good.trans kept⟩
  · rw [record]
    rfl
  · intro i inside
    rw [bank2]
    exact written.2.1.image i inside
  · rw [backupImage_congr nor]
    exact sameImage_backup backup

theorem staged_nor (b : Board) (content : Mem) (i : Nat) (inside : i < backupOffset) :
    (b.staged content).nor i = content i :=
  store_inside b.nor 0 backupOffset content i (Nat.zero_le _) (by omega)

/-- An update made while the first one is still on trial replaces the good backup by
the image on trial; the next hang restores that image, which nobody ever confirmed. -/
theorem rollback_restores_unconfirmed :
    confirmedBoard.record.state = stateConfirmed ∧
      (∀ event ∈ trialEvents sampleImage ++ trialEvents sampleImage ++ [.boot ⟨.iwdg, .clean⟩],
        event.FaultFree) ∧
      ¬ Run.Along Tracked.step (fun s event => event.RestoresGood s)
        ⟨confirmedBoard, [confirmedBoard.bank2]⟩
        (trialEvents sampleImage ++ trialEvents sampleImage ++ [.boot ⟨.iwdg, .clean⟩]) := by
  refine ⟨confirmedBoard_state, by simp [trialEvents, Event.FaultFree], ?_⟩
  rw [Run.along_append, Run.after_append]
  have first := after_trialEvents ⟨confirmedBoard, [confirmedBoard.bank2]⟩ sampleImage
  generalize Run.after Tracked.step ⟨confirmedBoard, [confirmedBoard.bank2]⟩
    (trialEvents sampleImage) = s at first ⊢
  have second := after_trialEvents s sampleImage
  generalize Run.after Tracked.step s (trialEvents sampleImage) = t at second ⊢
  obtain ⟨testing, -, backup, good⟩ := second
  have byte : t.board.backupImage 0 = 0x22 := by
    rw [backup 0 (by decide), first.2.1 0 (by decide), staged_nor _ _ 0 (by decide)]
    rfl
  have present : ¬ t.board.backupBlank := by
    intro blank
    rw [Board.backupImage, Nat.add_zero, blank.first] at byte
    exact absurd byte (by decide)
  intro along
  have rolled := boot_rollback t.board .iwdg (watchdog_iwdg _) testing present
  have completed : (Boot.mk .iwdg .clean).Completes t.board :=
    (completes_iff _ _).mpr ⟨(attempts_iff _ _).mpr ⟨testing, .inl rfl⟩, rfl, present,
      RestoreFaults.clean_completes⟩
  have confirmed : (t.step (.boot ⟨.iwdg, .clean⟩)).board.record.state = stateConfirmed := by
    rw [Tracked.step_board, deviceStep_boot, rolled.2.2]
    rfl
  obtain ⟨copied, image, found, same⟩ := along.2.1 ⟨.iwdg, .clean⟩ rfl completed confirmed
  rw [good, first.2.2.2] at found
  have only : image = confirmedBoard.bank2 := List.mem_singleton.mp found
  have restored := (copied 0 (by decide)).symm.trans (same 0 (by decide))
  rw [byte, only] at restored
  exact absurd restored (by decide)

end OtaBoot
