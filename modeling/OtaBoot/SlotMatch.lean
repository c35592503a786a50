import OtaBoot.BackupRecord

set_option autoImplicit false

namespace OtaBoot

open Mem

/-- The first `size` bytes at `base` exist and have the CRC `crc`. -/
def ImageMatches (m : Mem) (base : Nat) (size crc : Word) : Prop :=
  size.toNat ≤ appSize ∧ crc32Calculate (m.bytes base size.toNat) = crc

/-- Bank 2 holds the image that the stored record describes. -/
def Board.SlotMatches (b : Board) : Prop :=
  ImageMatches b.bank2 0 b.record.fwSize b.record.crc32

/-- The backup area holds the image that the stored backup record describes. -/
def Board.BackupMatches (b : Board) : Prop :=
  ImageMatches b.nor backupOffset b.record.bakFwSize b.record.bakCrc32

/-- The backup area holds the image that the stored record describes as current. -/
def Board.BackupIsCurrent (b : Board) : Prop :=
  ImageMatches b.nor backupOffset b.record.fwSize b.record.crc32

/-- A stored state in which the boot step jumps without the watchdog. -/
def Board.Direct (b : Board) : Prop :=
  b.record.state ≠ stateEmpty ∧ b.record.state ≠ statePendingUpdate ∧
    b.record.state ≠ stateTesting

/-- No unwatched jump runs an image that does not match. -/
def Board.Sound (b : Board) : Prop := b.Direct → b.SlotMatches

theorem ImageMatches.of_bytes {m n : Mem} {base base' : Nat} {size crc : Word}
    (matching : ImageMatches m base size crc)
    (same : ∀ i < appSize, n (base' + i) = m (base + i)) : ImageMatches n base' size crc := by
  obtain ⟨fits, equal⟩ := matching
  refine ⟨fits, ?_⟩
  rw [← equal]
  congr 1
  apply bytes_congr
  intro i inside
  exact same i (by omega)

theorem imageMatches_fresh (m : Mem) (base : Nat) :
    ImageMatches m base Metadata.fresh.fwSize Metadata.fresh.crc32 :=
  ⟨by decide, crc32Calculate_nil⟩

/-- The fields of the record that a boot looks at before an unwatched jump. -/
structure SameCurrent (record record' : Metadata) : Prop where
  state : record'.state = record.state
  fwSize : record'.fwSize = record.fwSize
  crc32 : record'.crc32 = record.crc32

/-- A board whose record says the same about the same Bank 2 is as sound. -/
theorem Board.Sound.congr {b t : Board} (sound : b.Sound) (bank2 : t.bank2 = b.bank2)
    (current : SameCurrent b.record t.record) : t.Sound := by
  intro direct
  unfold Board.Direct at direct
  rw [current.state] at direct
  unfold Board.SlotMatches
  rw [bank2, current.fwSize, current.crc32]
  exact sound direct

theorem sound_of_fresh {t : Board} (fresh : t.record = Metadata.fresh) : t.Sound := by
  intro direct
  exact absurd (congrArg Metadata.state fresh) direct.1

/-- A metadata write leaves the old record, none, or one with the given current fields. -/
theorem memory_current (stage : MetaStage) (record : Metadata) (m : Mem) :
    (stage = .unchanged ∧ metadataRead (stage.memory record m) = metadataRead m) ∨
      (stage = .erased ∧ metadataRead (stage.memory record m) = Metadata.fresh) ∨
      ((stage = .half ∨ stage = .full) ∧
        SameCurrent record (metadataRead (stage.memory record m))) := by
  cases stage with
  | unchanged => exact .inl ⟨rfl, rfl⟩
  | erased => exact .inr (.inl ⟨rfl, metadataRead_erased m record⟩)
  | half =>
      rw [metadataRead_half]
      exact .inr (.inr ⟨.inl rfl, ⟨rfl, rfl, rfl⟩⟩)
  | full =>
      rw [metadataRead_full]
      exact .inr (.inr ⟨.inr rfl, ⟨rfl, rfl, rfl⟩⟩)

/-- Recording a backup keeps a sound board sound. -/
theorem Board.Sound.recorded {b : Board} (sound : b.Sound) (faults : MetaFaults) :
    (b.backedUp.recorded faults).Sound := by
  have record : (b.backedUp.recorded faults).record =
      metadataRead (faults.stage.memory b.record.backedUp b.sector1) := rfl
  have bank2 : (b.backedUp.recorded faults).bank2 = b.bank2 := b.backedUp_bank2
  rcases memory_current faults.stage b.record.backedUp b.sector1 with
    ⟨_, same⟩ | ⟨_, fresh⟩ | ⟨_, current⟩
  · apply sound.congr bank2
    rw [record, same]
    exact ⟨rfl, rfl, rfl⟩
  · exact sound_of_fresh (record.trans fresh)
  · apply sound.congr bank2
    rw [record]
    exact ⟨current.state, current.fwSize, current.crc32⟩

/-- The backup's record write leaves a state that jumps directly only if there was one
and the write did not end with the sector erased. -/
theorem recorded_direct (b : Board) (faults : MetaFaults)
    (direct : (b.backedUp.recorded faults).Direct) : b.Direct ∧ faults.stage ≠ .erased := by
  have record : (b.backedUp.recorded faults).record =
      metadataRead (faults.stage.memory b.record.backedUp b.sector1) := rfl
  unfold Board.Direct at direct
  rw [record] at direct
  rcases memory_current faults.stage b.record.backedUp b.sector1 with
    ⟨stage, same⟩ | ⟨_, fresh⟩ | ⟨stage, current⟩
  · rw [same] at direct
    exact ⟨direct, by simp [stage]⟩
  · rw [fresh] at direct
    exact absurd rfl direct.1
  · rw [current.state] at direct
    refine ⟨direct, ?_⟩
    rcases stage with half | full
    · simp [half]
    · simp [full]

theorem sound_backup (faults : ManualBackupFaults) (physical : faults.Physical) (b : Board)
    (sound : b.Sound) : (backupSlotA faults b).2.Sound := by
  have phase := backupSlotA_phase faults physical b
  generalize (backupSlotA faults b).2 = t at phase ⊢
  cases phase with
  | skipped invalid => exact sound
  | stopped _ valid failed only =>
      apply sound.congr only.bank2
      unfold Board.record
      rw [only.sector1]
      exact ⟨rfl, rfl, rfl⟩
  | recorded valid backup => exact sound.recorded faults.record

/-- An update that cannot leave a direct state over a changed Bank 2: there is no such
state, or it is gone before Bank 2 changes, or Bank 2 does not change, or the update
gets as far as replacing the record. -/
def UpdateFaults.Harmless (faults : UpdateFaults) (size : Nat) (b : Board) : Prop :=
  ¬ b.Direct ∨ faults.recordBackup.stage = .erased ∨ ¬ faults.backup.Completes ∨
    faults.recordBackup.exit = .cut ∨ 0 < size ∧ Attempt.takes (faults.erase 0) 8 0 = false ∨
    faults.WritesSlot size ∧ faults.publish.stage ≠ .unchanged

/-- The record an update publishes never jumps directly. -/
theorem published_notDirect (t : Board) (stage : MetaStage) (record : Metadata) (update : Update)
    (m : Mem) (written : stage ≠ .unchanged)
    (sector1 : t.sector1 = stage.memory (record.pending update) m) : ¬ t.Direct := by
  intro direct
  unfold Board.Direct Board.record at direct
  rw [sector1, memory_readState] at direct
  cases stage with
  | unchanged => exact absurd rfl written
  | erased => exact absurd rfl direct.1
  | half => exact absurd rfl direct.2.1
  | full => exact absurd rfl direct.2.1

theorem sound_update (faults : UpdateFaults) (physical : faults.backup.Physical) (update : Update)
    (fits : update.received ≤ appSize) (b : Board) (sound : b.Sound)
    (harmless : faults.Harmless update.received b) : (otaFlashWrite faults update b).2.Sound := by
  have phase := otaFlashWrite_phase faults physical update fits b
  generalize (otaFlashWrite faults update b).1 = exit at phase
  generalize (otaFlashWrite faults update b).2 = t at phase ⊢
  have before : (faults.beforeSlot b).Sound := sound.recorded faults.recordBackup
  cases phase with
  | backupStopped _ _ failed ending only =>
      apply sound.congr only.bank2
      unfold Board.record
      rw [only.sector1]
      exact ⟨rfl, rfl, rfl⟩
  | recordCut backup cut => exact before
  | slotStopped _ _ backup failed kept ending only idle =>
      intro direct
      have same : t.record = (faults.beforeSlot b).record := by
        unfold Board.record
        rw [only.sector1]
      unfold Board.Direct at direct
      rw [same] at direct
      have old := recorded_direct b faults.recordBackup direct
      rcases harmless with indirect | erased | stops | cut | ⟨positive, refused⟩ | ⟨slot, _⟩
      · exact absurd old.1 indirect
      · exact absurd erased old.2
      · exact absurd backup stops
      · exact absurd cut kept
      · rw [idle positive refused]
        exact before direct
      · exact absurd slot failed
  | published backup kept slot =>
      intro direct
      by_cases stage : faults.publish.stage = .unchanged
      · rw [stage] at direct
        have old := recorded_direct b faults.recordBackup direct
        rcases harmless with indirect | erased | stops | cut | ⟨positive, refused⟩ | ⟨_, written⟩
        · exact absurd old.1 indirect
        · exact absurd erased old.2
        · exact absurd backup stops
        · exact absurd cut kept
        · have first := slot.erase 0 (by decide) (by omega)
          rw [Attempt.takes_of_verdict _ _ _ first] at refused
          exact absurd refused (by decide)
        · exact absurd stage written
      · exact absurd direct (published_notDirect _ _ _ _ _ stage rfl)

/-- Once the backup is in Bank 2, what the record write needs of the backup, by how far
it gets. Without a write the old record stays, and still counts if it may be used. -/
def RestoredRecordOk (stage : MetaStage) (b : Board) (used : Prop) : Prop :=
  match stage with
  | .unchanged => used → b.BackupIsCurrent
  | .erased => True
  | .half => b.BackupMatches
  | .full => b.BackupMatches

/-- After the backup has been copied and the record written as far as it got. -/
theorem restored_matches (b t : Board) (stage : MetaStage)
    (bank2 : ∀ i < appSize, t.bank2 i = b.nor (backupOffset + i))
    (sector1 : t.sector1 = stage.memory b.record.restored b.sector1) (used : Prop)
    (ready : RestoredRecordOk stage b used) (needed : stage = .unchanged → used) :
    t.SlotMatches := by
  have bytes : ∀ i < appSize, t.bank2 (0 + i) = b.nor (backupOffset + i) := by
    intro i inside
    rw [Nat.zero_add, bank2 i inside]
  have record : t.record = metadataRead (stage.memory b.record.restored b.sector1) :=
    congrArg metadataRead sector1
  unfold Board.SlotMatches
  rw [record]
  cases stage with
  | unchanged => exact ImageMatches.of_bytes (ready (needed rfl)) bytes
  | erased =>
      rw [metadataRead_erased]
      exact imageMatches_fresh _ _
  | half =>
      rw [metadataRead_half]
      exact ImageMatches.of_bytes ready bytes
  | full =>
      rw [metadataRead_full]
      exact ImageMatches.of_bytes ready bytes

/-- A boot that completes a rollback leaves a record that describes the backup. Power
lost before the record is erased leaves TESTING, from which nothing jumps directly. -/
def Boot.Harmless (boot : Boot) (b : Board) : Prop :=
  boot.Attempts b → boot.faults.init = .ok → ¬ b.backupBlank → boot.faults.restore.Completes →
    RestoredRecordOk boot.faults.record.stage b (boot.faults.record.exit ≠ .cut)

/-- What a boot that answers 2 found is what the stored record describes. -/
def Event.JumpsMatching (b : Board) (event : Event) : Prop :=
  ∀ start, event = .boot start → (start.run b).1 = .done 2 →
    crc32Calculate ((deviceStep b event).bank2.bytes 0 (deviceStep b event).record.fwSize.toNat) =
      (deviceStep b event).record.crc32

theorem boot_cut_of_exit (boot : Boot) (b : Board) (completed : boot.Completes b)
    (jumped : (boot.run b).1 = .done 2) : boot.faults.record.exit ≠ .cut := by
  have branch : (b.reset boot.cause).bootBranch = .rollback := completed.1
  intro cut
  unfold Boot.run at jumped
  rw [bootMetadataStep_run] at jumped
  simp only [branch] at jumped
  rw [rollbackStep_completed _ _ _ completed.2, cut] at jumped
  exact absurd jumped (by simp)

theorem sound_boot (boot : Boot) (b : Board) (sound : b.Sound) (harmless : boot.Harmless b) :
    (boot.run b).2.Sound := by
  have phase := boot_phase boot b
  generalize (boot.run b).1 = exit at phase
  generalize (boot.run b).2 = t at phase ⊢
  have unchanged : SameFlash b t → t.Sound := by
    intro same
    apply sound.congr same.bank2
    rw [same.record]
    exact ⟨rfl, rfl, rfl⟩
  cases phase with
  | menu _ empty same => exact unchanged same
  | stay _ testing idle same => exact unchanged same
  | direct _ empty pending testing same => exact unchanged same
  | trial _ _ pending ending bank2 nor sector1 =>
      intro direct
      unfold Board.Direct Board.record at direct
      rw [sector1, memory_readState] at direct
      generalize boot.faults.record.stage = stage at direct
      cases stage with
      | unchanged => exact absurd pending direct.2.1
      | erased => exact absurd rfl direct.1
      | half => exact absurd rfl direct.2.2
      | full => exact absurd rfl direct.2.2
  | stopped _ _ testing tried failed ending sector1 nor =>
      intro direct
      unfold Board.Direct Board.record at direct
      rw [sector1] at direct
      exact absurd testing direct.2.2
  | restored _ _ testing completed ending bank2 nor sector1 =>
      intro direct
      obtain ⟨tried, init, present, completes⟩ := (completes_iff boot b).mp completed
      have ready := harmless tried init present completes
      apply restored_matches b t boot.faults.record.stage bank2 sector1 _ ready
      intro stage
      unfold Board.Direct Board.record at direct
      rw [sector1, stage] at direct
      exact absurd testing direct.2.2

theorem boot_jumpsMatching (boot : Boot) (b : Board) (sound : b.Sound) (harmless : boot.Harmless b)
    (jumped : (boot.run b).1 = .done 2) : (boot.run b).2.SlotMatches := by
  have phase := boot_phase boot b
  have live := fun completed => boot_cut_of_exit boot b completed jumped
  rw [jumped] at phase
  generalize (boot.run b).2 = t at phase ⊢
  cases phase with
  | trial _ _ pending ending bank2 nor sector1 => simp at ending
  | stopped _ _ testing tried failed ending sector1 nor => simp at ending
  | direct _ empty pending testing same =>
      have matching := sound ⟨empty, pending, testing⟩
      unfold Board.SlotMatches
      rw [same.record, same.bank2]
      exact matching
  | restored _ _ testing completed ending bank2 nor sector1 =>
      obtain ⟨tried, init, present, completes⟩ := (completes_iff boot b).mp completed
      have ready := harmless tried init present completes
      exact restored_matches b t boot.faults.record.stage bank2 sector1 _ ready
        fun _ => live completed

theorem boot_direct (boot : Boot) (b : Board) (direct : b.Direct) :
    (boot.run b).1 = .done 2 ∧ SameFlash b (boot.run b).2 := by
  have phase := boot_phase boot b
  generalize (boot.run b).1 = exit at phase ⊢
  generalize (boot.run b).2 = t at phase ⊢
  cases phase with
  | menu _ empty same => exact absurd empty direct.1
  | trial _ _ pending ending bank2 nor sector1 => exact absurd pending direct.2.1
  | stay _ testing idle same => exact absurd testing direct.2.2
  | stopped _ _ testing tried failed ending sector1 nor => exact absurd testing direct.2.2
  | restored _ _ testing completed ending bank2 nor sector1 => exact absurd testing direct.2.2
  | direct _ empty pending testing same => exact ⟨rfl, same⟩

/-- A manual restore that completes leaves a record that describes the backup, or
there is no direct state; one that stops has erased nothing, or there is none. -/
def RestoreFaults.Harmless (faults : RestoreFaults) (record : MetaFaults) (b : Board) : Prop :=
  (¬ b.backupBlank ∧ faults.Completes → RestoredRecordOk record.stage b b.Direct) ∧
    (¬ (¬ b.backupBlank ∧ faults.Completes) → ¬ b.Direct ∨ faults.Refused b)

theorem sound_restore (faults : RestoreFaults) (record : MetaFaults) (b : Board) (sound : b.Sound)
    (harmless : faults.Harmless record b) : (restoreSlotA faults record b).2.Sound := by
  have phase := restoreSlotA_phase faults record b
  generalize result : (restoreSlotA faults record b).2 = t at phase ⊢
  cases phase with
  | stopped _ failed only idle =>
      rcases harmless.2 failed with indirect | refused
      · intro direct
        unfold Board.Direct Board.record at direct
        rw [only.sector1] at direct
        exact absurd direct indirect
      · rw [idle refused]
        exact sound
  | restored present completes =>
      intro direct
      apply restored_matches b _ record.stage _ rfl _ (harmless.1 ⟨present, completes⟩)
      · intro stage
        unfold Board.Direct Board.record at direct
        rw [stage] at direct
        exact direct
      · intro i inside
        exact copied_inside b backupOffset appSize i inside

/-- An App that confirms is the image the record describes, or its write does not get
as far as a new record. -/
def ConfirmHarmless (faults : MetaFaults) (b : Board) : Prop :=
  b.record.state = stateTesting →
    faults.stage = .unchanged ∨ faults.stage = .erased ∨ b.SlotMatches

theorem sound_confirm (faults : MetaFaults) (b : Board) (sound : b.Sound)
    (harmless : ConfirmHarmless faults b) : (appConfirm faults b).2.Sound := by
  rw [appConfirm_run]
  by_cases testing : b.record.state = stateTesting
  · rw [if_pos testing]
    have record : Board.record
        { b with sector1 := faults.stage.memory b.record.confirmed b.sector1 } =
        metadataRead (faults.stage.memory b.record.confirmed b.sector1) := rfl
    rcases memory_current faults.stage b.record.confirmed b.sector1 with
      ⟨_, same⟩ | ⟨_, fresh⟩ | ⟨stage, current⟩
    · apply Board.Sound.congr sound
      · rfl
      · rw [record, same]
        exact ⟨rfl, rfl, rfl⟩
    · exact sound_of_fresh (record.trans fresh)
    · intro _
      have matching : b.SlotMatches := by
        rcases harmless testing with unchanged | erased | matching
        · rcases stage with half | full
          · exact absurd (unchanged.symm.trans half) (by simp)
          · exact absurd (unchanged.symm.trans full) (by simp)
        · rcases stage with half | full
          · exact absurd (erased.symm.trans half) (by simp)
          · exact absurd (erased.symm.trans full) (by simp)
        · exact matching
      unfold Board.SlotMatches
      rw [record, current.fwSize, current.crc32]
      exact matching
  · rw [if_neg testing]
    exact sound

/-- An operation that cannot bring about an unwatched jump into another image. -/
def Event.Harmless (b : Board) (event : Event) : Prop :=
  match event with
  | .boot start => start.Harmless b
  | .update faults image => faults.Harmless image.update.received b
  | .backup _ => True
  | .restore faults record => faults.Harmless record b
  | .confirm faults => ConfirmHarmless faults b

theorem sound_step (b : Board) (event : Event) (sound : b.Sound)
    (permitted : event.Physical ∧ event.Harmless b) : (deviceStep b event).Sound := by
  obtain ⟨physical, harmless⟩ := permitted
  cases event with
  | boot boot =>
      rw [deviceStep_boot]
      exact sound_boot boot b sound harmless
  | update faults image =>
      have fits := image.fitsApp
      have record := b.staged_record image.content
      have staged : (b.staged image.content).Sound := by
        apply sound.congr (b.staged_bank2 image.content)
        rw [record]
        exact ⟨rfl, rfl, rfl⟩
      have kept : faults.Harmless image.update.received (b.staged image.content) := by
        unfold UpdateFaults.Harmless Board.Direct
        rw [record]
        exact harmless
      rw [deviceStep_update]
      exact sound_update faults physical image.update fits _ staged kept
  | backup faults =>
      rw [deviceStep_backup]
      exact sound_backup faults physical b sound
  | restore faults record =>
      rw [deviceStep_restore]
      exact sound_restore faults record b sound harmless
  | confirm faults =>
      rw [deviceStep_confirm]
      exact sound_confirm faults b sound harmless

theorem jumps_step (b : Board) (event : Event) (sound : b.Sound)
    (permitted : event.Physical ∧ event.Harmless b) : event.JumpsMatching b := by
  intro start found jumped
  subst found
  have matching := boot_jumpsMatching start b sound permitted.2 jumped
  rw [deviceStep_boot]
  exact matching.2

/-- In every run of harmless operations from a device whose record describes Bank 2,
every unwatched jump runs the image that the stored record describes. -/
theorem unwatched_jump_matches (b : Board) (matching : b.SlotMatches) (events : List Event)
    (permitted : Run.Along deviceStep (fun s event => event.Physical ∧ event.Harmless s) b events) :
    Run.Along deviceStep (fun s event => event.JumpsMatching s) b events :=
  Run.invariant_along sound_step jumps_step events b (fun _ => matching) permitted

theorem describedBoard_matches : describedBoard.SlotMatches ∧ describedBoard.BackupMatches := by
  obtain ⟨size, crc, bakSize, bakCrc⟩ := describedBoard_record
  unfold Board.SlotMatches Board.BackupMatches
  rw [size, crc, bakSize, bakCrc]
  exact ⟨⟨by decide, rfl⟩, by decide, rfl⟩

theorem describedBoard_state : describedBoard.record.state = stateConfirmed := by
  unfold describedBoard
  rw [Board.holding_record]
  rfl

theorem describedBoard_direct : describedBoard.Direct := by
  unfold Board.Direct
  rw [describedBoard_state]
  decide

/-- A boot and then a manual restore, both without failures. -/
theorem unwatched_jump_matches_restore :
    Run.Along deviceStep (fun s event => event.JumpsMatching s) describedBoard
      [.boot ⟨.pin, .clean⟩, .restore .clean .clean] := by
  apply unwatched_jump_matches describedBoard describedBoard_matches.1
  have booted := (boot_direct ⟨.pin, .clean⟩ describedBoard describedBoard_direct).2
  rw [← deviceStep_boot] at booted
  have calm : (Boot.mk .pin .clean).Harmless describedBoard := by
    intro tried
    have trial := ((attempts_iff _ _).mp tried).1
    exact absurd trial describedBoard_direct.2.2
  have restore : RestoreFaults.clean.Harmless .clean
      (deviceStep describedBoard (.boot ⟨.pin, .clean⟩)) := by
    generalize deviceStep describedBoard (.boot ⟨.pin, .clean⟩) = t at booted
    have present : ¬ t.backupBlank := by
      unfold Board.backupBlank
      rw [booted.nor]
      decide
    constructor
    · intro _
      show t.BackupMatches
      unfold Board.BackupMatches
      rw [booted.record, booted.nor]
      exact describedBoard_matches.2
    · intro failed
      exact absurd ⟨present, RestoreFaults.clean_completes⟩ failed
  exact ⟨⟨trivial, calm⟩, ⟨trivial, restore⟩, trivial⟩

/-- Power is lost after the restore has erased the first sector. -/
def cutRestore : Event :=
  .restore ⟨.ok, fun _ _ => .cut true, fun _ => .ok, fun _ _ => .ok⟩ .clean

/-- A manual restore on a confirmed device loses power after its first sector erase:
the state is still CONFIRMED, and the next boot jumps into the erased image. -/
theorem restore_cut_jumps :
    describedBoard.record.state = stateConfirmed ∧ describedBoard.SlotMatches ∧
      describedBoard.BackupMatches ∧
      ¬ Run.Along deviceStep (fun s event => event.JumpsMatching s) describedBoard
        [cutRestore, .boot ⟨.powerOn, .clean⟩] := by
  refine ⟨describedBoard_state, describedBoard_matches.1, describedBoard_matches.2, ?_⟩
  intro along
  have kept : (deviceStep describedBoard cutRestore).record = describedBoard.record := rfl
  have bytes : (deviceStep describedBoard cutRestore).bank2.bytes 0 1 = [0xFF] := by decide
  have jump := along.2.1
  generalize deviceStep describedBoard cutRestore = t at kept bytes jump
  have direct : t.Direct := by
    unfold Board.Direct
    rw [kept]
    exact describedBoard_direct
  obtain ⟨answer, same⟩ := boot_direct ⟨.powerOn, .clean⟩ t direct
  have equal := jump ⟨.powerOn, .clean⟩ rfl answer
  rw [deviceStep_boot] at equal
  obtain ⟨size, crc, _, _⟩ := describedBoard_record
  rw [same.record, same.bank2, kept, size, crc] at equal
  have one : BitVec.toNat (1 : Word) = 1 := rfl
  rw [one, bytes] at equal
  exact absurd equal (by decide)

end OtaBoot
