import OtaBoot.FlashWriteMemory

set_option autoImplicit false

namespace OtaBoot

open Mem

/-- The image is in Bank 2 and all of the old Bank 2 is in the backup area. -/
structure Installed (size : Nat) (b t : Board) : Prop where
  image : ∀ i < size, t.bank2 i = b.nor i
  backup : ∀ i < appSize, t.nor (backupOffset + i) = b.bank2 i

theorem beforeSlot_nor (faults : UpdateFaults) (b : Board) :
    (faults.beforeSlot b).nor = b.backedUp.nor := rfl

/-- The staged image lies below the backup area. -/
theorem backedUp_staging (b : Board) (i : Nat) (staged : i < backupOffset) :
    b.backedUp.nor i = b.nor i :=
  b.backedUp_only.frame i (by omega)

theorem published_installed (faults : UpdateFaults) (size : Nat) (b : Board) (sector1 : Mem)
    (fits : size ≤ appSize) :
    Installed size b { (faults.beforeSlot b).slotWritten size with sector1 := sector1 } := by
  constructor
  · intro i inside
    have staged : i < backupOffset := by
      simp only [appSize, backupOffset] at fits ⊢
      omega
    have copied := (faults.beforeSlot b).slotWritten_inside size i inside
    rw [beforeSlot_nor, backedUp_staging b i staged] at copied
    exact copied
  · intro i inside
    exact b.backedUp_nor i inside

/-- PENDING_UPDATE appears only with the last record, for either way to read the
state word. `keeps` says when a metadata write can make it appear. -/
theorem pending_installed (state : Mem → Word) (faults : UpdateFaults)
    (physical : faults.backup.Physical) (update : Update) (fits : update.received ≤ appSize)
    (b : Board)
    (reads : ∀ m, state m ≠ statePendingUpdate → (metadataRead m).state ≠ statePendingUpdate)
    (keeps : ∀ (stage : MetaStage) record m, state m ≠ statePendingUpdate →
      record.state ≠ statePendingUpdate → state (stage.memory record m) ≠ statePendingUpdate)
    (before : state b.sector1 ≠ statePendingUpdate)
    (after : state (otaFlashWrite faults update b).2.sector1 = statePendingUpdate) :
    Installed update.received b (otaFlashWrite faults update b).2 := by
  have phase := otaFlashWrite_phase faults physical update fits b
  generalize (otaFlashWrite faults update b).1 = exit at phase
  generalize (otaFlashWrite faults update b).2 = t at phase after ⊢
  have recorded : state (faults.beforeSlot b).sector1 ≠ statePendingUpdate := by
    apply keeps
    · exact before
    · exact reads b.sector1 before
  cases phase with
  | backupStopped _ _ failed ending only =>
      rw [only.sector1] at after
      exact absurd after before
  | recordCut backup cut => exact absurd after recorded
  | slotStopped _ _ backup failed kept ending only idle =>
      rw [only.sector1] at after
      exact absurd after recorded
  | published backup kept slot =>
      exact published_installed faults update.received b _ fits

theorem memory_stateWord_keeps (stage : MetaStage) (record : Metadata) (m : Mem)
    (before : m.word 4 ≠ statePendingUpdate) (written : record.state ≠ statePendingUpdate) :
    (stage.memory record m).word 4 ≠ statePendingUpdate := by
  rw [memory_stateWord]
  cases stage with
  | unchanged => exact before
  | erased => exact (by decide : stateEmpty ≠ statePendingUpdate)
  | half => exact written
  | full => exact written

theorem memory_readState_keeps (stage : MetaStage) (record : Metadata) (m : Mem)
    (before : (metadataRead m).state ≠ statePendingUpdate)
    (written : record.state ≠ statePendingUpdate) :
    (metadataRead (stage.memory record m)).state ≠ statePendingUpdate := by
  rw [memory_readState]
  cases stage with
  | unchanged => exact before
  | erased => exact (by decide : stateEmpty ≠ statePendingUpdate)
  | half => exact written
  | full => exact written

theorem metadataRead_notPending (m : Mem) (word : m.word 4 ≠ statePendingUpdate) :
    (metadataRead m).state ≠ statePendingUpdate := by
  rcases metadataRead_state m with stored | empty
  · rw [stored]
    exact word
  · rw [empty]
    decide

def BackupFaults.clean : BackupFaults :=
  ⟨.clean, fun _ => .ok, fun _ _ _ => .clean, fun _ _ => .ok, fun _ => .ok⟩

theorem BackupFaults.clean_physical : BackupFaults.clean.Physical :=
  ⟨⟨fun _ _ => ChipFault.clean_sound, fun _ _ => ChipFault.clean_sound⟩,
    fun _ _ _ => ChipFault.clean_sound, fun _ _ _ => ChipFault.clean_bitwise⟩

theorem BackupFaults.clean_completes : BackupFaults.clean.Completes := by
  constructor
  · exact Qspi.EraseFaults.clean_completes 16
  · intro chunk below nonzero multiple
    simp [BackupFaults.clean]
  · intro chunk below
    rfl

/-- No operation of the update fails. -/
def UpdateFaults.clean : UpdateFaults :=
  ⟨.clean, .clean, fun _ _ => .ok, fun _ => .ok, fun _ _ => .ok, .clean⟩

theorem UpdateFaults.clean_writesSlot (size : Nat) : UpdateFaults.clean.WritesSlot size := by
  constructor
  · intro sector below needed
    exact Attempt.verdict_of_ok _ _ _ rfl
  · intro k below
    exact ⟨rfl, Attempt.verdict_of_ok _ _ _ rfl⟩

/-- An update without failures returns 0 and leaves the new image, the backup and
the pending record. -/
theorem otaFlashWrite_clean (update : Update) (fits : update.received ≤ appSize) (b : Board) :
    (otaFlashWrite .clean update b).1 = .done true ∧
      Installed update.received b (otaFlashWrite .clean update b).2 ∧
      (otaFlashWrite .clean update b).2.record = (b.record.backedUp.sealed.pending update).sealed := by
  have phase := otaFlashWrite_phase .clean BackupFaults.clean_physical update fits b
  generalize (otaFlashWrite .clean update b).1 = exit at phase ⊢
  generalize (otaFlashWrite .clean update b).2 = t at phase ⊢
  cases phase with
  | backupStopped _ _ failed ending only => exact absurd BackupFaults.clean_completes failed
  | recordCut backup cut => exact nomatch cut
  | slotStopped _ _ backup failed kept ending only idle =>
      exact absurd (UpdateFaults.clean_writesSlot update.received) failed
  | published backup kept slot =>
      have recorded : (UpdateFaults.clean.beforeSlot b).record = b.record.backedUp.sealed :=
        metadataRead_full b.sector1 b.record.backedUp
      have final := metadataRead_full (UpdateFaults.clean.beforeSlot b).sector1
        ((UpdateFaults.clean.beforeSlot b).record.pending update)
      rw [recorded] at final
      refine ⟨rfl, published_installed _ update.received b _ fits, ?_⟩
      rw [recorded]
      exact final

/-- PENDING_UPDATE is published last: if it is found after an update entered without
it, whatever failed and wherever power was lost, the image is in Bank 2 and the whole
old Bank 2 is in the backup area. Both for the state word on the sector and for the
state `Metadata_Read` returns. -/
theorem pendingUpdate_published_last (faults : UpdateFaults) (physical : faults.backup.Physical)
    (update : Update) (fits : update.received ≤ 512 * 1024) (b : Board) :
    (b.sector1.word 4 ≠ statePendingUpdate →
      (otaFlashWrite faults update b).2.sector1.word 4 = statePendingUpdate →
      (∀ i < update.received, (otaFlashWrite faults update b).2.bank2 i = b.nor i) ∧
        ∀ i < appSize, (otaFlashWrite faults update b).2.nor (backupOffset + i) = b.bank2 i) ∧
    (b.record.state ≠ statePendingUpdate →
      (otaFlashWrite faults update b).2.record.state = statePendingUpdate →
      (∀ i < update.received, (otaFlashWrite faults update b).2.bank2 i = b.nor i) ∧
        ∀ i < appSize, (otaFlashWrite faults update b).2.nor (backupOffset + i) = b.bank2 i) := by
  have inside : update.received ≤ appSize := by
    simp only [appSize]
    omega
  constructor
  · intro before after
    have installed := pending_installed (fun m => m.word 4) faults physical update inside b
      metadataRead_notPending memory_stateWord_keeps before after
    exact ⟨installed.image, installed.backup⟩
  · intro before after
    have installed := pending_installed (fun m => (metadataRead m).state) faults physical update
      inside b (fun _ read => read) memory_readState_keeps before after
    exact ⟨installed.image, installed.backup⟩

/-- A confirmed device that runs 0x11 everywhere, with an image of 0x22 staged. -/
def confirmedBoard : Board :=
  Board.holding { Metadata.fresh with state := stateConfirmed } (fun _ => 0x11) (fun _ => 0x22)

theorem confirmedBoard_state : confirmedBoard.record.state = stateConfirmed := by
  unfold confirmedBoard
  rw [Board.holding_record]
  rfl

theorem pendingUpdate_published_last_clean :
    (otaFlashWrite .clean ⟨1, 0, 1, 2, 3⟩ confirmedBoard).2.record.state = statePendingUpdate ∧
      (∀ i < 1, (otaFlashWrite .clean ⟨1, 0, 1, 2, 3⟩ confirmedBoard).2.bank2 i = 0x22) ∧
      ∀ i < appSize,
        (otaFlashWrite .clean ⟨1, 0, 1, 2, 3⟩ confirmedBoard).2.nor (backupOffset + i) = 0x11 := by
  have result := pendingUpdate_published_last .clean BackupFaults.clean_physical ⟨1, 0, 1, 2, 3⟩
    (by decide) confirmedBoard
  have after : (otaFlashWrite .clean ⟨1, 0, 1, 2, 3⟩ confirmedBoard).2.record.state =
      statePendingUpdate := by
    rw [(otaFlashWrite_clean ⟨1, 0, 1, 2, 3⟩ (by decide) confirmedBoard).2.2]
    rfl
  have before : confirmedBoard.record.state ≠ statePendingUpdate := by
    rw [confirmedBoard_state]
    decide
  have installed := result.2 before after
  constructor
  · exact after
  · constructor
    · intro i below
      rw [installed.1 i below]
      rfl
    · intro i below
      rw [installed.2 i below]
      rfl

end OtaBoot
