import OtaBoot.KnownGood

set_option autoImplicit false

namespace OtaBoot

open Mem

/-- A backup whose erase is refused changes nothing. -/
theorem refused_backup (erase : Qspi.EraseFaults) (refused : erase.Refused)
    (rest : Op Board Bool) (b : Board) :
    ((do if ← onNor (Qspi.qspiEraseBlocks erase backupOffset appSize) then rest
         else pure false) b).2 = b := by
  have spec : Op.Ensures (do
      if ← onNor (Qspi.qspiEraseBlocks erase backupOffset appSize) then rest
      else pure false) b (fun _ t => t = b) (fun t => t = b) := by
    rw [Op.ensures_bind]
    unfold onNor
    rw [Op.ensures_zoom]
    apply (Qspi.qspiEraseBlocks_refused erase refused backupOffset appSize (by decide) b.nor).mono
    · intro ok n result
      obtain ⟨rfl, rfl⟩ := result
      rfl
    · intro n same
      rw [same]
  exact Op.Ensures.final spec

/-- A backup phase that does not complete is all an update does. -/
theorem otaFlashWrite_stopped (faults : UpdateFaults) (update : Update) (b : Board)
    (failed : ¬ faults.backup.Completes) :
    (otaFlashWrite faults update b).2 = (backupOldSlot faults.backup b).2 := by
  have completes := backupOldSlot_succeeds faults.backup b
  unfold otaFlashWrite
  generalize run : backupOldSlot faults.backup b = result at completes
  obtain ⟨ending, e⟩ := result
  cases ending with
  | cut => rw [Op.bind_run_cut _ _ _ _ run]
  | done ok =>
      rw [Op.bind_run_done _ _ _ _ _ run]
      cases ok with
      | false => rfl
      | true => exact absurd (completes.mp rfl) failed

theorem otaFlashWrite_refused (faults : UpdateFaults) (update : Update) (b : Board)
    (refused : faults.backup.erase.Refused) : (otaFlashWrite faults update b).2 = b := by
  have failed : ¬ faults.backup.Completes := fun all => refused.stops 16 (by decide) all.erase
  rw [otaFlashWrite_stopped faults update b failed]
  exact refused_backup _ refused _ b

theorem backupSlotA_refused (faults : ManualBackupFaults) (b : Board)
    (refused : faults.erase.Refused) : (backupSlotA faults b).2 = b := by
  have failed : ¬ faults.Completes := fun all => refused.stops 16 (by decide) all.erase
  have completes := copySlotA_succeeds faults b
  have same : (copySlotA faults b).2 = b := refused_backup _ refused _ b
  unfold backupSlotA
  rw [Op.gets_bind_run]
  split
  · rfl
  · generalize run : copySlotA faults b = result at completes same
    obtain ⟨ending, e⟩ := result
    cases ending with
    | cut =>
        rw [Op.bind_run_cut _ _ _ _ run]
        exact same
    | done ok =>
        rw [Op.bind_run_done _ _ _ _ _ run]
        cases ok with
        | false => exact same
        | true => exact absurd (completes.mp rfl) failed

/-- A size and CRC describe the bytes at `base`; size 0 describes nothing. -/
def Describes (m : Mem) (base : Nat) (size crc : Word) : Prop :=
  size = 0 ∨ crc32Calculate (m.bytes base size.toNat) = crc

instance (m : Mem) (base : Nat) (size crc : Word) : Decidable (Describes m base size crc) :=
  inferInstanceAs (Decidable (_ ∨ _))

/-- The stored backup record describes the backup area. -/
def Board.BackupDescribed (b : Board) : Prop :=
  Describes b.nor backupOffset b.record.bakFwSize b.record.bakCrc32

/-- A size and CRC describe the start of Bank 2. -/
def Board.SlotDescribed (b : Board) (size crc : Word) : Prop :=
  size.toNat ≤ appSize ∧ Describes b.bank2 0 size crc

/-- What a backup of Bank 2 needs of the stored record, by how far the write of the
new backup record gets. -/
def BackupRecordOk (stage : MetaStage) (b : Board) : Prop :=
  match stage with
  | .unchanged => b.SlotDescribed b.record.bakFwSize b.record.bakCrc32
  | .erased => True
  | .half => False
  | .full => b.SlotDescribed b.record.fwSize b.record.crc32

theorem describes_backedUp (b : Board) (size crc : Word) (described : b.SlotDescribed size crc) :
    Describes b.backedUp.nor backupOffset size crc := by
  obtain ⟨fits, empty | equal⟩ := described
  · exact .inl empty
  · right
    rw [← equal]
    congr 1
    apply bytes_congr
    intro i inside
    rw [b.backedUp_nor i (by omega), Nat.zero_add]

theorem recorded_described (b : Board) (faults : MetaFaults)
    (ready : BackupRecordOk faults.stage b) : (b.backedUp.recorded faults).BackupDescribed := by
  have record : (b.backedUp.recorded faults).record =
      metadataRead (faults.stage.memory b.record.backedUp b.sector1) := rfl
  unfold Board.BackupDescribed
  rw [record, Board.recorded_nor]
  generalize faults.stage = stage at ready
  cases stage with
  | unchanged => exact describes_backedUp b _ _ ready
  | erased =>
      rw [metadataRead_erased]
      exact .inl rfl
  | half => exact ready.elim
  | full =>
      rw [metadataRead_full]
      exact describes_backedUp b _ _ ready

/-- `Backup_SlotA` with these faults, from this board, keeps the record truthful:
nothing is erased, or it stops while there is no record, or it completes and the
record write does what the area needs. -/
def ManualBackupFaults.Truthful (faults : ManualBackupFaults) (b : Board) : Prop :=
  b.NoApp ∨ faults.erase.Refused ∨ ¬ faults.Completes ∧ b.record.bakFwSize = 0 ∨
    faults.Completes ∧ BackupRecordOk faults.record.stage b

/-- The last write of an update that gets there spoils the backup record only if it
stops between its two flash words. -/
def UpdateFaults.Truthful (faults : UpdateFaults) (size : Nat) (b : Board) : Prop :=
  faults.backup.erase.Refused ∨ ¬ faults.backup.Completes ∧ b.record.bakFwSize = 0 ∨
    faults.backup.Completes ∧
      (faults.recordBackup.exit ≠ .cut ∧ faults.WritesSlot size ∧ faults.publish.stage = .erased ∨
        BackupRecordOk faults.recordBackup.stage b ∧
          ¬ (faults.WritesSlot size ∧ faults.publish.stage = .half))

theorem described_of_empty {b t : Board} (same : t.sector1 = b.sector1)
    (empty : b.record.bakFwSize = 0) : t.BackupDescribed := by
  have record : t.record = b.record := by
    unfold Board.record
    rw [same]
  left
  rw [record]
  exact empty

theorem backupSlotA_described (faults : ManualBackupFaults) (physical : faults.Physical) (b : Board)
    (described : b.BackupDescribed) (truthful : faults.Truthful b) :
    (backupSlotA faults b).2.BackupDescribed := by
  by_cases refused : faults.erase.Refused
  · rw [backupSlotA_refused faults b refused]
    exact described
  · have phase := backupSlotA_phase faults physical b
    generalize (backupSlotA faults b).2 = t at phase ⊢
    cases phase with
    | skipped invalid => exact described
    | stopped _ valid failed only =>
        rcases truthful with invalid | refuses | ⟨_, empty⟩ | ⟨completes, _⟩
        · exact absurd invalid valid
        · exact absurd refuses refused
        · exact described_of_empty only.sector1 empty
        · exact absurd completes failed
    | recorded valid backup =>
        rcases truthful with invalid | refuses | ⟨failed, _⟩ | ⟨_, ready⟩
        · exact absurd invalid valid
        · exact absurd refuses refused
        · exact absurd backup failed
        · exact recorded_described b faults.record ready

theorem beforeSlot_described (faults : UpdateFaults) (b : Board)
    (ready : BackupRecordOk faults.recordBackup.stage b) : (faults.beforeSlot b).BackupDescribed :=
  recorded_described b faults.recordBackup ready

theorem described_of_onlyBank2 {b t : Board} (only : OnlyBank2 b t appSize)
    (described : b.BackupDescribed) : t.BackupDescribed := by
  have record : t.record = b.record := by
    unfold Board.record
    rw [only.sector1]
  unfold Board.BackupDescribed
  rw [record, only.nor]
  exact described

/-- The last record of an update keeps the backup record it finds. -/
theorem published_described (e : Board) (stage : MetaStage) (update : Update) (size : Nat)
    (whole : stage ≠ .half) (described : stage ≠ .erased → e.BackupDescribed) :
    Board.BackupDescribed { e.slotWritten size with
      sector1 := stage.memory (e.record.pending update) e.sector1 } := by
  have nor : Board.nor { e.slotWritten size with
      sector1 := stage.memory (e.record.pending update) e.sector1 } = e.nor := by
    rw [Board.slotWritten]
  have record : Board.record { e.slotWritten size with
      sector1 := stage.memory (e.record.pending update) e.sector1 } =
      metadataRead (stage.memory (e.record.pending update) e.sector1) := rfl
  unfold Board.BackupDescribed
  rw [record, nor]
  cases stage with
  | unchanged => exact described (by simp)
  | erased =>
      rw [metadataRead_erased]
      exact .inl rfl
  | half => exact absurd rfl whole
  | full =>
      rw [metadataRead_full]
      exact described (by simp)

theorem otaFlashWrite_described (faults : UpdateFaults) (physical : faults.backup.Physical)
    (update : Update) (fits : update.received ≤ appSize) (b : Board)
    (described : b.BackupDescribed) (truthful : faults.Truthful update.received b) :
    (otaFlashWrite faults update b).2.BackupDescribed := by
  by_cases refused : faults.backup.erase.Refused
  · rw [otaFlashWrite_refused faults update b refused]
    exact described
  · have phase := otaFlashWrite_phase faults physical update fits b
    generalize (otaFlashWrite faults update b).1 = exit at phase
    generalize (otaFlashWrite faults update b).2 = t at phase ⊢
    cases phase with
    | backupStopped _ _ failed ending only =>
        rcases truthful with refuses | ⟨_, empty⟩ | ⟨completes, _⟩
        · exact absurd refuses refused
        · exact described_of_empty only.sector1 empty
        · exact absurd completes failed
    | recordCut backup cut =>
        rcases truthful with refuses | ⟨failed, _⟩ | ⟨_, ⟨kept, _⟩ | ⟨ready, _⟩⟩
        · exact absurd refuses refused
        · exact absurd backup failed
        · exact absurd cut kept
        · exact beforeSlot_described faults b ready
    | slotStopped _ _ backup failed kept ending only idle =>
        rcases truthful with refuses | ⟨stops, _⟩ | ⟨_, ⟨_, slot, _⟩ | ⟨ready, _⟩⟩
        · exact absurd refuses refused
        · exact absurd backup stops
        · exact absurd slot failed
        · exact described_of_onlyBank2 only (beforeSlot_described faults b ready)
    | published backup kept slot =>
        rcases truthful with refuses | ⟨stops, _⟩ | ⟨_, ⟨_, _, erased⟩ | ⟨ready, whole⟩⟩
        · exact absurd refuses refused
        · exact absurd backup stops
        · apply published_described
          · simp [erased]
          · intro other
            exact absurd erased other
        · apply published_described
          · intro half
            exact whole ⟨slot, half⟩
          · intro _
            exact beforeSlot_described faults b ready

/-- The QSPI commands of this event behave as the flash chip does. -/
def Event.Physical (event : Event) : Prop :=
  match event with
  | .update faults _ => faults.backup.Physical
  | .backup faults => faults.Physical
  | _ => True

/-- An `OTA_Flash_Write` or `Backup_SlotA` call that keeps the record truthful. -/
def Event.Truthful (b : Board) (event : Event) : Prop :=
  match event with
  | .update faults image => faults.Truthful image.update.received b
  | .backup faults => faults.Truthful b
  | _ => False

theorem staged_described (b : Board) (content : Mem) (described : b.BackupDescribed) :
    (b.staged content).BackupDescribed := by
  have nor : ∀ size, (b.staged content).nor.bytes backupOffset size =
      b.nor.bytes backupOffset size := by
    intro size
    apply bytes_congr
    intro i inside
    exact store_outside b.nor 0 backupOffset content _ (by omega)
  unfold Board.BackupDescribed Describes
  rw [Board.staged_record, nor]
  exact described

theorem staged_truthful (faults : UpdateFaults) (size : Nat) (b : Board) (content : Mem)
    (truthful : faults.Truthful size b) : faults.Truthful size (b.staged content) := by
  have ready : ∀ stage, BackupRecordOk stage (b.staged content) ↔ BackupRecordOk stage b := by
    intro stage
    unfold BackupRecordOk Board.SlotDescribed
    rw [Board.staged_record, Board.staged_bank2]
  unfold UpdateFaults.Truthful
  rw [Board.staged_record, ready]
  exact truthful

theorem described_step (b : Board) (event : Event) (described : b.BackupDescribed)
    (permitted : event.Physical ∧ event.Truthful b) : (deviceStep b event).BackupDescribed := by
  obtain ⟨physical, truthful⟩ := permitted
  cases event with
  | update faults image =>
      have fits := image.fitsApp
      rw [deviceStep_update]
      exact otaFlashWrite_described faults physical image.update fits _
        (staged_described b image.content described)
        (staged_truthful faults _ b image.content truthful)
  | backup faults =>
      rw [deviceStep_backup]
      exact backupSlotA_described faults physical b described truthful
  | boot boot => exact truthful.elim
  | restore faults record => exact truthful.elim
  | confirm faults => exact truthful.elim

/-- In every sequence of updates and manual backups that keep the record truthful, it
describes the backup area after every call. -/
theorem backup_record_describes (b : Board) (described : b.BackupDescribed)
    (events : List Event)
    (permitted : Run.Along deviceStep (fun s event => event.Physical ∧ event.Truthful s) b events) :
    Run.Along deviceStep (fun s event => (deviceStep s event).BackupDescribed) b events :=
  Run.invariant_along described_step described_step events b described permitted

/-- A device with image 0x11 in Bank 2, backup 0x33, and a record that describes the
first byte of each. -/
def describedBoard : Board :=
  Board.holding
    { Metadata.fresh with
      state := stateConfirmed
      crc32 := crc32Calculate [0x11]
      fwSize := 1
      bakCrc32 := crc32Calculate [0x33]
      bakFwSize := 1 }
    (fun _ => 0x11) (fun _ => 0x33)

theorem describedBoard_record :
    describedBoard.record.fwSize = 1 ∧ describedBoard.record.crc32 = crc32Calculate [0x11] ∧
      describedBoard.record.bakFwSize = 1 ∧
      describedBoard.record.bakCrc32 = crc32Calculate [0x33] := by
  unfold describedBoard
  rw [Board.holding_record]
  exact ⟨rfl, rfl, rfl, rfl⟩

theorem describedBoard_slot :
    describedBoard.SlotDescribed describedBoard.record.fwSize describedBoard.record.crc32 := by
  obtain ⟨size, crc, _, _⟩ := describedBoard_record
  rw [size, crc]
  exact ⟨by decide, .inr rfl⟩

theorem describedBoard_backup : describedBoard.BackupDescribed := by
  obtain ⟨_, _, size, crc⟩ := describedBoard_record
  unfold Board.BackupDescribed
  rw [size, crc]
  exact .inr rfl

/-- A manual backup without failures. -/
theorem backup_record_describes_clean :
    Run.Along deviceStep (fun s event => (deviceStep s event).BackupDescribed) describedBoard
      [.backup .clean] := by
  apply backup_record_describes describedBoard describedBoard_backup
  have truthful : ManualBackupFaults.clean.Truthful describedBoard :=
    .inr (.inr (.inr ⟨ManualBackupFaults.clean_completes, describedBoard_slot⟩))
  exact ⟨⟨ManualBackupFaults.clean_physical, truthful⟩, trivial⟩

/-- A chip that erases the first block and then reports errors. -/
def secondBlockFails : Qspi.EraseFaults where
  first := fun block _ => if block = 0 then .clean else ⟨.error, fun _ old _ => old⟩
  reinit := fun _ => .ok
  second := fun block _ => if block = 0 then .clean else ⟨.error, fun _ old _ => old⟩
  periodic := fun _ => .ok

def failedBackup : Event := .backup ⟨secondBlockFails, fun _ _ => .clean, .clean⟩

/-- The backup fails at its second block: the area is half erased, the record stays. -/
theorem failed_backup_keeps_record :
    describedBoard.SlotDescribed describedBoard.record.fwSize describedBoard.record.crc32 ∧
      describedBoard.BackupDescribed ∧
      ¬ Run.Along deviceStep (fun s event => (deviceStep s event).BackupDescribed) describedBoard
        [failedBackup] := by
  refine ⟨describedBoard_slot, describedBoard_backup, ?_⟩
  intro along
  have after : (deviceStep describedBoard failedBackup).BackupDescribed := along.1
  have kept : (deviceStep describedBoard failedBackup).record = describedBoard.record := rfl
  have erased : (deviceStep describedBoard failedBackup).nor.bytes backupOffset 1 = [0xFF] := by
    decide
  obtain ⟨_, _, size, crc⟩ := describedBoard_record
  unfold Board.BackupDescribed at after
  rw [kept, size, crc] at after
  rcases after with none | equal
  · exact absurd none (by decide)
  · have one : BitVec.toNat (1 : Word) = 1 := rfl
    rw [one, erased] at equal
    exact absurd equal (by decide)

end OtaBoot
