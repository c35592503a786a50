import OtaBoot.Boot
import OtaBoot.BackupMemory
import OtaBoot.Crc32
import OtaBoot.Lib.Run

set_option autoImplicit false

namespace OtaBoot

open Mem

/-- `OTA_BUF_SIZE`. -/
abbrev otaBufSize : Nat := 512 * 1024

/-- An image in the staging area, with what `OTA_Flash_Write` is told about it. -/
structure Staged where
  update : Update
  content : Mem
  fits : update.received ≤ otaBufSize

theorem Staged.fitsApp (image : Staged) : image.update.received ≤ appSize :=
  Nat.le_trans image.fits (by decide)

/-- The staging area is the NOR below the backup area. -/
def Board.staged (b : Board) (content : Mem) : Board :=
  { b with nor := b.nor.store 0 backupOffset content }

theorem Board.staged_bank2 (b : Board) (content : Mem) : (b.staged content).bank2 = b.bank2 :=
  b.bank2_withNor _

theorem Board.staged_record (b : Board) (content : Mem) : (b.staged content).record = b.record :=
  b.record_withNor _

def Metadata.confirmed (record : Metadata) : Metadata := { record with state := stateConfirmed }

/-- A running App turns TESTING into CONFIRMED. -/
def appConfirm (faults : MetaFaults) : Op Board Unit := do
  let record ← Op.gets Board.record
  if record.state = stateTesting then
    let _ ← onSector1 (metadataWrite faults record.confirmed)
    pure ()
  else pure ()

/-- The operations that change a device's flash. -/
inductive Event
  | boot (boot : Boot)
  | update (faults : UpdateFaults) (image : Staged)
  | backup (faults : ManualBackupFaults)
  | restore (faults : RestoreFaults) (record : MetaFaults)
  | confirm (faults : MetaFaults)

/-- One operation, run until it returns or power is lost. -/
def deviceStep (b : Board) (event : Event) : Board :=
  match event with
  | .boot boot => (boot.run b).2
  | .update faults image => (otaFlashWrite faults image.update (b.staged image.content)).2
  | .backup faults => (backupSlotA faults b).2
  | .restore faults record => (restoreSlotA faults record b).2
  | .confirm faults => (appConfirm faults b).2

-- The equations of the step, for rewriting: unfolding it by `rfl` at concrete faults
-- would make the kernel run the operation.
theorem deviceStep_boot (b : Board) (boot : Boot) :
    deviceStep b (.boot boot) = (boot.run b).2 := rfl

theorem deviceStep_update (b : Board) (faults : UpdateFaults) (image : Staged) :
    deviceStep b (.update faults image) =
      (otaFlashWrite faults image.update (b.staged image.content)).2 := rfl

theorem deviceStep_backup (b : Board) (faults : ManualBackupFaults) :
    deviceStep b (.backup faults) = (backupSlotA faults b).2 := rfl

theorem deviceStep_restore (b : Board) (faults : RestoreFaults) (record : MetaFaults) :
    deviceStep b (.restore faults record) = (restoreSlotA faults record b).2 := rfl

theorem deviceStep_confirm (b : Board) (faults : MetaFaults) :
    deviceStep b (.confirm faults) = (appConfirm faults b).2 := rfl

/- Only a reset and the watchdog check change the reset flags. -/
section Flags

theorem keeps_recordBackup (faults : MetaFaults) : Op.Keeps Board.rsr (recordBackup faults) := by
  apply (Op.keeps_gets _).bind
  intro record
  exact (keeps_onSector1 (fun _ _ => rfl) _).bind fun _ => Op.keeps_pure ()

theorem keeps_otaFlashWrite (faults : UpdateFaults) (update : Update) :
    Op.Keeps Board.rsr (otaFlashWrite faults update) := by
  have publish : Op.Keeps Board.rsr (publishPending faults.publish update) :=
    (Op.keeps_gets _).bind fun _ => keeps_onSector1 (fun _ _ => rfl) _
  have slot : Op.Keeps Board.rsr (writeSlot faults update.received) := by
    apply (keeps_eraseBank2 (fun _ _ => rfl) _ _ _).bind
    intro ok
    exact (keeps_copyToBank2 (fun _ _ => rfl) (fun _ _ => rfl) _ _ _ _).ite (Op.keeps_pure false)
  apply (keeps_backupOldSlot (fun _ _ => rfl) _).bind
  intro ok
  apply Op.Keeps.ite _ (Op.keeps_pure false)
  apply (keeps_recordBackup _).bind
  intro _
  apply slot.bind
  intro written
  exact publish.ite (Op.keeps_pure false)

theorem keeps_backupSlotA (faults : ManualBackupFaults) :
    Op.Keeps Board.rsr (backupSlotA faults) := by
  have copy : Op.Keeps Board.rsr (copySlotA faults) := by
    apply (keeps_onNor (fun _ _ => rfl) _).bind
    intro ok
    apply Op.Keeps.ite _ (Op.keeps_pure false)
    apply Op.keeps_allFrom
    intro chunk
    exact (Op.keeps_gets _).bind fun _ => keeps_onNor (fun _ _ => rfl) _
  apply (Op.keeps_gets _).bind
  intro msp
  apply Op.Keeps.ite (Op.keeps_pure ())
  apply copy.bind
  intro ok
  exact (keeps_recordBackup _).ite (Op.keeps_pure ())

theorem keeps_restoreBank2 (faults : RestoreFaults) :
    Op.Keeps Board.rsr (restoreBank2 faults) := by
  apply (keeps_onNor (fun _ _ => rfl) _).bind
  intro hdr
  cases hdr with
  | none => exact Op.keeps_pure false
  | some bytes =>
      apply Op.Keeps.ite (Op.keeps_pure false)
      apply (keeps_eraseBank2 (fun _ _ => rfl) _ _ _).bind
      intro ok
      exact (keeps_copyToBank2 (fun _ _ => rfl) (fun _ _ => rfl) _ _ _ _).ite (Op.keeps_pure false)

theorem keeps_restoreSlotA (faults : RestoreFaults) (record : MetaFaults) :
    Op.Keeps Board.rsr (restoreSlotA faults record) := by
  have confirm : Op.Keeps Board.rsr (confirmRestored record) :=
    (Op.keeps_gets _).bind fun _ => keeps_onSector1 (fun _ _ => rfl) _
  apply (keeps_restoreBank2 _).bind
  intro ok
  exact (confirm.bind fun _ => Op.keeps_pure ()).ite (Op.keeps_pure ())

theorem keeps_appConfirm (faults : MetaFaults) : Op.Keeps Board.rsr (appConfirm faults) := by
  apply (Op.keeps_gets _).bind
  intro record
  exact ((keeps_onSector1 (fun _ _ => rfl) _).bind fun _ => Op.keeps_pure ()).ite (Op.keeps_pure ())

theorem keeps_bootDoRollback (init : Status) (faults : RestoreFaults) :
    Op.Keeps Board.rsr (bootDoRollback init faults) := by
  have ready : Op.Keeps Board.rsr (ensureQspi init) := by
    apply (Op.keeps_gets _).bind
    intro inited
    apply Op.Keeps.ite (Op.keeps_pure true)
    apply (keeps_onNor (fun _ _ => rfl) _).bind
    intro ok
    apply Op.Keeps.ite _ (Op.keeps_pure false)
    intro b
    rfl
  apply ready.bind
  intro ok
  exact (keeps_restoreBank2 _).ite (Op.keeps_pure false)

end Flags

end OtaBoot
