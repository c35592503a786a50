import OtaBoot.Lib.Frame
import OtaBoot.RecvCallback
import OtaBoot.Device
import OtaBoot.FlashGate
import OtaBoot.StagingGate

set_option autoImplicit false

/- Which bytes of the device's flash each step of the program may change. -/
namespace OtaBoot

open Mem

/-- From `low` on and below `high`. -/
def Span (low high i : Nat) : Prop := low ≤ i ∧ i < high

/-- An operation on one memory changes only bytes of `touches`. -/
abbrev WritesAt {α : Type} (touches : Nat → Prop) (c : Op Mem α) : Prop :=
  Op.Writes (fun (m : Mem) i => m i) touches c

namespace Qspi

section Array

variable {low high : Nat}

theorem writes_command (fault : ChipFault) {address size : Nat} (want : Nat → Byte → Byte)
    (lower : low ≤ address) (upper : address + size ≤ high) :
    WritesAt (Span low high) (fault.command address size want) := by
  intro i outside m
  have apart : i < address ∨ address + size ≤ i := by
    unfold Span at outside
    omega
  unfold ChipFault.command
  rw [Status.report_snd]
  exact store_outside m address size _ i apart

theorem writes_bspQspiInit (status : Status) : WritesAt (Span low high) (bspQspiInit status) := by
  intro i _ m
  unfold bspQspiInit Status.check
  rw [Status.report_snd]

theorem writes_bspQspiRead (status : Status) (address size : Nat) :
    WritesAt (Span low high) (bspQspiRead status address size) := by
  intro i _ m
  unfold bspQspiRead
  cases status <;> rfl

/-- A page program stays in the page, also one that wraps. -/
theorem writes_bspQspiWriteFrom (faults : Nat → ChipFault) (data : Nat → Byte)
    (lowAligned : low % qspiPageSize = 0) (highAligned : high % qspiPageSize = 0) (passes : Nat) :
    ∀ pass address offset remaining, low ≤ address → address + remaining ≤ high →
    WritesAt (Span low high) (bspQspiWriteFrom faults data passes pass address offset remaining) := by
  induction passes with
  | zero =>
      intro pass address offset remaining _ _
      exact Op.writes_pure true
  | succ passes ih =>
      intro pass address offset remaining lower upper
      rw [bspQspiWriteFrom]
      split
      · exact Op.writes_pure true
      · rename_i nonempty
        have start : low ≤ address - address % qspiPageSize := by
          simp only [qspiPageSize] at lowAligned ⊢
          omega
        have stop : address - address % qspiPageSize + qspiPageSize ≤ high := by
          simp only [qspiPageSize] at highAligned ⊢
          omega
        apply (writes_command _ _ start stop).bind
        intro ok
        apply Op.Writes.ite _ (Op.writes_pure false)
        apply ih
        · split <;> omega
        · split <;> omega

theorem writes_bspQspiWrite (faults : Nat → ChipFault) (data : Nat → Byte) {address size : Nat}
    (lowAligned : low % qspiPageSize = 0) (highAligned : high % qspiPageSize = 0)
    (lower : low ≤ address) (upper : address + size ≤ high) :
    WritesAt (Span low high) (bspQspiWrite faults data address size) :=
  writes_bspQspiWriteFrom faults data lowAligned highAligned size 0 address 0 size lower upper

theorem writes_qspiEraseBlocks (faults : EraseFaults) {start : Nat} (size : Nat) (lower : low ≤ start)
    (upper : start + (size + qspiBlock64KSize - 1) / qspiBlock64KSize * qspiBlock64KSize ≤ high) :
    WritesAt (Span low high) (qspiEraseBlocks faults start size) := by
  apply Op.writes_allFrom
  intro block _ inside
  have target : start + block * qspiBlock64KSize + qspiBlock64KSize ≤ high := by
    simp only [qspiBlock64KSize] at *
    omega
  have erase : ∀ tries : Nat → ChipFault, WritesAt (Span low high)
      (bspQspiEraseBlock64K tries (start + block * qspiBlock64KSize)) := by
    intro tries
    exact Op.writes_anyFrom (fun k => writes_command (tries k) _ (by omega) target) 3 0
  have block : WritesAt (Span low high)
      (qspiEraseOrReset faults block (start + block * qspiBlock64KSize)) := by
    apply (erase _).bind
    intro ok
    apply (Op.writes_pure true).ite
    exact (writes_bspQspiInit _).bind fun _ => erase _
  apply block.bind
  intro ok
  apply Op.Writes.ite _ (Op.writes_pure false)
  apply Op.Writes.ite _ (Op.writes_pure true)
  exact (writes_bspQspiInit _).bind fun _ => Op.writes_pure true

end Array

end Qspi

/-- The flash memories of the device. -/
inductive Chip
  | bank2
  | sector1
  | nor
  deriving DecidableEq

/-- The bytes of the device. -/
def Board.byte (b : Board) (place : Chip × Nat) : Byte :=
  match place.1 with
  | .bank2 => b.bank2 place.2
  | .sector1 => b.sector1 place.2
  | .nor => b.nor place.2

/-- The four areas the program has a use for. -/
inductive Area
  | slot
  | record
  | staging
  | backup
  deriving DecidableEq

def Area.Has (area : Area) (place : Chip × Nat) : Prop :=
  match area with
  | .slot => place.1 = .bank2 ∧ Span 0 appSize place.2
  | .record => place.1 = .sector1 ∧ Span 0 sectorSize place.2
  | .staging => place.1 = .nor ∧ Span 0 backupOffset place.2
  | .backup => place.1 = .nor ∧ Span backupOffset (backupOffset + appSize) place.2

/-- An operation changes only bytes of these areas. -/
abbrev WritesIn {α : Type} (areas : List Area) (c : Op Board α) : Prop :=
  Op.Writes Board.byte (fun place => ∃ area ∈ areas, area.Has place) c

section Areas

variable {α : Type} {areas : List Area}

theorem WritesIn.add {more : List Area} {c : Op Board α} (writes : WritesIn areas c)
    (wider : areas ⊆ more) : WritesIn more c :=
  Op.Writes.widen writes fun _ ⟨area, found, has⟩ => ⟨area, wider found, has⟩

theorem writes_onNor {low high : Nat} {c : Op Mem α} (writes : WritesAt (Span low high) c)
    (inside : ∀ i, Span low high i → ∃ area ∈ areas, area.Has (.nor, i)) :
    WritesIn areas (onNor c) := by
  apply Op.writes_zoom writes
  rintro b m ⟨chip, i⟩ outside
  cases chip with
  | bank2 => exact .inl rfl
  | sector1 => exact .inl rfl
  | nor => exact .inr ⟨i, fun has => outside (inside i has), rfl, rfl⟩

theorem writes_nothing {c : Op Mem α} (writes : WritesAt (Span 0 0) c) : WritesIn areas (onNor c) :=
  writes_onNor writes fun i none => absurd none.2 (Nat.not_lt_zero i)

theorem writes_staging {c : Op Mem α} (writes : WritesAt (Span 0 backupOffset) c) :
    WritesIn [.staging] (onNor c) :=
  writes_onNor writes fun _ has => ⟨.staging, List.mem_singleton_self _, rfl, has⟩

theorem writes_backup {c : Op Mem α}
    (writes : WritesAt (Span backupOffset (backupOffset + appSize)) c) :
    WritesIn [.backup] (onNor c) :=
  writes_onNor writes fun _ has => ⟨.backup, List.mem_singleton_self _, rfl, has⟩

theorem writes_recordWrite (faults : MetaFaults) (record : Metadata) :
    WritesIn [.record] (onSector1 (metadataWrite faults record)) := by
  have sector : WritesAt (Span 0 sectorSize) (metadataWrite faults record) := by
    have erase : WritesAt (Span 0 sectorSize) (metadataErase faults) := by
      apply Op.writes_anyFrom
      intro k
      apply Op.writes_perform
      intro m i outside
      apply erase_outside
      unfold Span at outside
      omega
    have program : ∀ i < 2, WritesAt (Span 0 sectorSize) (metadataProgram faults record.sealed i) := by
      intro i below
      apply Op.writes_anyFrom
      intro k
      apply Op.writes_perform
      intro m j outside
      apply program_outside
      unfold Span at outside
      simp only [sectorSize, flashWord] at outside ⊢
      omega
    apply erase.bind
    intro ok
    apply Op.Writes.ite _ (Op.writes_pure false)
    apply (Op.writes_allFrom fun i _ below => program i (by omega)).bind
    intro programmed
    exact Op.Writes.ite (fun _ _ _ => rfl) (Op.writes_pure false)
  apply Op.writes_zoom sector
  rintro b m ⟨chip, i⟩ outside
  cases chip with
  | bank2 => exact .inl rfl
  | nor => exact .inl rfl
  | sector1 =>
      exact .inr ⟨i, fun has => outside ⟨.record, List.mem_singleton_self _, rfl, has⟩, rfl, rfl⟩

/-- An effect on a part of Bank 2. -/
theorem writes_bank2 (effect : Mem → Mem) (apart : ∀ m i, ¬ Span 0 appSize i → effect m i = m i)
    (attempt : Attempt) :
    WritesIn [.slot] (attempt.perform fun b : Board => { b with bank2 := effect b.bank2 }) := by
  apply Op.writes_perform
  rintro b ⟨chip, i⟩ outside
  cases chip with
  | sector1 => rfl
  | nor => rfl
  | bank2 =>
      exact apart b.bank2 i fun has => outside ⟨.slot, List.mem_singleton_self _, rfl, has⟩

theorem writes_eraseBank2 (budget : Nat) (tries : Nat → Nat → Attempt) (limit : Nat) :
    WritesIn [.slot] (eraseBank2 budget tries limit) := by
  apply Op.writes_allFrom
  intro sector _ below
  apply (Op.writes_pure true).ite
  apply Op.writes_anyFrom
  intro k
  refine writes_bank2 (fun m => m.erase (sector * sectorSize) sectorSize) ?_ _
  intro m i outside
  apply erase_outside
  unfold Span at outside
  simp only [appSize, sectorSize] at outside ⊢
  omega

theorem writes_copyToBank2 (reads : Nat → Status) (programs : Nat → Nat → Attempt) (source : Nat)
    {size : Nat} (fits : size ≤ appSize) :
    WritesIn [.slot] (copyToBank2 reads programs source size) := by
  apply Op.writes_allFrom
  intro k _ below
  apply (writes_nothing (Qspi.writes_bspQspiRead _ _ _)).bind
  intro data
  cases data with
  | none => exact Op.writes_pure false
  | some bytes =>
      apply Op.writes_anyFrom
      intro t
      refine writes_bank2 (fun m => m.program (k * flashWord) flashWord (wordBuffer bytes)) ?_ _
      intro m i outside
      apply program_outside
      unfold Span at outside
      simp only [appSize, flashWord] at fits below outside ⊢
      omega

end Areas

section Operations

theorem writes_otaPoll (faults : PollFaults) (o : Ota) (fits : o.received ≤ otaBufSize) :
    WritesIn [.staging] (onNor (otaPoll faults o)) := by
  have inside : 0 + o.received ≤ backupOffset := by
    simp only [otaBufSize, backupOffset] at *
    omega
  have write : ∀ tries, WritesAt (Span 0 backupOffset) (Qspi.bspQspiWrite tries o.buf 0 o.received) :=
    fun tries => Qspi.writes_bspQspiWrite tries _ (by decide) (by decide) (Nat.zero_le _) inside
  have twice : WritesAt (Span 0 backupOffset) (stagingWrite faults o) := by
    apply (write _).bind
    intro ok
    apply (Op.writes_pure true).ite
    exact (Qspi.writes_bspQspiInit _).bind fun _ => write _
  have stage : WritesAt (Span 0 backupOffset) (stageImage faults o) := by
    apply (Qspi.writes_qspiEraseBlocks _ _ (Nat.zero_le _) (by decide)).bind
    intro _
    apply (Qspi.writes_bspQspiInit _).bind
    intro ready
    apply Op.Writes.ite _ (Op.writes_pure _)
    apply twice.bind
    intro written
    apply Op.Writes.ite _ (Op.writes_pure _)
    apply Op.Writes.bind fun _ _ => keeps_readbackFrom _ _ _ _ _
    intro crc
    cases crc with
    | none => exact Op.writes_pure _
    | some value => exact Op.writes_pure _
  apply writes_staging
  unfold otaPoll
  exact (Op.writes_pure _).ite ((Op.writes_pure _).ite stage)

theorem writes_resetQspi (areas : List Area) (status : Status) :
    WritesIn areas (resetQspi status) :=
  (writes_nothing (Qspi.writes_bspQspiInit status)).bind fun _ => Op.writes_pure ()

/-- The erase that both backups start with. -/
theorem writes_backupErase (faults : Qspi.EraseFaults) :
    WritesIn [.backup] (onNor (Qspi.qspiEraseBlocks faults backupOffset appSize)) :=
  writes_backup (Qspi.writes_qspiEraseBlocks faults appSize (Nat.le_refl _) (by decide))

/-- A write of one chunk of either backup. -/
theorem writes_backupWrite (faults : Nat → ChipFault) (data : Nat → Byte) {chunk size : Nat}
    (inside : chunk * size + size ≤ appSize) :
    WritesIn [.backup] (onNor (Qspi.bspQspiWrite faults data (backupOffset + chunk * size) size)) := by
  apply writes_backup
  apply Qspi.writes_bspQspiWrite
  · decide
  · decide
  · omega
  · omega

theorem writes_backupOldSlot (faults : BackupFaults) :
    WritesIn [.backup] (backupOldSlot faults) := by
  apply (writes_backupErase _).bind
  intro ok
  apply Op.Writes.ite _ (Op.writes_pure false)
  apply Op.writes_allFrom
  intro chunk _ below
  have inside : chunk * 64 + 64 ≤ appSize := by
    simp only [appSize] at below ⊢
    omega
  have body : ∀ data : Nat → Byte, WritesIn [.backup] (do
      if ← Op.anyFrom (backupTry faults chunk data) 3 0 then pure true
      else
        resetQspi (faults.giveUp chunk)
        pure false) := by
    intro data
    have tries : WritesIn [.backup] (Op.anyFrom (backupTry faults chunk data) 3 0) := by
      apply Op.writes_anyFrom
      intro k
      apply (writes_backupWrite _ data inside).bind
      intro written
      exact (Op.writes_pure true).ite ((writes_resetQspi _ _).bind fun _ => Op.writes_pure false)
    apply tries.bind
    intro done
    exact (Op.writes_pure true).ite ((writes_resetQspi _ _).bind fun _ => Op.writes_pure false)
  unfold backupChunk
  apply Op.Writes.ite
  · apply (writes_resetQspi _ _).bind
    intro _
    exact (Op.writes_gets _).bind body
  · exact (Op.writes_gets _).bind body

theorem writes_recordBackup (faults : MetaFaults) : WritesIn [.record] (recordBackup faults) := by
  apply (Op.writes_gets _).bind
  intro record
  exact (writes_recordWrite _ _).bind fun _ => Op.writes_pure ()

theorem writes_copySlotA (faults : ManualBackupFaults) : WritesIn [.backup] (copySlotA faults) := by
  apply (writes_backupErase _).bind
  intro ok
  apply Op.Writes.ite _ (Op.writes_pure false)
  apply Op.writes_allFrom
  intro chunk _ below
  have inside : chunk * 4096 + 4096 ≤ appSize := by
    simp only [appSize] at below ⊢
    omega
  exact (Op.writes_gets _).bind fun data => writes_backupWrite _ data inside

theorem writes_backupSlotA (faults : ManualBackupFaults) :
    WritesIn [.record, .backup] (backupSlotA faults) := by
  apply (Op.writes_gets _).bind
  intro msp
  apply (Op.writes_pure ()).ite
  apply ((writes_copySlotA faults).add (by simp)).bind
  intro ok
  exact ((writes_recordBackup _).add (by simp)).ite (Op.writes_pure ())

theorem writes_otaFlashWrite (faults : UpdateFaults) (update : Update)
    (fits : update.received ≤ appSize) :
    WritesIn [.slot, .record, .backup] (otaFlashWrite faults update) := by
  have slot : WritesIn [.slot] (writeSlot faults update.received) := by
    apply (writes_eraseBank2 _ _ _).bind
    intro ok
    exact (writes_copyToBank2 _ _ _ fits).ite (Op.writes_pure false)
  have publish : WritesIn [.record] (publishPending faults.publish update) :=
    (Op.writes_gets _).bind fun _ => writes_recordWrite _ _
  apply ((writes_backupOldSlot _).add (by simp)).bind
  intro ok
  apply Op.Writes.ite _ (Op.writes_pure false)
  apply ((writes_recordBackup _).add (by simp)).bind
  intro _
  apply (slot.add (by simp)).bind
  intro written
  exact (publish.add (by simp)).ite (Op.writes_pure false)

theorem writes_restoreBank2 (faults : RestoreFaults) : WritesIn [.slot] (restoreBank2 faults) := by
  apply (writes_nothing (Qspi.writes_bspQspiRead _ _ _)).bind
  intro header
  cases header with
  | none => exact Op.writes_pure false
  | some bytes =>
      apply (Op.writes_pure false).ite
      apply (writes_eraseBank2 _ _ _).bind
      intro ok
      exact (writes_copyToBank2 _ _ _ (Nat.le_refl _)).ite (Op.writes_pure false)

theorem writes_restoreSlotA (restore : RestoreFaults) (record : MetaFaults) :
    WritesIn [.slot, .record] (restoreSlotA restore record) := by
  apply ((writes_restoreBank2 _).add (by simp)).bind
  intro ok
  apply Op.Writes.ite _ (Op.writes_pure ())
  apply Op.Writes.bind _ fun _ => Op.writes_pure ()
  apply (Op.writes_gets _).bind
  intro found
  exact (writes_recordWrite _ _).add (by simp)

theorem writes_bootDoRollback (init : Status) (faults : RestoreFaults) :
    WritesIn [.slot] (bootDoRollback init faults) := by
  have ready : WritesIn [.slot] (ensureQspi init) := by
    apply (Op.writes_gets _).bind
    intro inited
    apply (Op.writes_pure true).ite
    apply (writes_nothing (Qspi.writes_bspQspiInit _)).bind
    intro ok
    apply Op.Writes.ite _ (Op.writes_pure false)
    intro _ _ _
    rfl
  apply ready.bind
  intro ok
  exact (writes_restoreBank2 _).ite (Op.writes_pure false)

theorem writes_rollbackStep (faults : BootFaults) (record : Metadata) :
    WritesIn [.slot, .record] (rollbackStep faults record) := by
  apply ((writes_bootDoRollback faults.init faults.restore).add (by simp)).bind
  intro ok
  apply Op.Writes.ite _ (Op.writes_pure 0)
  exact ((writes_recordWrite _ _).add (by simp)).bind fun _ => Op.writes_pure 2

theorem writes_appConfirm (faults : MetaFaults) : WritesIn [.record] (appConfirm faults) := by
  apply (Op.writes_gets _).bind
  intro record
  apply Op.Writes.ite _ (Op.writes_pure ())
  exact (writes_recordWrite _ _).bind fun _ => Op.writes_pure ()

end Operations

/-- What the boot step may write, by its branch. -/
def Board.bootAreas (b : Board) : List Area :=
  match b.bootBranch with
  | .pending => [.record]
  | .rollback => [.slot, .record]
  | .empty | .stay | .direct => []

/-- What a step of the program may write. -/
def Machine.areas (s : Machine) (input : Input) : List Area :=
  match input with
  | .reset boot _ _ => (s.board.reset boot.cause).bootAreas
  | .poll _ => if s.loc = .input ∧ s.ota.state = .verify then [.staging] else []
  | .confirmKey key _ =>
    if s.loc = .confirm ∧ isYes key = true then [.slot, .record, .backup] else []
  | .menuKey key _ =>
    if s.loc = .menu ∧ key = key3 then [.record, .backup]
    else if s.loc = .menu ∧ key = key4 then [.slot, .record]
    else []
  | .appConfirm _ => if s.loc = .app ∧ s.board.record.state = stateTesting then [.record] else []
  | _ => []

/-- The step changes no byte outside of its areas. -/
def Machine.StaysIn (s : Machine) (areas : List Area) (t : Machine) : Prop :=
  ∀ place, (∀ area ∈ areas, ¬ area.Has place) → t.board.byte place = s.board.byte place

theorem WritesIn.run {α : Type} {areas : List Area} {c : Op Board α} (writes : WritesIn areas c)
    (b : Board) (place : Chip × Nat) (outside : ∀ area ∈ areas, ¬ area.Has place) :
    (c b).2.byte place = b.byte place :=
  writes place (fun ⟨area, found, has⟩ => outside area found has) b

theorem boot_footprint (boot : Boot) (b : Board) (place : Chip × Nat)
    (outside : ∀ area ∈ (b.reset boot.cause).bootAreas, ¬ area.Has place) :
    (boot.run b).2.byte place = b.byte place := by
  unfold Boot.run
  rw [bootMetadataStep_run]
  unfold Board.bootAreas at outside
  generalize (b.reset boot.cause).bootBranch = branch at outside
  cases branch with
  | empty => rfl
  | stay => rfl
  | direct => rfl
  | pending =>
      have writes : WritesIn [.record] (pendingStep boot.faults (b.reset boot.cause).record) :=
        (writes_recordWrite _ _).bind fun _ => Op.writes_pure 1
      exact writes.run (b.reset boot.cause) place outside
  | rollback =>
      exact (writes_rollbackStep boot.faults (b.reset boot.cause).record).run
        { b.reset boot.cause with rsr := 0 } place outside

namespace Machine

variable (s : Machine)

theorem StaysIn.of_board {s t : Machine} {areas : List Area} (same : t.board = s.board) :
    s.StaysIn areas t := by
  intro place _
  rw [same]

theorem enterMenu_board (qspi : Status) :
    ∃ inited, (s.enterMenu qspi).board = { s.board with qspiInited := inited } := by
  unfold enterMenu
  split
  · exact ⟨s.board.qspiInited, rfl⟩
  · split
    · exact ⟨s.board.qspiInited, rfl⟩
    · exact ⟨true, rfl⟩

/-- All that `main` does to the board is its boot step and the start of the QSPI. -/
theorem main_board (boot : Boot) (key1 : Bool) (qspi : Status) : ∃ inited,
    (s.main boot key1 qspi).board = { (boot.run s.board).2 with qspiInited := inited } := by
  have asIs : ∃ inited, (boot.run s.board).2 = { (boot.run s.board).2 with qspiInited := inited } :=
    ⟨(boot.run s.board).2.qspiInited, rfl⟩
  unfold main dispatch
  generalize (boot.run s.board).1 = answer
  cases answer with
  | cut => exact asIs
  | done request =>
      dsimp only
      split
      · exact (s.restarted (boot.run s.board).2).enterMenu_board qspi
      · split
        · exact (s.restarted (boot.run s.board).2).enterMenu_board qspi
        · split
          · exact asIs
          · exact asIs

theorem main_footprint (boot : Boot) (key1 : Bool) (qspi : Status) :
    s.StaysIn (s.board.reset boot.cause).bootAreas (s.main boot key1 qspi) := by
  intro place outside
  obtain ⟨inited, board⟩ := s.main_board boot key1 qspi
  rw [board]
  exact boot_footprint boot s.board place outside

theorem perform_board {α : Type} (op : Op Board α) (next : Loc) :
    (s.perform op next).board = (op s.board).2 := by
  unfold perform
  generalize op s.board = result
  obtain ⟨exit, b⟩ := result
  cases exit <;> rfl

theorem perform_footprint {α : Type} {areas : List Area} {op : Op Board α} (writes : WritesIn areas op)
    (next : Loc) : s.StaysIn areas (s.perform op next) := by
  intro place outside
  rw [s.perform_board]
  exact writes.run s.board place outside

theorem poll_footprint (bounded : OtaC.Bounded s.ota) (faults : PollFaults) :
    s.StaysIn (if s.ota.state = .verify then [.staging] else []) (s.poll faults) := by
  intro place outside
  have kept : (onNor (otaPoll faults s.ota) s.board).2.byte place = s.board.byte place := by
    by_cases verify : s.ota.state = .verify
    · rw [if_pos verify] at outside
      exact (writes_otaPoll faults s.ota bounded.received).run s.board place outside
    · unfold otaPoll
      rw [if_pos verify]
      rfl
  have run : (onNor (otaPoll faults s.ota) s.board).2 =
      { s.board with nor := (otaPoll faults s.ota s.board.nor).2 } := rfl
  rw [run] at kept
  unfold poll
  generalize otaPoll faults s.ota s.board.nor = result at kept
  obtain ⟨exit, nor⟩ := result
  cases exit with
  | cut => exact kept
  | done state => exact kept

/-- The answer to the prompt reaches the board only through `OTA_Flash_Write`. -/
theorem confirmKey_board (key : Nat) (faults : UpdateFaults) : (s.confirmKey key faults).board =
    if isYes key = true then (otaFlashWrite faults s.update s.board).2 else s.board := by
  unfold confirmKey
  by_cases yes : isYes key = true
  · rw [if_pos yes, if_pos yes]
    generalize otaFlashWrite faults s.update s.board = result
    obtain ⟨exit, b⟩ := result
    cases exit with
    | cut => rfl
    | done ok => cases ok <;> rfl
  · rw [if_neg yes, if_neg yes]
    split <;> rfl

theorem confirmKey_footprint (bounded : OtaC.Bounded s.ota) (key : Nat) (faults : UpdateFaults) :
    s.StaysIn (if isYes key = true then [.slot, .record, .backup] else []) (s.confirmKey key faults) := by
  intro place outside
  rw [s.confirmKey_board]
  by_cases yes : isYes key = true
  · rw [if_pos yes] at outside ⊢
    have fits : s.update.received ≤ appSize := Nat.le_trans bounded.received (by decide)
    exact (writes_otaFlashWrite faults s.update fits).run s.board place outside
  · rw [if_neg yes]

/-- The keys that work on the flash. -/
theorem menuKey_board (key : Nat) (faults : MenuFaults) : (s.menuKey key faults).board =
    if key = key3 then (backupSlotA faults.backup s.board).2
    else if key = key4 then (restoreSlotA faults.restore faults.record s.board).2
    else s.board := by
  unfold menuKey
  by_cases three : key = key3
  · rw [if_pos three, if_neg (by rw [three]; decide), if_pos three]
    exact s.perform_board _ _
  · rw [if_neg three]
    by_cases four : key = key4
    · rw [if_pos four, if_neg (by rw [four]; decide), if_neg three, if_pos four]
      exact s.perform_board _ _
    · rw [if_neg four, if_neg three, if_neg four]
      split
      · split <;> rfl
      · split
        · rfl
        · split
          · rfl
          · split <;> rfl

theorem menuKey_footprint (key : Nat) (faults : MenuFaults) :
    s.StaysIn (if key = key3 then [.record, .backup] else if key = key4 then [.slot, .record] else [])
      (s.menuKey key faults) := by
  intro place outside
  rw [s.menuKey_board]
  by_cases three : key = key3
  · rw [if_pos three] at outside ⊢
    exact (writes_backupSlotA faults.backup).run s.board place outside
  · rw [if_neg three] at outside ⊢
    by_cases four : key = key4
    · rw [if_pos four] at outside ⊢
      exact (writes_restoreSlotA faults.restore faults.record).run s.board place outside
    · rw [if_neg four]

theorem appConfirm_footprint (faults : MetaFaults) :
    s.StaysIn (if s.board.record.state = stateTesting then [.record] else [])
      (s.perform (OtaBoot.appConfirm faults) .app) := by
  by_cases testing : s.board.record.state = stateTesting
  · rw [if_pos testing]
    exact s.perform_footprint (writes_appConfirm faults) _
  · rw [if_neg testing]
    have idle : OtaBoot.appConfirm faults s.board = (.done (), s.board) := by
      unfold OtaBoot.appConfirm
      rw [Op.gets_bind_run, if_neg testing]
      rfl
    apply StaysIn.of_board
    unfold perform
    rw [idle]

theorem promptKey_board (crc : Word) (key : Nat) (result : StartResult) :
    (s.promptKey crc key result).board = s.board := by
  unfold promptKey
  generalize ({ s.ota with crcExpected := crc } : Ota).serverStart result = started
  obtain ⟨o, listening⟩ := started
  split
  · cases listening <;> rfl
  · split <;> rfl

theorem triggerCheck_board (round : Nat) (elapsed : Bool) :
    (s.triggerCheck round elapsed).board = s.board := by
  unfold triggerCheck
  split
  · rfl
  · split
    · split <;> rfl
    · rfl

/-- One step writes only where its areas are. -/
theorem step_footprint (bounded : OtaC.Bounded s.ota) (input : Input) :
    s.StaysIn (s.areas input) (s.step input) := by
  have move := s.step_move input
  generalize s.step input = t at move
  cases move with
  | ignored => exact .of_board rfl
  | reset boot key1 qspi => exact s.main_footprint boot key1 qspi
  | accept => exact .of_board rfl
  | receive => exact .of_board rfl
  | fin => exact .of_board rfl
  | err => exact .of_board rfl
  | poll found faults =>
      simp only [areas, found, true_and]
      exact s.poll_footprint bounded faults
  | confirmKey found key faults =>
      simp only [areas, found, true_and]
      exact s.confirmKey_footprint bounded key faults
  | menuKey found key faults =>
      simp only [areas, found, true_and]
      exact s.menuKey_footprint key faults
  | versionChecked found result => exact .of_board (by cases result <;> rfl)
  | promptKey crc found key result => exact .of_board (s.promptKey_board crc key result)
  | leave => exact .of_board rfl
  | triggerCheck round found elapsed => exact .of_board (s.triggerCheck_board round elapsed)
  | appConfirm found faults =>
      simp only [areas, found, true_and]
      exact s.appConfirm_footprint faults

/-- A step that has no business in Bank 2 leaves it alone. -/
theorem bank2_of_areas (bounded : OtaC.Bounded s.ota) (input : Input)
    (apart : Area.slot ∉ s.areas input) : (s.step input).board.bank2 = s.board.bank2 := by
  funext i
  apply s.step_footprint bounded input (.bank2, i)
  intro area found has
  cases area with
  | slot => exact apart found
  | record => exact absurd has.1 (by simp)
  | staging => exact absurd has.1 (by simp)
  | backup => exact absurd has.1 (by simp)

end Machine

theorem powerOff_bounded (board : Board) (buf : Mem) :
    OtaC.Bounded (Machine.powerOff board buf).ota := OtaC.bounded_of_fresh rfl rfl rfl

/-- Whatever the chips, the network and the user do: each step writes only its own areas,
and the bytes outside of the four areas never change. -/
theorem flash_footprint (board : Board) (buf : Mem) (inputs : List Input) :
    Run.Along Machine.step (fun s input => s.StaysIn (s.areas input) (s.step input))
        (.powerOff board buf) inputs ∧
      ∀ place, (∀ area : Area, ¬ area.Has place) →
        (Run.after Machine.step (.powerOff board buf) inputs).board.byte place = board.byte place := by
  have along := Run.invariant_along (P := fun _ _ => True)
    (I := fun s : Machine => OtaC.Bounded s.ota)
    (fun s input bounded _ => OtaC.step_bounded s bounded input)
    (fun s input bounded _ => s.step_footprint bounded input) inputs (.powerOff board buf)
    (powerOff_bounded board buf) (Run.along_of_forall inputs (fun _ _ _ => trivial) _)
  refine ⟨along, ?_⟩
  intro place outside
  exact Run.invariant_after (I := fun s : Machine => s.board.byte place = board.byte place)
    (fun s input same stays => (stays place fun area _ => outside area).trans same) inputs
    (.powerOff board buf) rfl along

end OtaBoot
