import OtaBoot.BackupMemory

set_option autoImplicit false

namespace OtaBoot

open Mem

/-- Every sector and word of step 2 works within its tries. -/
structure UpdateFaults.WritesSlot (faults : UpdateFaults) (size : Nat) : Prop where
  erase : EraseCompletes 8 faults.erase size
  copy : CopyCompletes faults.read faults.program size

/-- Bank 2 after step 2: the needed sectors erased, then the staged image. -/
def Board.slotWritten (b : Board) (size : Nat) : Board :=
  { b with bank2 := (b.bank2.erase 0 (sectorSpan size)).store 0 size b.nor }

theorem Board.slotWritten_inside (b : Board) (size i : Nat) (inside : i < size) :
    (b.slotWritten size).bank2 i = b.nor i :=
  store_inside _ _ _ _ _ (Nat.zero_le _) (by omega)

theorem sectorSpan_aligned (size : Nat) : sectorSpan size % flashWord = 0 := by
  simp only [sectorSpan, sectorSize, flashWord]
  omega

theorem writeSlot_ensures (faults : UpdateFaults) (size : Nat) (fits : size ≤ appSize) (b : Board) :
    Op.Ensures (writeSlot faults size) b
      (fun ok t => OnlyBank2 b t appSize ∧ (ok = true → t = b.slotWritten size))
      (fun t => OnlyBank2 b t appSize) := by
  have widen : ∀ t, OnlyBank2 b t (sectorSpan size) → OnlyBank2 b t appSize := by
    intro t only
    exact ⟨only.same, only.frame.widen (Nat.le_refl 0) (sectorSpan_le size)⟩
  unfold writeSlot
  rw [Op.ensures_bind]
  apply (eraseBank2_ensures 8 faults.erase size b).mono
  · intro ok e erased
    cases ok with
    | false => exact ⟨widen e erased.1, by simp⟩
    | true =>
        have content : e.bank2 = b.bank2.erase 0 (sectorSpan size) := erased.2 rfl
        have blank : Erased e.bank2 0 (sectorSpan size) := by
          rw [content]
          simpa only [Nat.zero_add] using erase_erased b.bank2 0 (sectorSpan size)
        have copying := copyToBank2_ensures faults.read faults.program 0 size (sectorSpan size) e
          blank (sectorSpan_aligned size) (le_sectorSpan size fits)
        apply copying.mono
        · intro done t result
          constructor
          · exact widen t (erased.1.trans result.1)
          · intro success
            have image : t.bank2 = (b.bank2.erase 0 (sectorSpan size)).store 0 size b.nor := by
              rw [result.2 success, copied, content, erased.1.nor]
              simp only [Nat.zero_add]
            rw [(erased.1.trans result.1).same, image]
            rfl
        · intro t result
          exact widen t (erased.1.trans result)
  · intro t only
    exact widen t only

theorem writeSlot_succeeds (faults : UpdateFaults) (size : Nat) :
    Op.Succeeds (writeSlot faults size) (faults.WritesSlot size) := by
  have both := (eraseBank2_succeeds 8 faults.erase size).and
    (copyToBank2_succeeds faults.read faults.program 0 size)
  intro b
  have run := both b
  unfold writeSlot
  rw [run]
  exact ⟨fun all => ⟨all.1, all.2⟩, fun all => ⟨all.erase, all.copy⟩⟩

/-- If no try at the first sector takes effect, step 2 stops there. -/
theorem writeSlot_idle (faults : UpdateFaults) (size : Nat) (positive : 0 < size) (b : Board)
    (idle : Attempt.takes (faults.erase 0) 8 0 = false) : (writeSlot faults size b).2 = b := by
  obtain ⟨exit, stopped, run⟩ := eraseBank2_idle 8 faults.erase size positive b idle
  unfold writeSlot
  cases exit with
  | cut => rw [Op.bind_run_cut _ _ _ _ run]
  | done ok =>
      cases ok with
      | true => exact absurd rfl stopped
      | false =>
          rw [Op.bind_run_done _ _ _ _ _ run]
          rfl

/-- The board step 2 starts from: backup complete, its record as far as it got. -/
def UpdateFaults.beforeSlot (faults : UpdateFaults) (b : Board) : Board :=
  b.backedUp.recorded faults.recordBackup

/-- Where `OTA_Flash_Write` ends, decided by its faults. -/
inductive UpdatePhase (faults : UpdateFaults) (update : Update) (b : Board) :
    Exit Bool → Board → Prop
  | backupStopped (exit : Exit Bool) (t : Board) (failed : ¬ faults.backup.Completes)
      (ending : exit ≠ .done true) (only : OnlyBackup b t) : UpdatePhase faults update b exit t
  | recordCut (backup : faults.backup.Completes) (cut : faults.recordBackup.exit = .cut) :
      UpdatePhase faults update b .cut (faults.beforeSlot b)
  | slotStopped (exit : Exit Bool) (t : Board) (backup : faults.backup.Completes)
      (failed : ¬ faults.WritesSlot update.received) (kept : faults.recordBackup.exit ≠ .cut)
      (ending : exit ≠ .done true)
      (only : OnlyBank2 (faults.beforeSlot b) t appSize)
      (idle : 0 < update.received → Attempt.takes (faults.erase 0) 8 0 = false →
        t = faults.beforeSlot b) : UpdatePhase faults update b exit t
  | published (backup : faults.backup.Completes) (kept : faults.recordBackup.exit ≠ .cut)
      (slot : faults.WritesSlot update.received) :
      UpdatePhase faults update b faults.publish.exit
        { (faults.beforeSlot b).slotWritten update.received with
          sector1 := faults.publish.stage.memory ((faults.beforeSlot b).record.pending update)
            (faults.beforeSlot b).sector1 }

theorem publishPending_run (faults : MetaFaults) (update : Update) (b : Board) :
    publishPending faults update b = (faults.exit,
      { b with sector1 := faults.stage.memory (b.record.pending update) b.sector1 }) := by
  unfold publishPending
  rw [Op.gets_bind_run, recordWrite_run]

/-- From the board that step 1 leaves. -/
theorem installImage_phase (faults : UpdateFaults) (update : Update) (b : Board)
    (fits : update.received ≤ appSize) (backup : faults.backup.Completes)
    (kept : faults.recordBackup.exit ≠ .cut) (exit : Exit Bool) (t : Board)
    (run : installImage faults update (faults.beforeSlot b) = (exit, t)) :
    UpdatePhase faults update b exit t := by
  unfold installImage at run
  have spec := writeSlot_ensures faults update.received fits (faults.beforeSlot b)
  have completes := writeSlot_succeeds faults update.received (faults.beforeSlot b)
  have idle := fun positive => writeSlot_idle faults update.received positive (faults.beforeSlot b)
  generalize slot : writeSlot faults update.received (faults.beforeSlot b) = result
    at completes idle
  obtain ⟨ending, u⟩ := result
  cases ending with
  | cut =>
      rw [Op.bind_run_cut _ _ _ _ slot] at run
      obtain ⟨rfl, rfl⟩ := Prod.mk.inj run
      have failed : ¬ faults.WritesSlot update.received := fun all => nomatch completes.mpr all
      have only := Op.ensures_of_cut spec slot
      exact .slotStopped _ _ backup failed kept (by simp) only idle
  | done ok =>
      rw [Op.bind_run_done _ _ _ _ _ slot] at run
      have result := Op.ensures_of_run spec slot
      cases ok with
      | false =>
          obtain ⟨rfl, rfl⟩ := Prod.mk.inj run
          have failed : ¬ faults.WritesSlot update.received := by
            intro all
            have success := completes.mpr all
            simp at success
          exact .slotStopped _ _ backup failed kept (by simp) result.1 idle
      | true =>
          have written : u = (faults.beforeSlot b).slotWritten update.received := result.2 rfl
          subst written
          simp only [↓reduceIte] at run
          rw [publishPending_run] at run
          obtain ⟨rfl, rfl⟩ := Prod.mk.inj run
          exact .published backup kept (completes.mp rfl)

/-- Every run of `OTA_Flash_Write` ends in one of four phases. -/
theorem otaFlashWrite_phase (faults : UpdateFaults) (physical : faults.backup.Physical)
    (update : Update) (fits : update.received ≤ appSize) (b : Board) :
    UpdatePhase faults update b (otaFlashWrite faults update b).1
      (otaFlashWrite faults update b).2 := by
  have spec := backupOldSlot_ensures faults.backup physical b
  have completes := backupOldSlot_succeeds faults.backup b
  unfold otaFlashWrite
  generalize backup : backupOldSlot faults.backup b = result at completes
  obtain ⟨ending, e⟩ := result
  cases ending with
  | cut =>
      rw [Op.bind_run_cut _ _ _ _ backup]
      have failed : ¬ faults.backup.Completes := fun all => nomatch completes.mpr all
      have only := Op.ensures_of_cut spec backup
      exact .backupStopped _ _ failed (by simp) only
  | done ok =>
      rw [Op.bind_run_done _ _ _ _ _ backup]
      have backed := Op.ensures_of_run spec backup
      cases ok with
      | false =>
          have failed : ¬ faults.backup.Completes := by
            intro all
            have success := completes.mpr all
            simp at success
          exact .backupStopped _ _ failed (by simp [Op.pure_run]) backed.1
      | true =>
          have copied : e = b.backedUp := backed.2 rfl
          subst copied
          have all := completes.mp rfl
          have recording := recordBackup_ensures faults.recordBackup b.backedUp
          simp only [↓reduceIte]
          generalize record : recordBackup faults.recordBackup b.backedUp = result
          obtain ⟨ending, u⟩ := result
          cases ending with
          | cut =>
              have lost := Op.ensures_of_cut recording record
              rw [Op.bind_run_cut _ _ _ _ record]
              obtain ⟨rfl, cut⟩ := lost
              exact .recordCut all cut
          | done _ =>
              have kept := Op.ensures_of_run recording record
              rw [Op.bind_run_done _ _ _ _ _ record]
              obtain ⟨rfl, kept⟩ := kept
              exact installImage_phase faults update b fits all kept _ _ rfl

end OtaBoot
