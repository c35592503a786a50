import OtaBoot.Boot
import OtaBoot.BoardMemory

set_option autoImplicit false

namespace OtaBoot

open Mem

/-- The four header bytes of the backup are all 0xFF. -/
def Board.backupBlank (b : Board) : Prop :=
  b.nor.bytes backupOffset 4 = [0xFF, 0xFF, 0xFF, 0xFF]

instance (b : Board) : Decidable b.backupBlank := inferInstanceAs (Decidable (_ = _))

theorem Board.backupBlank.first {b : Board} (blank : b.backupBlank) : b.nor backupOffset = 0xFF := by
  have whole : b.nor.bytes backupOffset 4 = [0xFF, 0xFF, 0xFF, 0xFF] := blank
  have head := congrArg List.head? whole
  simp only [bytes, List.range_succ_eq_map, List.map_cons, List.head?_cons, Nat.add_zero,
    Option.some.injEq] at head
  exact head

theorem copied_erased (b : Board) (source size : Nat) (limit : Nat) (fits : limit ≤ size) :
    copied { b with bank2 := b.bank2.erase 0 limit } source size = copied b source size := by
  funext i
  by_cases inside : i < size
  · rw [copied_inside _ _ _ _ inside, copied_inside _ _ _ _ inside]
  · rw [copied_outside _ _ _ _ (by omega), copied_outside _ _ _ _ (by omega)]
    exact erase_outside _ _ _ _ (by omega)

/-- Copying the backup into Bank 2: success leaves exactly the backup there, and
needs a header that is not blank; otherwise only Bank 2 may have changed. -/
theorem restoreBank2_ensures (faults : RestoreFaults) (b : Board) :
    Op.Ensures (restoreBank2 faults) b
      (fun ok t => OnlyBank2 b t appSize ∧
        (ok = true → ¬ b.backupBlank ∧ t.bank2 = copied b backupOffset appSize))
      (fun t => OnlyBank2 b t appSize) := by
  refine Op.Ensures.bind
    (fun hdr t => t = b ∧ ∀ bytes, hdr = some bytes → bytes = b.nor.bytes backupOffset 4)
    (readNor_ensures (fun _ => ⟨rfl, fun _ found => (Option.some.inj found).symm⟩)
      (fun _ => ⟨rfl, by simp⟩) fun _ => OnlyBank2.refl b appSize) ?_
  rintro hdr t ⟨rfl, found⟩
  cases hdr with
  | none => exact ⟨OnlyBank2.refl t appSize, by simp⟩
  | some bytes =>
      simp only
      split
      · exact ⟨OnlyBank2.refl t appSize, by simp⟩
      · rename_i present
        rw [found bytes rfl] at present
        have erasing := eraseBank2_ensures 4 faults.erase appSize t
        rw [sectorSpan_appSize] at erasing
        refine Op.Ensures.bind _ erasing ?_
        intro ok u erased
        cases ok with
        | false => exact ⟨erased.1, by simp⟩
        | true =>
            have blank : u.bank2 = t.bank2.erase 0 appSize := erased.2 rfl
            have all : Erased u.bank2 0 appSize := by
              rw [blank]
              simpa only [Nat.zero_add] using erase_erased t.bank2 0 appSize
            have board : u = { t with bank2 := t.bank2.erase 0 appSize } := by
              rw [← blank]
              exact erased.1.same
            have copying := copyToBank2_ensures faults.read faults.program backupOffset appSize
              appSize u all (by decide) (Nat.le_refl _)
            refine copying.mono ?_ ?_
            · intro done v result
              refine ⟨erased.1.trans result.1, fun success => ⟨present, ?_⟩⟩
              rw [result.2 success, board]
              exact copied_erased t backupOffset appSize appSize (Nat.le_refl _)
            · intro v result
              exact erased.1.trans result

/-- No operation of the copy fails for good or loses power. -/
structure RestoreFaults.Completes (faults : RestoreFaults) : Prop where
  header : faults.header = .ok
  erase : EraseCompletes 4 faults.erase appSize
  copy : CopyCompletes faults.read faults.program appSize

theorem restoreBank2_completes (faults : RestoreFaults) (b : Board) :
    (restoreBank2 faults b).1 = .done true ↔ ¬ b.backupBlank ∧ faults.Completes := by
  have body := (eraseBank2_succeeds 4 faults.erase appSize).and
    (copyToBank2_succeeds faults.read faults.program backupOffset appSize) b
  have fields : faults.Completes ↔ faults.header = .ok ∧
      EraseCompletes 4 faults.erase appSize ∧ CopyCompletes faults.read faults.program appSize :=
    ⟨fun all => ⟨all.header, all.erase, all.copy⟩, fun all => ⟨all.1, all.2.1, all.2.2⟩⟩
  rw [fields]
  unfold restoreBank2 Board.backupBlank
  rw [Op.bind_run]
  unfold onNor Op.zoom Qspi.bspQspiRead
  generalize faults.header = status
  cases status with
  | error => simp [Op.pure_run]
  | cut => simp
  | ok =>
      simp only [true_and]
      by_cases blank : b.nor.bytes backupOffset 4 = [0xFF, 0xFF, 0xFF, 0xFF]
      · simp only [blank, ↓reduceIte, Op.pure_run, Exit.done.injEq, Bool.false_eq_true,
          not_true_eq_false, false_and]
      · simp only [blank, ↓reduceIte, not_false_eq_true, true_and]
        exact body

/-- The copy stops before it has erased anything. -/
def RestoreFaults.Refused (faults : RestoreFaults) (b : Board) : Prop :=
  faults.header ≠ .ok ∨ b.backupBlank ∨ Attempt.takes (faults.erase 0) 4 0 = false

theorem restoreBank2_refused (faults : RestoreFaults) (b : Board) (refused : faults.Refused b) :
    (restoreBank2 faults b).2 = b := by
  unfold restoreBank2
  rw [Op.bind_run]
  unfold onNor Op.zoom Qspi.bspQspiRead
  generalize reported : faults.header = status
  cases status with
  | error => rfl
  | cut => rfl
  | ok =>
      simp only
      by_cases blank : b.nor.bytes backupOffset 4 = [0xFF, 0xFF, 0xFF, 0xFF]
      · simp only [blank, ↓reduceIte, Op.pure_run]
      · simp only [blank, ↓reduceIte]
        rcases refused with header | isBlank | idle
        · exact absurd reported header
        · exact absurd isBlank blank
        · obtain ⟨exit, stopped, run⟩ :=
            eraseBank2_idle 4 faults.erase appSize (by decide) b idle
          cases exit with
          | cut => rw [Op.bind_run_cut _ _ _ _ run]
          | done ok =>
              cases ok with
              | true => exact absurd rfl stopped
              | false =>
                  rw [Op.bind_run_done _ _ _ _ _ run]
                  rfl

/-- Where `Restore_SlotA` leaves the board. -/
inductive RestorePhase (faults : RestoreFaults) (record : MetaFaults) (b : Board) : Board → Prop
  | stopped (t : Board) (failed : ¬ (¬ b.backupBlank ∧ faults.Completes))
      (only : OnlyBank2 b t appSize) (idle : faults.Refused b → t = b) :
      RestorePhase faults record b t
  | restored (present : ¬ b.backupBlank) (completes : faults.Completes) :
      RestorePhase faults record b { b with
        bank2 := copied b backupOffset appSize
        sector1 := record.stage.memory b.record.restored b.sector1 }

theorem restoreSlotA_phase (faults : RestoreFaults) (record : MetaFaults) (b : Board) :
    RestorePhase faults record b (restoreSlotA faults record b).2 := by
  have spec := restoreBank2_ensures faults b
  have completes := restoreBank2_completes faults b
  have idle := restoreBank2_refused faults b
  unfold restoreSlotA
  generalize run : restoreBank2 faults b = result at completes idle
  obtain ⟨ending, t⟩ := result
  cases ending with
  | cut =>
      rw [Op.bind_run_cut _ _ _ _ run]
      have only := Op.ensures_of_cut spec run
      exact .stopped _ (fun all => nomatch completes.mpr all) only idle
  | done ok =>
      rw [Op.bind_run_done _ _ _ _ _ run]
      have result := Op.ensures_of_run spec run
      cases ok with
      | false =>
          have failed : ¬ (¬ b.backupBlank ∧ faults.Completes) := by
            intro all
            have success := completes.mpr all
            simp at success
          exact .stopped _ failed result.1 idle
      | true =>
          have all := completes.mp rfl
          have content : t = { b with bank2 := copied b backupOffset appSize } := by
            rw [← (result.2 rfl).2]
            exact result.1.same
          subst content
          simp only [↓reduceIte, confirmRestored]
          rw [Op.bind_run, Op.gets_bind_run, recordWrite_run]
          have phase : RestorePhase faults record b { b with
              bank2 := copied b backupOffset appSize
              sector1 := record.stage.memory b.record.restored b.sector1 } :=
            .restored all.1 all.2
          generalize record.exit = ending
          cases ending with
          | done _ => exact phase
          | cut => exact phase

/-- What a rollback attempt may change, however it ends. -/
structure RollbackFrame (b t : Board) : Prop where
  sector1 : t.sector1 = b.sector1
  nor : t.nor = b.nor
  rsr : t.rsr = b.rsr
  bank2 : Framed b.bank2 t.bank2 0 appSize

theorem RollbackFrame.of_onlyBank2 {b t : Board} (only : OnlyBank2 b t appSize) :
    RollbackFrame b t :=
  ⟨only.sector1, only.nor, by rw [only.same], only.frame⟩

/-- A rollback attempt that completes leaves exactly the backup in Bank 2. -/
theorem bootDoRollback_ensures (init : Status) (faults : RestoreFaults) (b : Board) :
    Op.Ensures (bootDoRollback init faults) b
      (fun ok t => RollbackFrame b t ∧
        (ok = true → ¬ b.backupBlank ∧ t.bank2 = copied b backupOffset appSize))
      (fun t => RollbackFrame b t) := by
  have restored : ∀ inited, Op.Ensures (restoreBank2 faults) { b with qspiInited := inited }
      (fun ok t => RollbackFrame b t ∧
        (ok = true → ¬ b.backupBlank ∧ t.bank2 = copied b backupOffset appSize))
      (fun t => RollbackFrame b t) := by
    intro inited
    refine (restoreBank2_ensures faults { b with qspiInited := inited }).mono ?_ ?_
    · intro ok t result
      have kept := RollbackFrame.of_onlyBank2 result.1
      exact ⟨⟨kept.sector1, kept.nor, kept.rsr, kept.bank2⟩, result.2⟩
    · intro t result
      have kept := RollbackFrame.of_onlyBank2 result
      exact ⟨kept.sector1, kept.nor, kept.rsr, kept.bank2⟩
  have still : RollbackFrame b b := RollbackFrame.of_onlyBank2 (OnlyBank2.refl b appSize)
  unfold bootDoRollback
  refine Op.Ensures.bind
    (fun ok t => ∃ inited, t = { b with qspiInited := inited }) ?_ ?_
  · unfold ensureQspi
    rw [Op.ensures_gets_bind]
    split
    · exact ⟨b.qspiInited, rfl⟩
    · refine Op.Ensures.bind (fun _ t => t = b) ?_ ?_
      · unfold onNor
        rw [Op.ensures_zoom]
        exact Status.check_ensures (fun _ => rfl) (fun _ => rfl) fun _ => still
      · rintro ok t rfl
        cases ok with
        | false => exact ⟨t.qspiInited, rfl⟩
        | true => exact ⟨true, rfl⟩
  · rintro ok t ⟨inited, rfl⟩
    cases ok with
    | false => exact ⟨⟨rfl, rfl, rfl, Framed.refl _ _ _⟩, by simp⟩
    | true => exact restored inited

/-- A rollback completes exactly when the QSPI is or can be initialised, the backup is
not blank and the operations work within their budgets. -/
theorem bootDoRollback_succeeds (init : Status) (faults : RestoreFaults) (b : Board) :
    (bootDoRollback init faults b).1 = .done true ↔
      (b.qspiInited = true ∨ init = .ok) ∧ ¬ b.backupBlank ∧ faults.Completes := by
  unfold bootDoRollback ensureQspi
  rw [Op.bind_run, Op.gets_bind_run]
  cases inited : b.qspiInited with
  | true =>
      simp only [↓reduceIte, Op.pure_run, true_or, true_and]
      exact restoreBank2_completes faults b
  | false =>
      simp only [Bool.false_eq_true, ↓reduceIte, false_or]
      rw [Op.bind_run]
      unfold onNor Op.zoom Qspi.bspQspiInit Status.check Status.report
      cases init with
      | error => simp [Op.pure_run]
      | cut => simp
      | ok =>
          simp only [↓reduceIte, true_and]
          exact restoreBank2_completes faults { b with qspiInited := true }

/-- From reset, the QSPI has to be initialised first. -/
theorem bootDoRollback_completes (init : Status) (faults : RestoreFaults) (b : Board)
    (fresh : b.qspiInited = false) :
    (bootDoRollback init faults b).1 = .done true ↔
      init = .ok ∧ ¬ b.backupBlank ∧ faults.Completes := by
  rw [bootDoRollback_succeeds, fresh]
  simp only [Bool.false_eq_true, false_or]

end OtaBoot
