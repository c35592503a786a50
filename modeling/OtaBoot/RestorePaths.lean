import OtaBoot.MetadataAtomic
import OtaBoot.TrialRun

set_option autoImplicit false

/- `Restore_SlotA` and `Boot_DoRollback` of `menu.c`, each translated from its own text;
the definitions they are compared with take the common part once. -/
namespace OtaBoot.MenuC

open Mem

/-- The `while (remain > 0)` loop of `Restore_SlotA`. Every pass copies at least one byte,
so as many passes as bytes always suffice. -/
def restoreWords (faults : RestoreFaults) : Nat → Nat → Nat → Nat → Op Board Bool
  | 0, _, _, _ => pure true
  | passes + 1, pass, off, remain =>
    if remain > 0 then
      let chunk := if remain ≥ 32 then 32 else remain
      do
        match ← onNor (Qspi.bspQspiRead (faults.read pass) (backupOffset + off) chunk) with
        | none => pure false
        | some wbuf =>
          if ← Op.anyFrom (fun attempt => (faults.program pass attempt).perform
              (Board.programWord off (wordBuffer wbuf))) 3 0 then
            restoreWords faults passes (pass + 1) (off + chunk) (remain - chunk)
          else pure false
    else pure true

/-- `Restore_SlotA`. The record is read after the copy. -/
def restoreSlotA (faults : RestoreFaults) (record : MetaFaults) : Op Board Unit := do
  match ← onNor (Qspi.bspQspiRead faults.header backupOffset 4) with
  | none => pure ()
  | some hdr =>
    if hdr = [0xFF, 0xFF, 0xFF, 0xFF] then pure ()
    else if ← Op.allFrom (fun s => Op.anyFrom (fun attempt =>
        (faults.erase s attempt).perform (Board.eraseSector s)) 4 0) 8 0 then
      if ← restoreWords faults appSize 0 0 appSize then
        let old ← Op.gets Board.record
        let _ ← onSector1 (metadataWrite record { old with
          curMajor := old.bakMajor
          curMinor := old.bakMinor
          curPatch := old.bakPatch
          crc32 := old.bakCrc32
          fwSize := old.bakFwSize
          state := stateConfirmed })
        pure ()
      else pure ()
    else pure ()

/-- The `while (remain > 0)` loop of `Boot_DoRollback`. -/
def rollbackWords (faults : RestoreFaults) : Nat → Nat → Nat → Nat → Op Board Bool
  | 0, _, _, _ => pure true
  | passes + 1, pass, off, remain =>
    if remain > 0 then
      let chunk := if remain ≥ 32 then 32 else remain
      do
        match ← onNor (Qspi.bspQspiRead (faults.read pass) (backupOffset + off) chunk) with
        | none => pure false
        | some wbuf =>
          if ← Op.anyFrom (fun attempt => (faults.program pass attempt).perform
              (Board.programWord off (wordBuffer wbuf))) 3 0 then
            rollbackWords faults passes (pass + 1) (off + chunk) (remain - chunk)
          else pure false
    else pure true

/-- `Boot_DoRollback`; `true` stands for the return value 0. -/
def bootDoRollback (init : Status) (faults : RestoreFaults) : Op Board Bool := do
  if ← ensureQspi init then
    match ← onNor (Qspi.bspQspiRead faults.header backupOffset 4) with
    | none => pure false
    | some hdr =>
      if hdr = [0xFF, 0xFF, 0xFF, 0xFF] then pure false
      else if ← Op.allFrom (fun s => Op.anyFrom (fun attempt =>
          (faults.erase s attempt).perform (Board.eraseSector s)) 4 0) 8 0 then
        rollbackWords faults appSize 0 0 appSize
      else pure false
  else pure false

/-- The rollback branch of `Boot_Metadata_Step`. The record was read before the copy. -/
def rollbackBranch (faults : BootFaults) : Op Board Nat := do
  let old ← Op.gets Board.record
  if ← bootDoRollback faults.init faults.restore then
    let _ ← onSector1 (metadataWrite faults.record { old with
      curMajor := old.bakMajor
      curMinor := old.bakMinor
      curPatch := old.bakPatch
      crc32 := old.bakCrc32
      fwSize := old.bakFwSize
      state := stateConfirmed })
    pure 2
  else pure 0

/-- While whole flash words are left, the loop is one over words. -/
theorem restoreWords_eq (faults : RestoreFaults) (size left : Nat) : ∀ passes pass,
    32 * left ≤ passes → (pass + left) * 32 = size →
    restoreWords faults passes pass (pass * 32) (32 * left) =
      Op.allFrom (copyPass faults.read faults.program backupOffset size) left pass := by
  induction left with
  | zero =>
      intro passes pass _ _
      cases passes with
      | zero => rfl
      | succ passes => rfl
  | succ left ih =>
      intro passes pass enough total
      obtain ⟨more, rfl⟩ : ∃ more, passes = more + 1 := ⟨passes - 1, by omega⟩
      have chunk : (if 32 * (left + 1) ≥ 32 then 32 else 32 * (left + 1)) = 32 :=
        if_pos (by omega)
      have whole : (if size - pass * flashWord ≥ flashWord then flashWord
          else size - pass * flashWord) = 32 := by
        rw [if_pos (by simp only [flashWord]; omega)]
      have next : pass * 32 + 32 = (pass + 1) * 32 := by omega
      have rest : 32 * (left + 1) - 32 = 32 * left := by omega
      unfold restoreWords Op.allFrom copyPass
      rw [if_pos (by omega)]
      simp only [chunk, whole, next, rest]
      rw [ih more (pass + 1) (by omega) (by omega), Op.bind_assoc]
      congr 1
      funext data
      cases data with
      | none => rfl
      | some wbuf => rfl

theorem rollbackWords_eq (faults : RestoreFaults) (passes : Nat) : ∀ pass off remain,
    rollbackWords faults passes pass off remain = restoreWords faults passes pass off remain := by
  induction passes with
  | zero =>
      intro pass off remain
      rfl
  | succ passes ih =>
      intro pass off remain
      unfold rollbackWords restoreWords
      simp only [ih]

theorem restoreWords_copy (faults : RestoreFaults) :
    restoreWords faults appSize 0 0 appSize =
      copyToBank2 faults.read faults.program backupOffset appSize := by
  have words := restoreWords_eq faults appSize (appSize / 32) appSize 0 (by decide) (by decide)
  rw [show 32 * (appSize / 32) = appSize by decide, Nat.zero_mul] at words
  rw [words]
  unfold copyToBank2
  rw [show (appSize + flashWord - 1) / flashWord = appSize / 32 by decide]

/-- All eight sectors start inside Bank 2. -/
theorem eraseSectors_eq (tries : Nat → Nat → Attempt) :
    Op.allFrom (fun s => Op.anyFrom (fun attempt =>
      (tries s attempt).perform (Board.eraseSector s)) 4 0) 8 0 = eraseBank2 4 tries appSize := by
  unfold eraseBank2
  apply Op.allFrom_congr
  intro s _ below
  rw [if_neg (by simp only [sectorSize, appSize]; omega)]

theorem restoreSlotA_eq (faults : RestoreFaults) (record : MetaFaults) :
    restoreSlotA faults record = OtaBoot.restoreSlotA faults record := by
  unfold restoreSlotA OtaBoot.restoreSlotA restoreBank2
  rw [Op.bind_assoc]
  congr 1
  funext hdr
  cases hdr with
  | none => rfl
  | some bytes =>
      dsimp only
      by_cases blank : bytes = [0xFF, 0xFF, 0xFF, 0xFF]
      · rw [if_pos blank, if_pos blank]
        rfl
      · rw [if_neg blank, if_neg blank, eraseSectors_eq, Op.bind_assoc]
        congr 1
        funext erased
        cases erased with
        | false => rfl
        | true =>
            rw [restoreWords_copy]
            rfl

theorem bootDoRollback_eq (init : Status) (faults : RestoreFaults) :
    bootDoRollback init faults = OtaBoot.bootDoRollback init faults := by
  unfold bootDoRollback OtaBoot.bootDoRollback restoreBank2
  congr 1
  funext inited
  cases inited with
  | false => rfl
  | true =>
      simp only [↓reduceIte]
      congr 1
      funext hdr
      cases hdr with
      | none => rfl
      | some bytes =>
          dsimp only
          rw [rollbackWords_eq, restoreWords_copy, eraseSectors_eq]

/-- The branch as `Boot_Metadata_Step` runs it. -/
theorem rollbackBranch_run (faults : BootFaults) (b : Board) :
    rollbackBranch faults b = rollbackStep faults b.record b := by
  unfold rollbackBranch rollbackStep
  rw [Op.gets_bind_run, bootDoRollback_eq]
  rfl

/-- On its way to the branch `Boot_Metadata_Step` has only cleared the reset flags. -/
theorem bootMetadataStep_rollback (faults : BootFaults) {b : Board}
    (rollback : b.bootBranch = .rollback) :
    bootMetadataStep faults b = rollbackBranch faults { b with rsr := 0 } := by
  rw [bootMetadataStep_run, rollback, rollbackBranch_run]
  rfl

/-- With the QSPI initialised a rollback is nothing but the copy. -/
theorem bootDoRollback_ready (init : Status) (faults : RestoreFaults) {b : Board}
    (ready : b.qspiInited = true) : bootDoRollback init faults b = restoreBank2 faults b := by
  have inited : ensureQspi init b = (.done true, b) := by
    unfold ensureQspi
    rw [Op.gets_bind_run, ready]
    rfl
  rw [bootDoRollback_eq]
  unfold OtaBoot.bootDoRollback
  rw [Op.bind_run_done _ _ _ _ _ inited]
  rfl

/-- A copy that does not complete is all that `Restore_SlotA` does. -/
theorem restoreSlotA_stopped (faults : RestoreFaults) (record : MetaFaults) (b : Board)
    (stopped : (restoreBank2 faults b).1 ≠ .done true) :
    (restoreSlotA faults record b).2 = (restoreBank2 faults b).2 := by
  rw [restoreSlotA_eq]
  unfold OtaBoot.restoreSlotA
  generalize run : restoreBank2 faults b = result at stopped
  obtain ⟨exit, t⟩ := result
  cases exit with
  | cut => rw [Op.bind_run_cut _ _ _ _ run]
  | done ok =>
      rw [Op.bind_run_done _ _ _ _ _ run]
      cases ok with
      | true => exact absurd rfl stopped
      | false => rfl

/-- After the copy the record, which it has not touched, is updated. -/
theorem restoreSlotA_completed (faults : RestoreFaults) (record : MetaFaults) (b : Board)
    (completed : (restoreBank2 faults b).1 = .done true) :
    (restoreSlotA faults record b).2 = { (restoreBank2 faults b).2 with
      sector1 := record.stage.memory (restoreBank2 faults b).2.record.restored
        (restoreBank2 faults b).2.sector1 } := by
  rw [restoreSlotA_eq]
  unfold OtaBoot.restoreSlotA confirmRestored
  generalize run : restoreBank2 faults b = result at completed
  obtain ⟨exit, t⟩ := result
  subst completed
  rw [Op.bind_run_done _ _ _ _ _ run]
  simp only [↓reduceIte]
  rw [Op.bind_run, Op.gets_bind_run, recordWrite_run]
  generalize record.exit = ending
  cases ending <;> rfl

theorem restoreBank2_sector1 (faults : RestoreFaults) (b : Board) :
    (restoreBank2 faults b).2.sector1 = b.sector1 := by
  have spec := restoreBank2_ensures faults b
  exact (Op.Ensures.final (spec.mono (fun _ _ result => result.1) fun _ only => only)).sector1

theorem restoreSlotA_rollbackBranch (faults : BootFaults) {b : Board}
    (ready : b.qspiInited = true) :
    (restoreSlotA faults.restore faults.record b).2 = (rollbackBranch faults b).2 := by
  have rollback := bootDoRollback_ready faults.init faults.restore ready
  have same : (restoreBank2 faults.restore b).2.record = b.record :=
    congrArg metadataRead (restoreBank2_sector1 faults.restore b)
  rw [rollbackBranch_run]
  by_cases completed : (restoreBank2 faults.restore b).1 = .done true
  · have manual := restoreSlotA_completed faults.restore faults.record b completed
    have boot := rollbackStep_completed faults b.record b
      (by rw [← bootDoRollback_eq, rollback]; exact completed)
    rw [← bootDoRollback_eq, rollback] at boot
    rw [manual, boot, same]
  · have manual := restoreSlotA_stopped faults.restore faults.record b completed
    have boot := (rollbackStep_stopped faults b.record b
      (by rw [← bootDoRollback_eq, rollback]; exact completed)).1
    rw [← bootDoRollback_eq, rollback] at boot
    rw [manual, boot]

/-- With the QSPI initialised both paths leave the same board at every fault: the backup in
Bank 2 and its version confirmed, or the record as it was. -/
theorem restore_paths_agree (faults : BootFaults) (b : Board) (ready : b.qspiInited = true) :
    (restoreSlotA faults.restore faults.record b).2 = (rollbackBranch faults b).2 ∧
      (b.bootBranch = .rollback → (bootMetadataStep faults b).2 =
        (restoreSlotA faults.restore faults.record { b with rsr := 0 }).2) ∧
      ((bootDoRollback faults.init faults.restore b).1 = .done true →
        (∀ i < appSize, (restoreSlotA faults.restore faults.record b).2.bank2 i =
          b.nor (backupOffset + i)) ∧
        (faults.record.exit = .done true →
          (restoreSlotA faults.restore faults.record b).2.record = b.record.restored)) ∧
      ((bootDoRollback faults.init faults.restore b).1 ≠ .done true →
        (restoreSlotA faults.restore faults.record b).2.sector1 = b.sector1) := by
  have kept := restoreBank2_sector1 faults.restore b
  rw [bootDoRollback_ready faults.init faults.restore ready]
  refine ⟨restoreSlotA_rollbackBranch faults ready, ?_, ?_, ?_⟩
  · intro rollback
    rw [bootMetadataStep_rollback faults rollback]
    exact (restoreSlotA_rollbackBranch faults (b := { b with rsr := 0 }) ready).symm
  · intro completed
    have content := Op.ensures_of_run (restoreBank2_ensures faults.restore b)
      (Prod.ext completed rfl)
    rw [restoreSlotA_completed faults.restore faults.record b completed]
    constructor
    · intro i inside
      show (restoreBank2 faults.restore b).2.bank2 i = _
      rw [(content.2 rfl).2, copied_inside _ _ _ _ inside]
    · intro stored
      have magic : (restoreBank2 faults.restore b).2.record.restored.magic = metadataMagic :=
        metadataRead_magic _
      have same : (restoreBank2 faults.restore b).2.record = b.record := congrArg metadataRead kept
      rw [← same]
      exact MetaFaults.metadataRead_of_exit stored magic _
  · intro stopped
    rw [restoreSlotA_stopped faults.restore faults.record b stopped, kept]

/-- A running bootloader whose backup area holds one byte value throughout. -/
def restorableBoard : Board := ⟨fun _ => 0xFF, fun _ => 0xFF, fun _ => 0x22, 0, true⟩

theorem restorableBoard_completes :
    (bootDoRollback BootFaults.clean.init BootFaults.clean.restore restorableBoard).1 =
      .done true := by
  have present : ¬ restorableBoard.backupBlank := by
    intro blank
    exact absurd blank.first (by decide)
  rw [bootDoRollback_eq, bootDoRollback_succeeds]
  exact ⟨.inl rfl, present, RestoreFaults.clean_completes⟩

theorem restore_paths_agree_restorable :
    (restoreSlotA BootFaults.clean.restore BootFaults.clean.record restorableBoard).2 =
        (rollbackBranch .clean restorableBoard).2 ∧
      (restoreSlotA BootFaults.clean.restore BootFaults.clean.record restorableBoard).2.bank2 0 =
        0x22 ∧
      (restoreSlotA BootFaults.clean.restore BootFaults.clean.record restorableBoard).2.record =
        restorableBoard.record.restored := by
  have agree := restore_paths_agree .clean restorableBoard rfl
  have success := agree.2.2.1 restorableBoard_completes
  have stored : BootFaults.clean.record.exit = .done true := by decide
  exact ⟨agree.1, success.1 0 (by decide), success.2 stored⟩

end OtaBoot.MenuC
