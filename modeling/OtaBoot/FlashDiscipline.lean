import OtaBoot.UpdateTrace
import OtaBoot.Rollback
import OtaBoot.Footprint

set_option autoImplicit false

/- The calls to the flash of Bank 2 in the whole life of a device. -/
namespace OtaBoot

open Mem

/-- The word at `offset` is erased and has not been programmed since, by the log of all
calls, latest first. -/
def blankWord (offset : Nat) : List FlashCall → Bool
  | [] => false
  | .erase sector ok :: earlier =>
    if sector = offset / sectorSize then ok else blankWord offset earlier
  | .program target ok :: earlier =>
    if target = offset ∧ ok = true then false else blankWord offset earlier

/-- Every program call goes to an aligned word of Bank 2 that is blank at that moment. -/
def EraseFirst : List FlashCall → Prop
  | [] => True
  | .erase _ _ :: earlier => EraseFirst earlier
  | .program offset _ :: earlier => offset % flashWord = 0 ∧ offset + flashWord ≤ appSize ∧
      blankWord offset earlier = true ∧ EraseFirst earlier

/-- Before sector `k`: what the copy needs below it is blank. -/
structure Cleared (limit k : Nat) (log : List FlashCall) : Prop where
  first : EraseFirst log
  blank : ∀ offset < limit, offset / sectorSize < k → blankWord offset log = true

/-- Before word `k`: what the copy still needs is blank. -/
structure Copying (size k : Nat) (log : List FlashCall) : Prop where
  first : EraseFirst log
  blank : ∀ offset < size, k * flashWord ≤ offset → blankWord offset log = true

theorem Cleared.call {limit k : Nat} {log : List FlashCall} (erased : Cleared limit k log) (ok : Bool) :
    Cleared limit k (.erase k ok :: log) := by
  refine ⟨erased.first, ?_⟩
  intro offset inside below
  unfold blankWord
  rw [if_neg (by omega)]
  exact erased.blank offset inside below

theorem Cleared.next {limit k : Nat} {log : List FlashCall} (erased : Cleared limit k log) :
    Cleared limit (k + 1) (.erase k true :: log) := by
  refine ⟨erased.first, ?_⟩
  intro offset inside below
  unfold blankWord
  by_cases here : k = offset / sectorSize
  · rw [if_pos here]
  · rw [if_neg here]
    exact erased.blank offset inside (by omega)

theorem Cleared.copying {limit : Nat} (fits : limit ≤ appSize) {log : List FlashCall}
    (erased : Cleared limit 8 log) : Copying limit 0 log := by
  refine ⟨erased.first, ?_⟩
  intro offset inside _
  apply erased.blank offset inside
  simp only [appSize, sectorSize] at *
  omega

theorem Copying.programs {size k : Nat} {log : List FlashCall} (copying : Copying size k log)
    (needed : k * flashWord < size) (fits : size ≤ appSize) (ok : Bool) :
    EraseFirst (.program (k * flashWord) ok :: log) := by
  refine ⟨Nat.mul_mod_left k flashWord, ?_, copying.blank _ needed (Nat.le_refl _), copying.first⟩
  simp only [flashWord, appSize] at *
  omega

theorem Copying.failed {size k : Nat} {log : List FlashCall} (copying : Copying size k log)
    (needed : k * flashWord < size) (fits : size ≤ appSize) :
    Copying size k (.program (k * flashWord) false :: log) := by
  refine ⟨copying.programs needed fits false, ?_⟩
  intro offset inside ahead
  unfold blankWord
  rw [if_neg (by simp)]
  exact copying.blank offset inside ahead

theorem Copying.next {size k : Nat} {log : List FlashCall} (copying : Copying size k log)
    (needed : k * flashWord < size) (fits : size ≤ appSize) :
    Copying size (k + 1) (.program (k * flashWord) true :: log) := by
  refine ⟨copying.programs needed fits true, ?_⟩
  intro offset inside later
  unfold blankWord
  rw [if_neg (by simp only [flashWord] at *; omega)]
  exact copying.blank offset inside (by simp only [flashWord] at *; omega)

/-- A byte of Bank 2 that the call can change. -/
def FlashCall.Reaches (call : FlashCall) (address : Nat) : Prop :=
  match call with
  | .erase sector _ => address / sectorSize = sector
  | .program offset _ => offset ≤ address ∧ address < offset + flashWord

/-- Since Bank 2 was `start`, bytes have changed only under a logged call. -/
def Covered (start : Mem) (s : Board × List FlashCall) : Prop :=
  ∀ address, (∀ call ∈ s.2, ¬ call.Reaches address) → s.1.bank2 address = start address

/-- The log is complete and in order. -/
structure Recorded (start : Mem) (s : Board × List FlashCall) : Prop where
  first : EraseFirst s.2
  covered : Covered start s

section Covered

variable {α : Type} {start : Mem}

theorem covered_unlogged {c : Op Board α} (keeps : Op.Keeps Board.bank2 c) :
    Op.Preserves (Covered start) (Op.unlogged c) := by
  intro s covered address none
  show (c s.1).2.bank2 address = start address
  rw [keeps s.1]
  exact covered address none

theorem covered_logged (attempt : Attempt) {effect : Board → Board} {call : Bool → FlashCall}
    (within : ∀ b ok address, ¬ (call ok).Reaches address →
      (effect b).bank2 address = b.bank2 address) :
    Op.Preserves (Covered start) (attempt.logged effect call) := by
  intro s covered address none
  have front := none _ List.mem_cons_self
  have old := covered address fun found earlier => none found (List.mem_cons_of_mem _ earlier)
  have kept : (attempt.perform effect s.1).2.bank2 address = s.1.bank2 address := by
    have same := within s.1 _ address front
    cases attempt with
    | ok => exact same
    | failed took => cases took <;> [rfl; exact same]
    | cut took => cases took <;> [rfl; exact same]
  exact kept.trans old

theorem recorded_unlogged {c : Op Board α} (keeps : Op.Keeps Board.bank2 c) :
    Op.Preserves (Recorded start) (Op.unlogged c) :=
  fun s recorded => ⟨recorded.first, covered_unlogged keeps s recorded.covered⟩

theorem covered_eraseBank2Logged (budget : Nat) (tries : Nat → Nat → Attempt) (limit : Nat) :
    Op.Preserves (Covered start) (eraseBank2Logged budget tries limit) := by
  apply Op.preserves_allFrom
  intro sector
  refine (Op.preserves_pure true).ite ?_
  apply Op.preserves_anyFrom
  intro k
  apply covered_logged
  intro b ok address apart
  have other : address / sectorSize ≠ sector := apart
  apply erase_outside
  simp only [sectorSize] at other ⊢
  omega

theorem covered_copyToBank2Logged (reads : Nat → Status) (programs : Nat → Nat → Attempt)
    (source size : Nat) :
    Op.Preserves (Covered start) (copyToBank2Logged reads programs source size) := by
  apply Op.preserves_allFrom
  intro k
  apply (covered_unlogged (keeps_onNor (fun _ _ => rfl) _)).bind
  intro data
  cases data with
  | none => exact Op.preserves_pure false
  | some bytes =>
      apply Op.preserves_anyFrom
      intro t
      apply covered_logged
      intro b ok address apart
      have other : ¬ (k * flashWord ≤ address ∧ address < k * flashWord + flashWord) := apart
      apply program_outside
      omega

end Covered

/-- The erase, then the copy. -/
def refillLogged (budget : Nat) (erase : Nat → Nat → Attempt) (reads : Nat → Status)
    (programs : Nat → Nat → Attempt) (source size : Nat) : Op (Board × List FlashCall) Bool := do
  if ← eraseBank2Logged budget erase size then copyToBank2Logged reads programs source size
  else pure false

theorem eraseBank2Logged_blank (budget : Nat) (tries : Nat → Nat → Attempt) (limit : Nat)
    (s : Board × List FlashCall) (first : EraseFirst s.2) :
    Op.Ensures (eraseBank2Logged budget tries limit) s
      (fun ok t => if ok then Cleared limit 8 t.2 else EraseFirst t.2) (fun t => EraseFirst t.2) := by
  have start : Cleared limit 0 s.2 := ⟨first, fun _ _ below => absurd below (Nat.not_lt_zero _)⟩
  apply Op.allFrom_ensures _ (fun k (t : Board × List FlashCall) => Cleared limit k t.2)
    (fun t => EraseFirst t.2) (fun t => EraseFirst t.2) 8 0 s start
  rintro k t - below erased
  show Op.Ensures (if k * sectorSize ≥ limit then pure true else Op.anyFrom (fun attempt =>
    (tries k attempt).logged (Board.eraseSector k) (.erase k)) budget 0) t _ _
  split
  · rename_i past
    -- The sectors from here on are not needed.
    refine ⟨erased.first, fun offset inside upTo => ?_⟩
    apply erased.blank offset inside
    simp only [sectorSize] at *
    omega
  · apply (Attempt.anyFrom_logged_ensures (I := Cleared limit k)
      (fun log held => held.call false) budget 0 t erased).mono
    · intro ok u result
      cases ok with
      | false => exact Cleared.first result
      | true =>
          obtain ⟨log, held, same⟩ := result
          show Cleared limit (k + 1) u.2
          rw [same]
          exact held.next
    · intro u held
      exact held.first

theorem copyToBank2Logged_blank (reads : Nat → Status) (programs : Nat → Nat → Attempt)
    (source size : Nat) (fits : size ≤ appSize) (s : Board × List FlashCall)
    (copying : Copying size 0 s.2) :
    Op.Ensures (copyToBank2Logged reads programs source size) s (fun _ t => EraseFirst t.2)
      (fun t => EraseFirst t.2) := by
  have loop := Op.allFrom_ensures (copyPassLogged reads programs source size)
    (fun k t => Copying size k t.2) (fun t => EraseFirst t.2) (fun t => EraseFirst t.2)
    ((size + flashWord - 1) / flashWord) 0 s copying (by
      rintro k t - below held
      have needed : k * flashWord < size := by
        simp only [flashWord] at below ⊢
        omega
      refine Op.Ensures.bind (fun _ u => Copying size k u.2)
        (Op.unlogged_ensures (fun _ _ => held) fun _ => held.first) ?_
      intro data u held
      cases data with
      | none => exact held.first
      | some bytes =>
          apply (Attempt.anyFrom_logged_ensures (I := Copying size k)
            (fun log held => held.failed needed fits) 3 0 u held).mono
          · intro ok v result
            cases ok with
            | false => exact Copying.first result
            | true =>
                obtain ⟨log, before, same⟩ := result
                show Copying size (k + 1) v.2
                rw [same]
                exact before.next needed fits
          · intro v before
            exact before.first)
  apply loop.mono
  · intro ok t result
    cases ok with
    | false => exact result
    | true => exact Copying.first result
  · intro t held
    exact held

theorem refillLogged_recorded {start : Mem} (budget : Nat) (erase : Nat → Nat → Attempt)
    (reads : Nat → Status) (programs : Nat → Nat → Attempt) (source : Nat) {size : Nat}
    (fits : size ≤ appSize) :
    Op.Preserves (Recorded start) (refillLogged budget erase reads programs source size) := by
  have covers : Op.Preserves (Covered start) (refillLogged budget erase reads programs source size) := by
    apply (covered_eraseBank2Logged budget erase size).bind
    intro ok
    exact (covered_copyToBank2Logged reads programs source size).ite (Op.preserves_pure false)
  intro s recorded
  have ordered : Op.Ensures (refillLogged budget erase reads programs source size) s
      (fun _ t => EraseFirst t.2) (fun t => EraseFirst t.2) := by
    refine Op.Ensures.bind _ (eraseBank2Logged_blank budget erase size s recorded.first) ?_
    intro ok t erased
    cases ok with
    | false => exact erased
    | true => exact copyToBank2Logged_blank _ _ _ _ fits t (Cleared.copying fits erased)
  exact ⟨ordered.final, covers s recorded.covered⟩

theorem refillLogged_projects (budget : Nat) (erase : Nat → Nat → Attempt) (reads : Nat → Status)
    (programs : Nat → Nat → Attempt) (source size : Nat) :
    Op.Projects (refillLogged budget erase reads programs source size) (do
      if ← eraseBank2 budget erase size then copyToBank2 reads programs source size
      else pure false) := by
  have erasing : Op.Projects (eraseBank2Logged budget erase size) (eraseBank2 budget erase size) := by
    apply Op.projects_allFrom
    intro sector
    apply (Op.projects_pure true).ite
    apply Op.projects_anyFrom
    intro k
    exact Op.projects_logged _ _ _
  have copying : Op.Projects (copyToBank2Logged reads programs source size)
      (copyToBank2 reads programs source size) := by
    apply Op.projects_allFrom
    intro k
    apply (Op.projects_unlogged _).bind
    intro data
    cases data with
    | none => exact Op.projects_pure false
    | some bytes =>
        apply Op.projects_anyFrom
        intro t
        exact Op.projects_logged _ _ _
  apply erasing.bind
  intro ok
  exact copying.ite (Op.projects_pure false)

/-- `restoreBank2` with its flash calls logged. -/
def restoreBank2Logged (faults : RestoreFaults) : Op (Board × List FlashCall) Bool := do
  match ← Op.unlogged (onNor (Qspi.bspQspiRead faults.header backupOffset 4)) with
  | none => pure false
  | some hdr =>
    if hdr = [0xFF, 0xFF, 0xFF, 0xFF] then pure false
    else refillLogged 4 faults.erase faults.read faults.program backupOffset appSize

def restoreSlotALogged (restore : RestoreFaults) (record : MetaFaults) :
    Op (Board × List FlashCall) Unit := do
  if ← restoreBank2Logged restore then
    let _ ← Op.unlogged (confirmRestored record)
    pure ()
  else pure ()

def bootDoRollbackLogged (init : Status) (faults : RestoreFaults) :
    Op (Board × List FlashCall) Bool := do
  if ← Op.unlogged (ensureQspi init) then restoreBank2Logged faults else pure false

def bootMetadataStepLogged (faults : BootFaults) : Op (Board × List FlashCall) Nat := do
  let record ← Op.unlogged (Op.gets Board.record)
  if record.magic ≠ metadataMagic ∨ record.state = stateEmpty then pure 0
  else if record.state = statePendingUpdate then
    let _ ← Op.unlogged (onSector1 (metadataWrite faults.record { record with state := stateTesting }))
    pure 1
  else if record.state = stateTesting then
    if ← Op.unlogged resetReasonIsIwdg then
      if ← bootDoRollbackLogged faults.init faults.restore then
        let _ ← Op.unlogged (onSector1 (metadataWrite faults.record record.restored))
        pure 2
      else pure 0
    else pure 1
  else pure 2

theorem restoreBank2Logged_projects (faults : RestoreFaults) :
    Op.Projects (restoreBank2Logged faults) (restoreBank2 faults) := by
  apply (Op.projects_unlogged _).bind
  intro header
  cases header with
  | none => exact Op.projects_pure false
  | some bytes =>
      exact (Op.projects_pure false).ite (refillLogged_projects 4 _ _ _ backupOffset appSize)

theorem restoreSlotALogged_projects (restore : RestoreFaults) (record : MetaFaults) :
    Op.Projects (restoreSlotALogged restore record) (restoreSlotA restore record) := by
  apply (restoreBank2Logged_projects restore).bind
  intro ok
  apply Op.Projects.ite _ (Op.projects_pure ())
  exact (Op.projects_unlogged _).bind fun _ => Op.projects_pure ()

/-- Logging changes neither the answer of the boot step nor the board. -/
theorem bootMetadataStepLogged_projects (faults : BootFaults) :
    Op.Projects (bootMetadataStepLogged faults) (bootMetadataStep faults) := by
  have rollback : Op.Projects (bootDoRollbackLogged faults.init faults.restore)
      (bootDoRollback faults.init faults.restore) := by
    apply (Op.projects_unlogged _).bind
    intro ready
    exact (restoreBank2Logged_projects _).ite (Op.projects_pure false)
  apply (Op.projects_unlogged _).bind
  intro record
  apply (Op.projects_pure 0).ite
  apply Op.Projects.ite
  · exact (Op.projects_unlogged _).bind fun _ => Op.projects_pure 1
  · apply Op.Projects.ite _ (Op.projects_pure 2)
    apply (Op.projects_unlogged _).bind
    intro watchdog
    apply Op.Projects.ite _ (Op.projects_pure 1)
    apply rollback.bind
    intro ok
    apply Op.Projects.ite _ (Op.projects_pure 0)
    exact (Op.projects_unlogged _).bind fun _ => Op.projects_pure 2

section Recorded

variable {start : Mem}

theorem restoreBank2Logged_recorded (faults : RestoreFaults) :
    Op.Preserves (Recorded start) (restoreBank2Logged faults) := by
  apply (recorded_unlogged (keeps_onNor (fun _ _ => rfl) _)).bind
  intro header
  cases header with
  | none => exact Op.preserves_pure false
  | some bytes =>
      exact (Op.preserves_pure false).ite
        (refillLogged_recorded 4 _ _ _ backupOffset (Nat.le_refl appSize))

theorem restoreSlotALogged_recorded (restore : RestoreFaults) (record : MetaFaults) :
    Op.Preserves (Recorded start) (restoreSlotALogged restore record) := by
  have confirm : Op.Keeps Board.bank2 (confirmRestored record) :=
    (Op.keeps_gets _).bind fun _ => keeps_onSector1 (fun _ _ => rfl) _
  apply (restoreBank2Logged_recorded restore).bind
  intro ok
  refine Op.Preserves.ite ?_ (Op.preserves_pure ())
  exact (recorded_unlogged confirm).bind fun _ => Op.preserves_pure ()

theorem bootMetadataStepLogged_recorded (faults : BootFaults) :
    Op.Preserves (Recorded start) (bootMetadataStepLogged faults) := by
  have ready : Op.Keeps Board.bank2 (ensureQspi faults.init) := by
    apply (Op.keeps_gets _).bind
    intro inited
    apply Op.Keeps.ite (Op.keeps_pure true)
    apply (keeps_onNor (fun _ _ => rfl) _).bind
    intro ok
    apply Op.Keeps.ite _ (Op.keeps_pure false)
    intro b
    rfl
  have rollback : Op.Preserves (Recorded start)
      (bootDoRollbackLogged faults.init faults.restore) := by
    apply (recorded_unlogged ready).bind
    intro ok
    exact (restoreBank2Logged_recorded _).ite (Op.preserves_pure false)
  have write : ∀ record, Op.Preserves (Recorded start)
      (Op.unlogged (onSector1 (metadataWrite faults.record record))) :=
    fun record => recorded_unlogged (keeps_onSector1 (fun _ _ => rfl) _)
  apply (recorded_unlogged (Op.keeps_gets _)).bind
  intro record
  refine (Op.preserves_pure 0).ite ?_
  refine Op.Preserves.ite ?_ ?_
  · exact (write _).bind fun _ => Op.preserves_pure 1
  · refine Op.Preserves.ite ?_ (Op.preserves_pure 2)
    apply (recorded_unlogged fun _ => rfl).bind
    intro watchdog
    refine Op.Preserves.ite ?_ (Op.preserves_pure 1)
    apply rollback.bind
    intro ok
    refine Op.Preserves.ite ?_ (Op.preserves_pure 0)
    exact (write _).bind fun _ => Op.preserves_pure 2

theorem otaFlashWriteLogged_recorded (faults : UpdateFaults) (update : Update)
    (fits : update.received ≤ appSize) :
    Op.Preserves (Recorded start) (otaFlashWriteLogged faults update) := by
  have backup : Op.Keeps Board.bank2 (recordBackup faults.recordBackup) :=
    (Op.keeps_gets _).bind fun _ => (keeps_onSector1 (fun _ _ => rfl) _).bind fun _ => Op.keeps_pure ()
  have publish : Op.Keeps Board.bank2 (publishPending faults.publish update) :=
    (Op.keeps_gets _).bind fun _ => keeps_onSector1 (fun _ _ => rfl) _
  have slot : Op.Preserves (Recorded start) (writeSlotLogged faults update.received) :=
    refillLogged_recorded 8 _ _ _ 0 fits
  apply (recorded_unlogged (keeps_backupOldSlot (fun _ _ => rfl) _)).bind
  intro ok
  refine Op.Preserves.ite ?_ (Op.preserves_pure false)
  apply (recorded_unlogged backup).bind
  intro _
  apply slot.bind
  intro written
  exact (recorded_unlogged publish).ite (Op.preserves_pure false)

end Recorded

/-- The log after a step: the update, the restore and the rollback are the only parts of the
program that call the flash driver for Bank 2. -/
def Machine.calls (s : Machine) (log : List FlashCall) (input : Input) : List FlashCall :=
  match input with
  | .reset boot _ _ => (bootMetadataStepLogged boot.faults (s.board.reset boot.cause, log)).2.2
  | .confirmKey key faults =>
    if s.loc = .confirm ∧ isYes key = true then
      (otaFlashWriteLogged faults s.update (s.board, log)).2.2
    else log
  | .menuKey key faults =>
    if s.loc = .menu ∧ key = key4 then
      (restoreSlotALogged faults.restore faults.record (s.board, log)).2.2
    else log
  | _ => log

/-- The machine with the log of its flash calls. -/
def Machine.loggedStep (s : Machine × List FlashCall) (input : Input) : Machine × List FlashCall :=
  (s.1.step input, s.1.calls s.2 input)

theorem Recorded.of_bank2 {start : Mem} {log : List FlashCall} {b t : Board}
    (recorded : Recorded start (b, log)) (same : t.bank2 = b.bank2) : Recorded start (t, log) := by
  refine ⟨recorded.first, ?_⟩
  intro address none
  show t.bank2 address = start address
  rw [same]
  exact recorded.covered address none

namespace Machine

variable {start : Mem} {log : List FlashCall}

/-- One step of the machine adds the calls that change Bank 2. -/
theorem step_recorded (s : Machine) (bounded : OtaC.Bounded s.ota)
    (recorded : Recorded start (s.board, log)) (input : Input) :
    Recorded start ((s.step input).board, s.calls log input) := by
  have idle : Area.slot ∉ s.areas input → Recorded start ((s.step input).board, log) :=
    fun apart => recorded.of_bank2 (s.bank2_of_areas bounded input apart)
  cases input with
  | reset boot key1 qspi =>
      have logged := bootMetadataStepLogged_recorded boot.faults (s.board.reset boot.cause, log)
        (recorded.of_bank2 rfl)
      have same := (bootMetadataStepLogged_projects boot.faults (s.board.reset boot.cause) log).2
      refine Recorded.of_bank2 logged ?_
      rw [same]
      obtain ⟨inited, board⟩ := s.main_board boot key1 qspi
      show (s.main boot key1 qspi).board.bank2 = (boot.run s.board).2.bank2
      rw [board]
  | confirmKey key faults =>
      by_cases writes : s.loc = .confirm ∧ isYes key = true
      · have fits : s.update.received ≤ appSize := Nat.le_trans bounded.received (by decide)
        have logged := otaFlashWriteLogged_recorded faults s.update fits (s.board, log) recorded
        have same := (otaFlashWriteLogged_projects faults s.update s.board log).2
        have calls : s.calls log (.confirmKey key faults) =
            (otaFlashWriteLogged faults s.update (s.board, log)).2.2 := if_pos writes
        have step : s.step (.confirmKey key faults) = s.confirmKey key faults := if_pos writes.1
        rw [calls, step, s.confirmKey_board, if_pos writes.2, ← same]
        exact logged
      · have calls : s.calls log (.confirmKey key faults) = log := if_neg writes
        rw [calls]
        exact idle (by simp [areas, writes])
  | menuKey key faults =>
      by_cases restores : s.loc = .menu ∧ key = key4
      · have logged :=
          restoreSlotALogged_recorded faults.restore faults.record (s.board, log) recorded
        have same := (restoreSlotALogged_projects faults.restore faults.record s.board log).2
        have calls : s.calls log (.menuKey key faults) =
            (restoreSlotALogged faults.restore faults.record (s.board, log)).2.2 := if_pos restores
        have step : s.step (.menuKey key faults) = s.menuKey key faults := if_pos restores.1
        rw [calls, step, s.menuKey_board, restores.2, if_neg (by decide), if_pos rfl, ← same]
        exact logged
      · have calls : s.calls log (.menuKey key faults) = log := if_neg restores
        rw [calls]
        apply idle
        simp only [areas, restores, ↓reduceIte]
        split <;> simp
  | poll faults =>
      apply idle
      simp only [areas]
      split <;> simp
  | appConfirm faults =>
      apply idle
      simp only [areas]
      split <;> simp
  | _ => exact idle (by simp [areas])

end Machine

/-- In the whole life of a device, with any resets, losses of power and failed calls: no
word of Bank 2 is programmed unless it has been erased since it was last programmed, and no
byte changes but under such calls. -/
theorem flash_discipline (board : Board) (buf : Mem) (inputs : List Input) :
    let run := Run.after Machine.loggedStep (.powerOff board buf, []) inputs
    run.1 = Run.after Machine.step (.powerOff board buf) inputs ∧ EraseFirst run.2 ∧
      ∀ address, (∀ call ∈ run.2, ¬ call.Reaches address) →
        run.1.board.bank2 address = board.bank2 address := by
  intro run
  let Kept (s : Machine × List FlashCall) : Prop :=
    OtaC.Bounded s.1.ota ∧ Recorded board.bank2 (s.1.board, s.2)
  have preserved : ∀ s input, Kept s → Kept (Machine.loggedStep s input) :=
    fun s input ⟨bounded, recorded⟩ =>
      ⟨OtaC.step_bounded s.1 bounded input, s.1.step_recorded bounded recorded input⟩
  have always := Run.invariant_always (I := Kept) preserved inputs (.powerOff board buf, [])
    ⟨powerOff_bounded board buf, trivial, fun _ _ => rfl⟩
  have same : ∀ (inputs : List Input) (s : Machine) (log : List FlashCall),
      (Run.after Machine.loggedStep (s, log) inputs).1 = Run.after Machine.step s inputs := by
    intro inputs
    induction inputs with
    | nil =>
        intro s log
        rfl
    | cons input rest ih =>
        intro s log
        exact ih (s.step input) (s.calls log input)
  exact ⟨same inputs _ _, always.2.first, always.2.covered⟩

end OtaBoot
