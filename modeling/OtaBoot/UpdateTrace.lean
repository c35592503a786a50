import OtaBoot.UpdateResult

set_option autoImplicit false

namespace OtaBoot

open Mem

/-- A call of step 2 to the flash driver, and whether it returned `HAL_OK`. -/
inductive FlashCall
  | erase (sector : Nat) (ok : Bool)
  | program (offset : Nat) (ok : Bool)
  deriving DecidableEq

/-- Every program call of the log, latest call first, goes to an aligned word of Bank 2
that was erased and has not been programmed since. -/
def Disciplined : List FlashCall → Prop
  | [] => True
  | .erase _ _ :: earlier => Disciplined earlier
  | .program offset _ :: earlier => offset % flashWord = 0 ∧ offset + flashWord ≤ appSize ∧
      .erase (offset / sectorSize) true ∈ earlier ∧ .program offset true ∉ earlier ∧
      Disciplined earlier

/-- `eraseBank2` with its calls logged. -/
def eraseBank2Logged (budget : Nat) (tries : Nat → Nat → Attempt) (limit : Nat) :
    Op (Board × List FlashCall) Bool :=
  Op.allFrom (fun sector =>
    if sector * sectorSize ≥ limit then pure true
    else Op.anyFrom (fun k =>
      (tries sector k).logged (Board.eraseSector sector) (.erase sector)) budget 0) 8 0

/-- `copyPass` with its program calls logged. -/
def copyPassLogged (reads : Nat → Status) (programs : Nat → Nat → Attempt) (source size k : Nat) :
    Op (Board × List FlashCall) Bool := do
  let offset := k * flashWord
  let chunk := if size - offset ≥ flashWord then flashWord else size - offset
  match ← Op.unlogged (onNor (Qspi.bspQspiRead (reads k) (source + offset) chunk)) with
  | none => pure false
  | some data =>
    Op.anyFrom (fun t =>
      (programs k t).logged (Board.programWord offset (wordBuffer data)) (.program offset)) 3 0

def copyToBank2Logged (reads : Nat → Status) (programs : Nat → Nat → Attempt)
    (source size : Nat) : Op (Board × List FlashCall) Bool :=
  Op.allFrom (copyPassLogged reads programs source size) ((size + flashWord - 1) / flashWord) 0

def writeSlotLogged (faults : UpdateFaults) (size : Nat) : Op (Board × List FlashCall) Bool := do
  if ← eraseBank2Logged 8 faults.erase size then
    copyToBank2Logged faults.read faults.program 0 size
  else pure false

/-- `OTA_Flash_Write` with the flash calls of step 2 logged. -/
def otaFlashWriteLogged (faults : UpdateFaults) (update : Update) :
    Op (Board × List FlashCall) Bool := do
  if ← Op.unlogged (backupOldSlot faults.backup) then
    Op.unlogged (recordBackup faults.recordBackup)
    if ← writeSlotLogged faults update.received then
      Op.unlogged (publishPending faults.publish update)
    else pure false
  else pure false

theorem writeSlotLogged_projects (faults : UpdateFaults) (size : Nat) :
    Op.Projects (writeSlotLogged faults size) (writeSlot faults size) := by
  have erasing : Op.Projects (eraseBank2Logged 8 faults.erase size)
      (eraseBank2 8 faults.erase size) := by
    apply Op.projects_allFrom
    intro sector
    apply (Op.projects_pure true).ite
    apply Op.projects_anyFrom
    intro k
    exact Op.projects_logged _ _ _
  have copying : Op.Projects (copyToBank2Logged faults.read faults.program 0 size)
      (copyToBank2 faults.read faults.program 0 size) := by
    apply Op.projects_allFrom
    intro k
    apply (Op.projects_unlogged _).bind
    intro data
    cases data with
    | none => exact Op.projects_pure false
    | some bytes =>
        apply Op.projects_anyFrom
        intro t
        exact Op.projects_logged _ _ _
  apply erasing.bind
  intro ok
  exact copying.ite (Op.projects_pure false)

/-- Logging changes neither the result nor the board. -/
theorem otaFlashWriteLogged_projects (faults : UpdateFaults) (update : Update) :
    Op.Projects (otaFlashWriteLogged faults update) (otaFlashWrite faults update) := by
  apply (Op.projects_unlogged _).bind
  intro ok
  apply Op.Projects.ite _ (Op.projects_pure false)
  apply (Op.projects_unlogged _).bind
  intro _
  apply (writeSlotLogged_projects faults update.received).bind
  intro written
  exact (Op.projects_unlogged _).ite (Op.projects_pure false)

/-- Before sector `k`: only erase calls, and every needed sector below `k` is erased. -/
structure Erasing (limit k : Nat) (log : List FlashCall) : Prop where
  erases : ∀ call ∈ log, ∃ sector ok, call = .erase sector ok
  erased : ∀ sector < k, sector * sectorSize < limit → .erase sector true ∈ log

/-- Before word `k`: every needed sector is erased and no word from `k` on is programmed. -/
structure Programming (limit k : Nat) (log : List FlashCall) : Prop where
  disciplined : Disciplined log
  erased : ∀ sector < 8, sector * sectorSize < limit → .erase sector true ∈ log
  ahead : ∀ offset, .program offset true ∈ log → offset < k * flashWord

theorem disciplined_of_erases (log : List FlashCall)
    (erases : ∀ call ∈ log, ∃ sector ok, call = .erase sector ok) : Disciplined log := by
  induction log with
  | nil => trivial
  | cons call earlier ih =>
      obtain ⟨sector, ok, rfl⟩ := erases call List.mem_cons_self
      exact ih fun call found => erases call (List.mem_cons_of_mem _ found)

theorem Erasing.disciplined {limit k : Nat} {log : List FlashCall} (erasing : Erasing limit k log) :
    Disciplined log := disciplined_of_erases log erasing.erases

theorem Erasing.call {limit k : Nat} {log : List FlashCall} (erasing : Erasing limit k log)
    (sector : Nat) (ok : Bool) : Erasing limit k (.erase sector ok :: log) := by
  constructor
  · intro call found
    rcases List.mem_cons.mp found with rfl | found
    · exact ⟨sector, ok, rfl⟩
    · exact erasing.erases call found
  · intro other below needed
    exact List.mem_cons_of_mem _ (erasing.erased other below needed)

theorem Erasing.next {limit k : Nat} {log : List FlashCall} (erasing : Erasing limit k log)
    (here : k * sectorSize < limit → .erase k true ∈ log) : Erasing limit (k + 1) log := by
  refine ⟨erasing.erases, ?_⟩
  intro sector below needed
  by_cases last : sector = k
  · subst last
    exact here needed
  · exact erasing.erased sector (by omega) needed

theorem Erasing.programming {limit : Nat} {log : List FlashCall} (erasing : Erasing limit 8 log) :
    Programming limit 0 log := by
  refine ⟨erasing.disciplined, erasing.erased, ?_⟩
  intro offset found
  obtain ⟨sector, ok, same⟩ := erasing.erases _ found
  cases same

theorem Programming.call {limit k : Nat} {log : List FlashCall}
    (programming : Programming limit k log) (needed : k * flashWord < limit)
    (fits : limit ≤ appSize) (ok : Bool) :
    Disciplined (.program (k * flashWord) ok :: log) := by
  have sector := programming.erased (k * flashWord / sectorSize)
    (by simp only [flashWord, sectorSize, appSize] at *; omega)
    (by simp only [flashWord, sectorSize] at *; omega)
  refine ⟨?_, ?_, sector, ?_, programming.disciplined⟩
  · simp only [flashWord]
    omega
  · simp only [flashWord, appSize] at *
    omega
  · intro found
    have before := programming.ahead _ found
    omega

theorem Programming.failed {limit k : Nat} {log : List FlashCall}
    (programming : Programming limit k log) (needed : k * flashWord < limit)
    (fits : limit ≤ appSize) : Programming limit k (.program (k * flashWord) false :: log) := by
  refine ⟨programming.call needed fits false, ?_, ?_⟩
  · intro sector below start
    exact List.mem_cons_of_mem _ (programming.erased sector below start)
  · intro offset found
    rcases List.mem_cons.mp found with same | found
    · cases same
    · exact programming.ahead offset found

theorem Programming.next {limit k : Nat} {log : List FlashCall}
    (programming : Programming limit k log) (needed : k * flashWord < limit)
    (fits : limit ≤ appSize) :
    Programming limit (k + 1) (.program (k * flashWord) true :: log) := by
  refine ⟨programming.call needed fits true, ?_, ?_⟩
  · intro sector below start
    exact List.mem_cons_of_mem _ (programming.erased sector below start)
  · intro offset found
    rcases List.mem_cons.mp found with same | found
    · cases same
      simp only [flashWord]
      omega
    · have before := programming.ahead offset found
      simp only [flashWord] at *
      omega

theorem eraseBank2Logged_ensures (budget : Nat) (tries : Nat → Nat → Attempt) (limit : Nat)
    (b : Board) :
    Op.Ensures (eraseBank2Logged budget tries limit) (b, [])
      (fun ok t => if ok then Erasing limit 8 t.2 else Disciplined t.2)
      (fun t => Disciplined t.2) := by
  have start : Erasing limit 0 ([] : List FlashCall) :=
    ⟨fun _ found => absurd found List.not_mem_nil, fun _ below => absurd below (Nat.not_lt_zero _)⟩
  have loop := Op.allFrom_ensures _ (fun k (t : Board × List FlashCall) => Erasing limit k t.2)
    (fun t => Disciplined t.2) (fun t => Disciplined t.2) 8 0 (b, []) start (by
      rintro k t - below erasing
      show Op.Ensures (if k * sectorSize ≥ limit then pure true else Op.anyFrom (fun attempt =>
        (tries k attempt).logged (Board.eraseSector k) (.erase k)) budget 0) t _ _
      split
      · rename_i past
        exact erasing.next fun needed => absurd needed (by omega)
      · apply (Attempt.anyFrom_logged_ensures (I := Erasing limit k)
          (fun log held => held.call k false) budget 0 t erasing).mono
        · intro ok u result
          cases ok with
          | false => exact Erasing.disciplined result
          | true =>
              obtain ⟨log, held, same⟩ := result
              show Erasing limit (k + 1) u.2
              rw [same]
              exact (held.call k true).next fun _ => List.mem_cons_self
        · intro u held
          exact held.disciplined)
  exact loop

theorem copyToBank2Logged_ensures (reads : Nat → Status) (programs : Nat → Nat → Attempt)
    (source size : Nat) (fits : size ≤ appSize) (s : Board × List FlashCall)
    (programming : Programming size 0 s.2) :
    Op.Ensures (copyToBank2Logged reads programs source size) s (fun _ t => Disciplined t.2)
      (fun t => Disciplined t.2) := by
  have loop := Op.allFrom_ensures (copyPassLogged reads programs source size)
    (fun k t => Programming size k t.2) (fun t => Disciplined t.2) (fun t => Disciplined t.2)
    ((size + flashWord - 1) / flashWord) 0 s programming (by
      rintro k t - below held
      have needed : k * flashWord < size := by
        simp only [flashWord] at below ⊢
        omega
      refine Op.Ensures.bind (fun _ u => Programming size k u.2)
        (Op.unlogged_ensures (fun _ _ => held) fun _ => held.disciplined) ?_
      intro data u held
      cases data with
      | none => exact held.disciplined
      | some bytes =>
          apply (Attempt.anyFrom_logged_ensures (I := Programming size k)
            (fun log held => held.failed needed fits) 3 0 u held).mono
          · intro ok v result
            cases ok with
            | false => exact Programming.disciplined result
            | true =>
                obtain ⟨log, before, same⟩ := result
                show Programming size (k + 1) v.2
                rw [same]
                exact before.next needed fits
          · intro v before
            exact before.disciplined)
  apply loop.mono
  · intro ok t result
    cases ok with
    | false => exact result
    | true => exact Programming.disciplined result
  · intro t held
    exact held

/-- Whatever fails, and wherever power is lost, step 2 programs only erased words. -/
theorem otaFlashWriteLogged_disciplined (faults : UpdateFaults) (update : Update)
    (fits : update.received ≤ appSize) (b : Board) :
    Disciplined (otaFlashWriteLogged faults update (b, [])).2.2 := by
  have slot : ∀ t, Op.Ensures (writeSlotLogged faults update.received) (t, [])
      (fun _ u => Disciplined u.2) (fun u => Disciplined u.2) := by
    intro t
    refine Op.Ensures.bind _ (eraseBank2Logged_ensures 8 faults.erase update.received t) ?_
    intro ok u erased
    cases ok with
    | false => exact erased
    | true =>
        exact copyToBank2Logged_ensures _ _ _ _ fits u (Erasing.programming erased)
  have whole : Op.Ensures (otaFlashWriteLogged faults update) (b, [])
      (fun _ u => Disciplined u.2) (fun u => Disciplined u.2) := by
    refine Op.Ensures.bind (fun _ t => t.2 = [])
      (Op.unlogged_ensures (fun _ _ => rfl) fun _ => trivial) ?_
    rintro ok ⟨t, log⟩ rfl
    cases ok with
    | false => exact trivial
    | true =>
        refine Op.Ensures.bind (fun _ t => t.2 = [])
          (Op.unlogged_ensures (fun _ _ => rfl) fun _ => trivial) ?_
        rintro _ ⟨t, log⟩ rfl
        refine Op.Ensures.bind _ (slot t) ?_
        intro written u held
        cases written with
        | false => exact held
        | true => exact Op.unlogged_ensures (fun _ _ => held) fun _ => held
  exact whole.final

/-- What an update from `b` to `t` has to do. -/
structure UpdateExact (update : Update) (b t : Board) : Prop where
  backup : ∀ i < appSize, t.nor (backupOffset + i) = b.bank2 i
  image : ∀ i < update.received, t.bank2 i = b.nor i
  padding : ∀ i, update.received ≤ i →
    i < (update.received + sectorSize - 1) / sectorSize * sectorSize → t.bank2 i = 0xFF
  beyond : ∀ i, (update.received + sectorSize - 1) / sectorSize * sectorSize ≤ i →
    t.bank2 i = b.bank2 i
  staging : ∀ i < backupOffset, t.nor i = b.nor i
  state : t.record.state = statePendingUpdate
  current : t.record.curMajor = update.major ∧ t.record.curMinor = update.minor ∧
    t.record.curPatch = update.patch
  ota : t.record.otaMajor = update.major ∧ t.record.otaMinor = update.minor ∧
    t.record.otaPatch = update.patch
  crc32 : t.record.crc32 = update.crcExpected
  fwSize : t.record.fwSize.toNat = update.received
  backsUp : t.record.BacksUp b.record

/-- The board of a successful update: the backup, then the sectors of the image. -/
theorem slotWritten_exact (faults : UpdateFaults) (update : Update) (b : Board) (sector1 : Mem)
    (fits : update.received ≤ 512 * 1024)
    (record : metadataRead sector1 = (b.record.backedUp.sealed.pending update).sealed) :
    UpdateExact update b
      { (faults.beforeSlot b).slotWritten update.received with sector1 := sector1 } := by
  have installed := published_installed faults update.received b sector1
    (by simp only [appSize]; omega)
  have span : sectorSpan update.received =
      (update.received + sectorSize - 1) / sectorSize * sectorSize := by
    simp only [sectorSpan, sectorSize]
    omega
  have above : ∀ i, update.received ≤ i →
      ((faults.beforeSlot b).slotWritten update.received).bank2 i =
        (b.bank2.erase 0 (sectorSpan update.received)) i :=
    fun i outside => store_outside _ _ _ _ _ (by omega)
  have read : Board.record { (faults.beforeSlot b).slotWritten update.received with
      sector1 := sector1 } = (b.record.backedUp.sealed.pending update).sealed := record
  constructor
  · exact installed.backup
  · exact installed.image
  · intro i outside inside
    exact (above i outside).trans (erase_inside _ _ _ _ (Nat.zero_le _) (by omega))
  · intro i outside
    have past : update.received ≤ i := by
      simp only [sectorSize] at outside
      omega
    exact (above i past).trans (erase_outside _ _ _ _ (by omega))
  · intro i staged
    exact backedUp_staging b i staged
  · rw [read]
    rfl
  · rw [read]
    exact ⟨rfl, rfl, rfl⟩
  · rw [read]
    exact ⟨rfl, rfl, rfl⟩
  · rw [read]
    rfl
  · rw [read]
    show (BitVec.ofNat 32 update.received).toNat = update.received
    rw [BitVec.toNat_ofNat]
    omega
  · rw [read]
    exact ⟨rfl, rfl, rfl, rfl, rfl⟩

/-- When every operation succeeds within its tries, `OTA_Flash_Write` returns 0 and does
exactly the update, and each program call of step 2 finds an erased word. -/
theorem otaFlashWrite_exact (faults : UpdateFaults) (physical : faults.backup.Physical)
    (update : Update) (fits : update.received ≤ 512 * 1024) (b : Board)
    (backup : faults.backup.Completes) (record : faults.recordBackup.exit = .done true)
    (slot : faults.WritesSlot update.received) (publish : faults.publish.exit = .done true) :
    (otaFlashWrite faults update b).1 = .done true ∧
      UpdateExact update b (otaFlashWrite faults update b).2 ∧
      Disciplined (otaFlashWriteLogged faults update (b, [])).2.2 ∧
      (otaFlashWriteLogged faults update (b, [])).1 = (otaFlashWrite faults update b).1 ∧
      (otaFlashWriteLogged faults update (b, [])).2.1 = (otaFlashWrite faults update b).2 := by
  have inside : update.received ≤ appSize := by
    simp only [appSize]
    omega
  have returned : faults.recordBackup.exit ≠ .cut := by
    rw [record]
    simp
  have success := (otaFlashWrite_succeeds faults update b).mpr ⟨backup, returned, slot, publish⟩
  have stored := otaFlashWrite_record faults update b success
  rw [faults.recordBackup.stage_of_exit record, metadataRead_full] at stored
  refine ⟨success, ?_, otaFlashWriteLogged_disciplined faults update inside b,
    otaFlashWriteLogged_projects faults update b []⟩
  have phase := otaFlashWrite_phase faults physical update inside b
  generalize (otaFlashWrite faults update b).1 = exit at phase success
  generalize (otaFlashWrite faults update b).2 = t at phase stored ⊢
  cases phase with
  | backupStopped _ _ failed ending only => exact absurd backup failed
  | recordCut backup cut => exact absurd cut returned
  | slotStopped _ _ backup failed kept ending only idle => exact absurd slot failed
  | published backup kept slot => exact slotWritten_exact faults update b _ fits stored

/-- The first sector and the first word need two tries each. -/
def UpdateFaults.secondTry : UpdateFaults :=
  { UpdateFaults.clean with
    erase := fun sector k => if sector = 0 ∧ k = 0 then .failed true else .ok
    program := fun word k => if word = 0 ∧ k = 0 then .failed true else .ok }

theorem otaFlashWrite_exact_secondTry :
    (otaFlashWrite .secondTry ⟨33, 0, 1, 2, 3⟩ confirmedBoard).1 = .done true ∧
      (otaFlashWrite .secondTry ⟨33, 0, 1, 2, 3⟩ confirmedBoard).2.bank2 33 = 0xFF ∧
      (otaFlashWrite .secondTry ⟨33, 0, 1, 2, 3⟩ confirmedBoard).2.bank2 sectorSize = 0x11 := by
  have slot : UpdateFaults.secondTry.WritesSlot 33 := by
    constructor
    · intro sector below needed
      have first : sector = 0 := by
        simp only [sectorSize] at needed
        omega
      subst first
      decide
    · intro k below
      refine ⟨rfl, ?_⟩
      have index : k < 2 := below
      interval_cases k <;> decide
  have result := otaFlashWrite_exact .secondTry BackupFaults.clean_physical ⟨33, 0, 1, 2, 3⟩
    (by decide) confirmedBoard BackupFaults.clean_completes (by decide) slot (by decide)
  refine ⟨result.1, ?_, ?_⟩
  · exact result.2.1.padding 33 (by decide) (by decide)
  · rw [result.2.1.beyond sectorSize (by decide)]
    rfl

end OtaBoot
