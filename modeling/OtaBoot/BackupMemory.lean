import OtaBoot.FlashWrite
import OtaBoot.Menu
import OtaBoot.BoardMemory
import OtaBoot.QspiCompletion

set_option autoImplicit false

namespace OtaBoot

open Mem

/-- Only the NOR backup area may differ. -/
structure OnlyBackup (b t : Board) : Prop where
  same : t = { b with nor := t.nor }
  frame : Framed b.nor t.nor backupOffset (backupOffset + appSize)

theorem OnlyBackup.trans {b t u : Board} (first : OnlyBackup b t) (second : OnlyBackup t u) :
    OnlyBackup b u := by
  constructor
  · rw [second.same, first.same]
  · exact first.frame.trans second.frame

theorem OnlyBackup.sector1 {b t : Board} (only : OnlyBackup b t) : t.sector1 = b.sector1 := by
  rw [only.same]

theorem OnlyBackup.bank2 {b t : Board} (only : OnlyBackup b t) : t.bank2 = b.bank2 := by
  rw [only.same]

/-- The board once all of Bank 2 is in the backup area. -/
def Board.backedUp (b : Board) : Board :=
  { b with nor := b.nor.store backupOffset appSize b.bank2 }

theorem Board.backedUp_nor (b : Board) (i : Nat) (inside : i < appSize) :
    b.backedUp.nor (backupOffset + i) = b.bank2 i := by
  have stored := store_inside b.nor backupOffset appSize b.bank2 (backupOffset + i)
    (by omega) (by omega)
  rw [Nat.add_sub_cancel_left] at stored
  exact stored

theorem Board.backedUp_bank2 (b : Board) : b.backedUp.bank2 = b.bank2 := b.bank2_withNor _

theorem Board.backedUp_only (b : Board) : OnlyBackup b b.backedUp :=
  ⟨rfl, store_framed _ _ _ _⟩

/-- A chunk that fails or is cut leaves only its own bytes on their way to the data. -/
def ChunkBegun (e : Board) (n : Mem) (chunk k : Nat) (t : Board) : Prop :=
  ∃ n', t = { e with nor := n' } ∧
    Between n n' (backupOffset + k * chunk) chunk fun i => e.bank2 (k * chunk + i)

def ChunkDone (e : Board) (n : Mem) (chunk k : Nat) (t : Board) : Prop :=
  t = { e with nor := n.program (backupOffset + k * chunk) chunk fun i => e.bank2 (k * chunk + i) }

/-- The loop both backups share: chunk `k` programs its bytes of Bank 2. -/
theorem backupLoop_ensures (body : Nat → Op Board Bool) (chunk count : Nat) (e : Board)
    (step : ∀ k < count, ∀ n, Op.Ensures (body k) { e with nor := n }
      (fun ok t => if ok then ChunkDone e n chunk k t else ChunkBegun e n chunk k t)
      (ChunkBegun e n chunk k)) :
    Op.Ensures (Op.allFrom body count 0) e
      (fun ok t => if ok then
          t = { e with nor := e.nor.program backupOffset (count * chunk) e.bank2 }
        else ∃ n, t = { e with nor := n } ∧
          Framed e.nor n backupOffset (backupOffset + count * chunk))
      (fun t => ∃ n, t = { e with nor := n } ∧
        Framed e.nor n backupOffset (backupOffset + count * chunk)) := by
  have start : e.nor.program backupOffset (0 * chunk) e.bank2 = e.nor := by
    rw [Nat.zero_mul, program_empty]
  have stopped : ∀ k < count, ∀ t,
      ChunkBegun e (e.nor.program backupOffset (k * chunk) e.bank2) chunk k t →
      ∃ n, t = { e with nor := n } ∧
        Framed e.nor n backupOffset (backupOffset + count * chunk) := by
    intro k below t begun
    obtain ⟨n, same, between⟩ := begun
    have reach : k * chunk + chunk ≤ count * chunk := by
      rw [← Nat.succ_mul]
      exact Nat.mul_le_mul_right chunk below
    have front := (program_framed e.nor backupOffset (k * chunk) e.bank2).widen
      (Nat.le_refl backupOffset) (show _ ≤ backupOffset + count * chunk by omega)
    have back := between.frame.widen (show backupOffset ≤ _ by omega)
      (show _ ≤ backupOffset + count * chunk by omega)
    exact ⟨n, same, front.trans back⟩
  have loop := Op.allFrom_ensures body
    (fun k t => t = { e with nor := e.nor.program backupOffset (k * chunk) e.bank2 })
    (fun t => ∃ n, t = { e with nor := n } ∧
      Framed e.nor n backupOffset (backupOffset + count * chunk))
    (fun t => ∃ n, t = { e with nor := n } ∧
      Framed e.nor n backupOffset (backupOffset + count * chunk)) count 0 e (by rw [start]) (by
      intro k t _ below reached
      subst reached
      have pass := step k (by omega) (e.nor.program backupOffset (k * chunk) e.bank2)
      simp only [ChunkDone] at pass
      rw [program_append e.nor backupOffset (k * chunk) chunk e.bank2, ← Nat.succ_mul] at pass
      apply pass.mono
      · intro ok u result
        cases ok with
        | false => exact stopped k (by omega) u result
        | true => exact result
      · intro u result
        exact stopped k (by omega) u result)
  rw [Nat.zero_add] at loop
  exact loop

/-- Erasing the backup area. -/
theorem backupErase_ensures (faults : Qspi.EraseFaults) (sound : faults.Sound) (b : Board) :
    Op.Ensures (onNor (Qspi.qspiEraseBlocks faults backupOffset appSize)) b
      (fun ok t => OnlyBackup b t ∧
        (ok = true → Erased t.nor backupOffset (backupOffset + appSize)))
      (fun t => OnlyBackup b t) := by
  have size : 16 * Qspi.qspiBlock64KSize = appSize := by decide
  have erasing := Qspi.qspiEraseBlocks_ensures faults sound backupOffset 16 b.nor
  rw [size] at erasing
  unfold onNor
  rw [Op.ensures_zoom]
  apply erasing.mono
  · intro ok n result
    exact ⟨⟨rfl, result.1⟩, result.2⟩
  · intro n framed
    exact ⟨rfl, framed⟩

/-- Programming all of Bank 2 over the erased area completes the backup. -/
theorem program_erased_backedUp (b e : Board) (only : OnlyBackup b e)
    (blank : Erased e.nor backupOffset (backupOffset + appSize)) :
    { e with nor := e.nor.program backupOffset appSize e.bank2 } = b.backedUp := by
  have bank : e.bank2 = b.bank2 := only.bank2
  have memory : e.nor.program backupOffset appSize e.bank2 =
      b.nor.store backupOffset appSize b.bank2 := by
    rw [blank.program, bank, only.frame.store]
  rw [memory, only.same]
  rfl

/-- What an erased board and the chunk loop make together. -/
theorem backupWhole_ensures (erase : Qspi.EraseFaults) (sound : erase.Sound)
    (body : Nat → Op Board Bool) (chunk count : Nat) (whole : count * chunk = appSize)
    (step : ∀ e, ∀ k < count, ∀ n, Op.Ensures (body k) { e with nor := n }
      (fun ok t => if ok then ChunkDone e n chunk k t else ChunkBegun e n chunk k t)
      (ChunkBegun e n chunk k)) (b : Board) :
    Op.Ensures (do
        if ← onNor (Qspi.qspiEraseBlocks erase backupOffset appSize) then Op.allFrom body count 0
        else pure false) b
      (fun ok t => OnlyBackup b t ∧ (ok = true → t = b.backedUp))
      (fun t => OnlyBackup b t) := by
  apply Op.Ensures.bind _ (backupErase_ensures erase sound b)
  intro ok e erased
  cases ok with
  | false => exact ⟨erased.1, by simp⟩
  | true =>
      have loop := backupLoop_ensures body chunk count e (step e)
      rw [whole] at loop
      apply loop.mono
      · intro done t result
        cases done with
        | false =>
            obtain ⟨n, rfl, framed⟩ := result
            exact ⟨erased.1.trans ⟨rfl, framed⟩, by simp⟩
        | true =>
            have copied := program_erased_backedUp b e erased.1 (erased.2 rfl)
            have final : t = b.backedUp := result.trans copied
            rw [final]
            exact ⟨b.backedUp_only, fun _ => rfl⟩
      · intro t result
        obtain ⟨n, rfl, framed⟩ := result
        exact erased.1.trans ⟨rfl, framed⟩

/-- The QSPI commands of the backup behave as the flash chip does: reported success
is real, and a failed program has moved bits only towards the data. -/
structure BackupFaults.Physical (faults : BackupFaults) : Prop where
  erase : faults.erase.Sound
  sound : ∀ chunk attempt page, (faults.write chunk attempt page).Sound
  bitwise : ∀ chunk attempt page, (faults.write chunk attempt page).Bitwise

theorem resetQspi_ensures (status : Status) (b : Board) {C : Board → Prop} (kept : C b) :
    Op.Ensures (resetQspi status) b (fun _ t => t = b) C := by
  unfold resetQspi onNor Qspi.bspQspiInit
  rw [Op.ensures_bind, Op.ensures_zoom]
  exact Status.check_ensures (fun _ => rfl) (fun _ => rfl) fun _ => kept

theorem backupTry_ensures (faults : BackupFaults) (physical : faults.Physical) (e : Board)
    (m n : Mem) (k attempt : Nat)
    (begun : Between m n (backupOffset + k * 64) 64 fun i => e.bank2 (k * 64 + i)) :
    Op.Ensures (backupTry faults k (fun i => e.bank2 (k * 64 + i)) attempt) { e with nor := n }
      (fun ok t => if ok then ChunkDone e m 64 k t else ChunkBegun e m 64 k t)
      (ChunkBegun e m 64 k) := by
  have writing := Qspi.bspQspiWrite_ensures (faults.write k attempt)
    (physical.sound k attempt) (physical.bitwise k attempt) (fun i => e.bank2 (k * 64 + i))
    (backupOffset + k * 64) 64 n
  unfold backupTry
  rw [Op.ensures_bind]
  unfold onNor
  rw [Op.ensures_zoom]
  apply writing.mono
  · intro ok o result
    cases ok with
    | true =>
        have stored : o = n.program (backupOffset + k * 64) 64 fun i => e.bank2 (k * 64 + i) :=
          result
        rw [begun.program] at stored
        simp only [↓reduceIte]
        rw [Op.ensures_pure]
        simp only [↓reduceIte, ChunkDone, stored]
    | false =>
        have further : ChunkBegun e m 64 k { e with nor := o } := ⟨o, rfl, begun.trans result⟩
        simp only [Bool.false_eq_true, ↓reduceIte]
        apply Op.Ensures.bind _ (resetQspi_ensures _ _ further)
        intro _ t same
        rw [same]
        exact further
  · intro o result
    exact ⟨o, rfl, begun.trans result⟩

theorem backupChunk_ensures (faults : BackupFaults) (physical : faults.Physical) (e : Board)
    (k : Nat) (n : Mem) :
    Op.Ensures (backupChunk faults k) { e with nor := n }
      (fun ok t => if ok then ChunkDone e n 64 k t else ChunkBegun e n 64 k t)
      (ChunkBegun e n 64 k) := by
  have untouched : ChunkBegun e n 64 k { e with nor := n } := ⟨n, rfl, Between.refl _ _ _ _⟩
  have body : Op.Ensures (do
      let data ← Op.gets fun b i => b.bank2 (k * 64 + i)
      if ← Op.anyFrom (backupTry faults k data) 3 0 then pure true
      else
        resetQspi (faults.giveUp k)
        pure false) { e with nor := n }
      (fun ok t => if ok then ChunkDone e n 64 k t else ChunkBegun e n 64 k t)
      (ChunkBegun e n 64 k) := by
    rw [Op.ensures_gets_bind]
    have tries := Op.anyFrom_ensures (backupTry faults k fun i => e.bank2 (k * 64 + i))
      (ChunkBegun e n 64 k) (ChunkDone e n 64 k) (ChunkBegun e n 64 k) 3 0
      { e with nor := n } untouched (by
        intro attempt t _ _ begun
        obtain ⟨o, rfl, between⟩ := begun
        exact backupTry_ensures faults physical e n o k attempt between)
    apply Op.Ensures.bind _ tries
    intro ok t result
    cases ok with
    | true => exact result
    | false =>
        have begun : ChunkBegun e n 64 k t := result
        simp only [Bool.false_eq_true, ↓reduceIte]
        apply Op.Ensures.bind _ (resetQspi_ensures _ _ begun)
        intro _ u same
        rw [same]
        exact begun
  unfold backupChunk
  split
  · apply Op.Ensures.bind _ (resetQspi_ensures _ _ untouched)
    intro _ t same
    rw [same]
    exact body
  · exact body

/-- Step 1 of the update: all of Bank 2 is in the backup area, or the step stopped
having touched nothing else. -/
theorem backupOldSlot_ensures (faults : BackupFaults) (physical : faults.Physical) (b : Board) :
    Op.Ensures (backupOldSlot faults) b
      (fun ok t => OnlyBackup b t ∧ (ok = true → t = b.backedUp))
      (fun t => OnlyBackup b t) := by
  have count : appSize / 64 * 64 = appSize := by decide
  exact backupWhole_ensures faults.erase physical.erase (backupChunk faults) 64 (appSize / 64) count
    (fun e k _ n => backupChunk_ensures faults physical e k n) b

theorem keeps_resetQspi {γ : Type} {f : Board → γ} (apart : ∀ b m, f { b with nor := m } = f b)
    (status : Status) : Op.Keeps f (resetQspi status) :=
  (keeps_onNor apart _).bind fun _ => Op.keeps_pure ()

/-- Step 1 changes nothing but the NOR, whatever its commands do there. -/
theorem keeps_backupOldSlot {γ : Type} {f : Board → γ}
    (apart : ∀ b m, f { b with nor := m } = f b) (faults : BackupFaults) :
    Op.Keeps f (backupOldSlot faults) := by
  apply (keeps_onNor apart _).bind
  intro ok
  apply Op.Keeps.ite _ (Op.keeps_pure false)
  apply Op.keeps_allFrom
  intro chunk
  have body : ∀ data : Nat → Byte, Op.Keeps f (do
      if ← Op.anyFrom (backupTry faults chunk data) 3 0 then pure true
      else
        resetQspi (faults.giveUp chunk)
        pure false) := by
    intro data
    have tries : Op.Keeps f (Op.anyFrom (backupTry faults chunk data) 3 0) := by
      apply Op.keeps_anyFrom
      intro k
      apply (keeps_onNor apart _).bind
      intro written
      exact (Op.keeps_pure true).ite ((keeps_resetQspi apart _).bind fun _ => Op.keeps_pure false)
    apply tries.bind
    intro done
    exact (Op.keeps_pure true).ite ((keeps_resetQspi apart _).bind fun _ => Op.keeps_pure false)
  unfold backupChunk
  apply Op.Keeps.ite
  · apply (keeps_resetQspi apart _).bind
    intro _
    exact (Op.keeps_gets _).bind body
  · exact (Op.keeps_gets _).bind body

structure ManualBackupFaults.Physical (faults : ManualBackupFaults) : Prop where
  erase : faults.erase.Sound
  sound : ∀ chunk page, (faults.write chunk page).Sound
  bitwise : ∀ chunk page, (faults.write chunk page).Bitwise

theorem copySlotA_ensures (faults : ManualBackupFaults) (physical : faults.Physical) (b : Board) :
    Op.Ensures (copySlotA faults) b
      (fun ok t => OnlyBackup b t ∧ (ok = true → t = b.backedUp))
      (fun t => OnlyBackup b t) := by
  have count : appSize / 4096 * 4096 = appSize := by decide
  apply backupWhole_ensures faults.erase physical.erase (manualChunk faults) 4096 (appSize / 4096)
    count
  intro e k _ n
  have writing := Qspi.bspQspiWrite_ensures (faults.write k) (physical.sound k)
    (physical.bitwise k) (fun i => e.bank2 (k * 4096 + i)) (backupOffset + k * 4096) 4096 n
  unfold manualChunk onNor
  rw [Op.ensures_gets_bind, Op.ensures_zoom]
  apply writing.mono
  · intro ok o result
    cases ok with
    | true =>
        have stored : o = n.program (backupOffset + k * 4096) 4096
          fun i => e.bank2 (k * 4096 + i) := result
        simp only [↓reduceIte, ChunkDone, stored]
    | false => exact ⟨o, rfl, result⟩
  · intro o result
    exact ⟨o, rfl, result⟩

/-- How one try at a chunk ends. -/
def BackupFaults.tryExit (faults : BackupFaults) (chunk attempt : Nat) : Exit Bool :=
  match (faults.write chunk attempt 0).status, faults.reinit chunk attempt with
  | .ok, _ => .done true
  | .error, .cut => .cut
  | .error, _ => .done false
  | .cut, _ => .cut

/-- The area is erased, every chunk is written within three tries and no reset
loses power. -/
structure BackupFaults.Completes (faults : BackupFaults) : Prop where
  erase : faults.erase.Completes 16
  periodic : ∀ chunk < appSize / 64, chunk * 64 ≠ 0 → chunk * 64 % (128 * 1024) = 0 →
    faults.periodic chunk ≠ .cut
  write : ∀ chunk < appSize / 64, Exit.any (faults.tryExit chunk) 3 0 = .done true

theorem exits_resetQspi (status : Status) (kept : status ≠ .cut) :
    Op.Exits (resetQspi status) (.done ()) := by
  intro b
  cases status with
  | cut => exact absurd rfl kept
  | ok => rfl
  | error => rfl

theorem exits_resetQspi_cut : Op.Exits (resetQspi .cut) .cut := fun _ => rfl

theorem backupTry_exits (faults : BackupFaults) (chunk : Nat) (data : Nat → Byte) (attempt : Nat) :
    Op.Exits (backupTry faults chunk data attempt) (faults.tryExit chunk attempt) := by
  have inPage : (backupOffset + chunk * 64) % Qspi.qspiPageSize + 64 ≤ Qspi.qspiPageSize := by
    simp only [backupOffset, Qspi.qspiPageSize]
    omega
  have writing : Op.Exits (onNor (Qspi.bspQspiWrite (faults.write chunk attempt) data
      (backupOffset + chunk * 64) 64)) (faults.write chunk attempt 0).status.exit :=
    Op.exits_zoom (Qspi.bspQspiWrite_exits (faults.write chunk attempt) data
      (backupOffset + chunk * 64) 64 (by decide) inPage)
  intro b
  unfold backupTry BackupFaults.tryExit
  generalize (faults.write chunk attempt 0).status = status at writing
  cases status with
  | ok =>
      rw [writing.then]
      rfl
  | cut => exact writing.bind_cut _ b
  | error =>
      rw [writing.then]
      simp only [Bool.false_eq_true, ↓reduceIte]
      cases faults.reinit chunk attempt with
      | cut => exact exits_resetQspi_cut.bind_cut _ _
      | ok => rfl
      | error => rfl

/-- What follows a reset is reached unless power is lost in it. -/
theorem resetQspi_succeeds (status : Status) {next : Op Board Bool} {P : Prop}
    (succeeds : Op.Succeeds next P) :
    Op.Succeeds (do
      resetQspi status
      next) (status ≠ .cut ∧ P) := by
  intro b
  by_cases lost : status = .cut
  · subst lost
    rw [exits_resetQspi_cut.bind_cut _ b]
    simp
  · rw [(exits_resetQspi status lost).then, succeeds]
    exact (and_iff_right lost).symm

theorem backupChunk_succeeds (faults : BackupFaults) (chunk : Nat) :
    Op.Succeeds (backupChunk faults chunk)
      ((chunk * 64 ≠ 0 → chunk * 64 % (128 * 1024) = 0 → faults.periodic chunk ≠ .cut) ∧
        Exit.any (faults.tryExit chunk) 3 0 = .done true) := by
  have givesUp := resetQspi_succeeds (faults.giveUp chunk)
    (Op.Exits.succeeds (c := (pure false : Op Board Bool)) fun _ => rfl)
  have body : Op.Succeeds (do
      let data ← Op.gets fun b i => b.bank2 (chunk * 64 + i)
      if ← Op.anyFrom (backupTry faults chunk data) 3 0 then pure true
      else
        resetQspi (faults.giveUp chunk)
        pure false : Op Board Bool) (Exit.any (faults.tryExit chunk) 3 0 = .done true) := by
    intro b
    rw [Op.gets_bind_run]
    have tries := Op.exits_anyFrom
      (backupTry_exits faults chunk fun i => b.bank2 (chunk * 64 + i)) 3 0
    rw [tries.or givesUp b]
    simp
  by_cases boundary : chunk * 64 ≠ 0 ∧ chunk * 64 % (128 * 1024) = 0
  · have both := resetQspi_succeeds (faults.periodic chunk) body
    intro b
    unfold backupChunk
    rw [if_pos boundary, both]
    simp only [boundary.1, boundary.2, ne_eq, not_false_eq_true, true_implies]
  · have skipped : chunk * 64 ≠ 0 → chunk * 64 % (128 * 1024) = 0 → faults.periodic chunk ≠ .cut :=
      fun nonzero multiple => absurd ⟨nonzero, multiple⟩ boundary
    intro b
    unfold backupChunk
    rw [if_neg boundary, and_iff_right skipped]
    exact body b

theorem backupErase_succeeds (faults : Qspi.EraseFaults) :
    Op.Succeeds (onNor (Qspi.qspiEraseBlocks faults backupOffset appSize))
      (faults.Completes 16) := by
  have size : 16 * Qspi.qspiBlock64KSize = appSize := by decide
  have erasing := Qspi.qspiEraseBlocks_succeeds faults backupOffset 16
  rw [size] at erasing
  exact Op.succeeds_zoom erasing

theorem backupOldSlot_succeeds (faults : BackupFaults) :
    Op.Succeeds (backupOldSlot faults) faults.Completes := by
  have loop := Op.succeeds_allFrom (backupChunk_succeeds faults) (appSize / 64) 0
  simp only [Nat.zero_add] at loop
  have both := (backupErase_succeeds faults.erase).and loop
  intro b
  have run := both b
  unfold backupOldSlot
  rw [run]
  constructor
  · intro all
    exact ⟨all.1, fun chunk below => (all.2 chunk below).1, fun chunk below => (all.2 chunk below).2⟩
  · intro all
    exact ⟨all.erase, fun chunk below => ⟨all.periodic chunk below, all.write chunk below⟩⟩

/-- The area is erased and every page of every chunk is written at its only try. -/
structure ManualBackupFaults.Completes (faults : ManualBackupFaults) : Prop where
  erase : faults.erase.Completes 16
  write : ∀ chunk < appSize / 4096, ∀ page < 16, (faults.write chunk page).status = .ok

theorem copySlotA_succeeds (faults : ManualBackupFaults) :
    Op.Succeeds (copySlotA faults) faults.Completes := by
  have pass : ∀ chunk, Op.Succeeds (manualChunk faults chunk)
      (∀ page < 16, (faults.write chunk page).status = .ok) := by
    intro chunk b
    have pages : Qspi.writePages (backupOffset + chunk * 4096) 4096 = 16 := by
      simp only [Qspi.writePages, Qspi.qspiPageSize, backupOffset, Nat.reduceEqDiff, ↓reduceIte]
      omega
    have writing := Qspi.bspQspiWrite_succeeds (faults.write chunk)
      (fun i => b.bank2 (chunk * 4096 + i)) (backupOffset + chunk * 4096) 4096
    rw [pages] at writing
    exact writing b.nor
  have loop := Op.succeeds_allFrom pass (appSize / 4096) 0
  simp only [Nat.zero_add] at loop
  have both := (backupErase_succeeds faults.erase).and loop
  intro b
  have run := both b
  unfold copySlotA
  rw [run]
  exact ⟨fun all => ⟨all.1, all.2⟩, fun all => ⟨all.erase, all.write⟩⟩

/-- The board once `recordBackup` has got as far as its faults let it. -/
def Board.recorded (b : Board) (faults : MetaFaults) : Board :=
  { b with sector1 := faults.stage.memory b.record.backedUp b.sector1 }

theorem Board.recorded_bank2 (b : Board) (faults : MetaFaults) :
    (b.recorded faults).bank2 = b.bank2 := rfl

theorem Board.recorded_nor (b : Board) (faults : MetaFaults) :
    (b.recorded faults).nor = b.nor := rfl

theorem recordBackup_ensures (faults : MetaFaults) (b : Board) :
    Op.Ensures (recordBackup faults) b
      (fun _ t => t = b.recorded faults ∧ faults.exit ≠ .cut)
      (fun t => t = b.recorded faults ∧ faults.exit = .cut) := by
  unfold recordBackup
  rw [Op.ensures_gets_bind, Op.ensures_bind]
  unfold Op.Ensures
  rw [recordWrite_run]
  generalize faults.exit = ending
  cases ending with
  | done ok => exact ⟨rfl, by simp⟩
  | cut => exact ⟨rfl, rfl⟩

/-- The first word of Bank 2 does not look like a stack pointer. -/
def Board.NoApp (b : Board) : Prop := b.bank2.word 0 = 0xFFFFFFFF ∨ b.bank2.word 0 = 0

instance (b : Board) : Decidable b.NoApp := inferInstanceAs (Decidable (_ ∨ _))

/-- Where `Backup_SlotA` leaves the board. -/
inductive ManualBackupPhase (faults : ManualBackupFaults) (b : Board) : Board → Prop
  | skipped (invalid : b.NoApp) : ManualBackupPhase faults b b
  | stopped (t : Board) (valid : ¬ b.NoApp) (failed : ¬ faults.Completes)
      (only : OnlyBackup b t) : ManualBackupPhase faults b t
  | recorded (valid : ¬ b.NoApp) (backup : faults.Completes) :
      ManualBackupPhase faults b (b.backedUp.recorded faults.record)

theorem backupSlotA_phase (faults : ManualBackupFaults) (physical : faults.Physical) (b : Board) :
    ManualBackupPhase faults b (backupSlotA faults b).2 := by
  unfold backupSlotA
  rw [Op.gets_bind_run]
  by_cases invalid : b.NoApp
  · have skip : b.bank2.word 0 = 0xFFFFFFFF ∨ b.bank2.word 0 = 0 := invalid
    rw [if_pos skip]
    exact .skipped invalid
  · have go : ¬ (b.bank2.word 0 = 0xFFFFFFFF ∨ b.bank2.word 0 = 0) := invalid
    rw [if_neg go]
    have spec := copySlotA_ensures faults physical b
    have completes := copySlotA_succeeds faults b
    generalize copy : copySlotA faults b = result at completes
    obtain ⟨ending, e⟩ := result
    cases ending with
    | cut =>
        rw [Op.bind_run_cut _ _ _ _ copy]
        have only := Op.ensures_of_cut spec copy
        exact .stopped _ invalid (fun all => nomatch completes.mpr all) only
    | done ok =>
        rw [Op.bind_run_done _ _ _ _ _ copy]
        have backed := Op.ensures_of_run spec copy
        cases ok with
        | false =>
            have failed : ¬ faults.Completes := by
              intro all
              have success := completes.mpr all
              simp at success
            exact .stopped _ invalid failed backed.1
        | true =>
            have copied : e = b.backedUp := backed.2 rfl
            subst copied
            have recording := Op.Ensures.final
              ((recordBackup_ensures faults.record b.backedUp).mono
                (fun _ _ result => result.1) fun _ result => result.1)
            simp only [↓reduceIte]
            rw [recording]
            exact .recorded invalid (completes.mp rfl)

end OtaBoot
