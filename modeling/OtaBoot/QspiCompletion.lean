import OtaBoot.QspiMemory

set_option autoImplicit false

/- Which driver calls return success, read off their faults alone, and what a refused
erase leaves. -/
namespace OtaBoot.Qspi

/-- The pages a write touches. -/
def writePages (address size : Nat) : Nat :=
  if size = 0 then 0 else (address % qspiPageSize + size + (qspiPageSize - 1)) / qspiPageSize

theorem bspQspiWriteFrom_succeeds (faults : Nat → ChipFault) (data : Nat → Byte) (passes : Nat) :
    ∀ pass address offset remaining, remaining ≤ passes →
    Op.Succeeds (bspQspiWriteFrom faults data passes pass address offset remaining)
      (∀ p < writePages address remaining, (faults (pass + p)).status = .ok) := by
  induction passes with
  | zero =>
      intro pass address offset remaining bound m
      have none : remaining = 0 := by omega
      subst none
      simp only [bspQspiWriteFrom, Op.pure_run, writePages, ↓reduceIte, Nat.not_lt_zero,
        false_implies, implies_true]
  | succ passes ih =>
      intro pass address offset remaining bound m
      by_cases empty : remaining = 0
      · subst empty
        simp only [bspQspiWriteFrom, Op.pure_run, writePages, ↓reduceIte, Nat.not_lt_zero,
          false_implies, implies_true]
      · unfold bspQspiWriteFrom
        simp only [empty, ↓reduceIte]
        generalize size : (if remaining < qspiPageSize - address % qspiPageSize then remaining
          else qspiPageSize - address % qspiPageSize) = chunk
        have positive := (pageChunk_bounds empty size).1
        have page := (ChipFault.exits_command (faults pass)
          (address - address % qspiPageSize) qspiPageSize
          (pageWant (address % qspiPageSize) chunk fun i => data (offset + i))).succeeds
        have rest := ih (pass + 1) (address + chunk) (offset + chunk) (remaining - chunk) (by omega)
        have both := page.and rest m
        have pages : writePages address remaining =
            writePages (address + chunk) (remaining - chunk) + 1 := by
          simp only [writePages, qspiPageSize] at size ⊢
          simp only [empty, ↓reduceIte]
          split at size <;> split <;> omega
        have first : (faults pass).status.exit = .done true ↔ (faults pass).status = .ok := by
          cases (faults pass).status <;> simp [Status.exit]
        unfold pageProgram
        rw [both, first, pages]
        constructor
        · intro holds p below
          cases p with
          | zero => exact holds.1
          | succ p =>
              have next := holds.2 p (by omega)
              rwa [Nat.add_right_comm] at next
        · intro holds
          refine ⟨holds 0 (by omega), ?_⟩
          intro p below
          have next := holds (p + 1) (by omega)
          rwa [← Nat.add_assoc, Nat.add_right_comm] at next

/-- A write succeeds when each of its page programs reports success. -/
theorem bspQspiWrite_succeeds (faults : Nat → ChipFault) (data : Nat → Byte)
    (address size : Nat) :
    Op.Succeeds (bspQspiWrite faults data address size)
      (∀ p < writePages address size, (faults p).status = .ok) := by
  have loop := bspQspiWriteFrom_succeeds faults data size 0 address 0 size (Nat.le_refl _)
  simp only [Nat.zero_add] at loop
  exact loop

/-- A write inside one page ends as its only page program does. -/
theorem bspQspiWrite_exits (fault : Nat → ChipFault) (data : Nat → Byte) (address size : Nat)
    (positive : 0 < size) (inPage : address % qspiPageSize + size ≤ qspiPageSize) :
    Op.Exits (bspQspiWrite fault data address size) (fault 0).status.exit := by
  intro m
  cases size with
  | zero => omega
  | succ size =>
      have whole : (if size + 1 < qspiPageSize - address % qspiPageSize then size + 1
          else qspiPageSize - address % qspiPageSize) = size + 1 := by
        split <;> omega
      have page := ChipFault.exits_command (fault 0)
        (address - address % qspiPageSize) qspiPageSize
        (pageWant (address % qspiPageSize) (size + 1) fun i => data (0 + i))
      unfold bspQspiWrite bspQspiWriteFrom
      simp only [Nat.add_one_ne_zero, ↓reduceIte, whole, Nat.sub_self]
      unfold pageProgram
      generalize (fault 0).status.exit = ending at page
      cases ending with
      | cut => exact page.bind_cut _ m
      | done ok =>
          rw [page.then]
          cases ok with
          | false => rfl
          | true => cases size <;> rfl

namespace EraseFaults

/-- How the three tries of the block erase end. -/
def tries (faults : Nat → ChipFault) : Exit Bool :=
  Exit.any (fun k => (faults k).status.exit) 3 0

/-- Every block is erased by its first or second call and no reset loses power. -/
def Completes (faults : EraseFaults) (blocks : Nat) : Prop :=
  ∀ block < blocks,
    (tries (faults.first block) = .done true ∨
      tries (faults.first block) = .done false ∧ faults.reinit block ≠ .cut ∧
        tries (faults.second block) = .done true) ∧
    ((block + 1) % 8 = 0 → faults.periodic block ≠ .cut)

theorem clean_completes (blocks : Nat) : clean.Completes blocks := by
  intro block below
  exact ⟨.inl rfl, fun _ => by simp [clean]⟩

end EraseFaults

theorem bspQspiEraseBlock64K_exits (faults : Nat → ChipFault) (address : Nat) :
    Op.Exits (bspQspiEraseBlock64K faults address) (EraseFaults.tries faults) :=
  Op.exits_anyFrom (fun k => ChipFault.exits_command (faults k) address qspiBlock64KSize _) 3 0

/-- What follows a reset is reached unless power is lost in it. -/
theorem bspQspiInit_succeeds (status : Status) {next : Op Mem Bool} {P : Prop}
    (rest : Op.Succeeds next P) :
    Op.Succeeds (do
      let _ ← bspQspiInit status
      next) (status ≠ .cut ∧ P) := by
  have reset : Op.Exits (bspQspiInit status) status.exit := Status.exits_check status
  have kept : status.exit ≠ .cut ↔ status ≠ .cut := by
    cases status <;> simp [Status.exit]
  rw [← kept]
  exact reset.ignored rest

theorem qspiEraseOrReset_succeeds (faults : EraseFaults) (block address : Nat) :
    Op.Succeeds (qspiEraseOrReset faults block address)
      (EraseFaults.tries (faults.first block) = .done true ∨
        EraseFaults.tries (faults.first block) = .done false ∧ faults.reinit block ≠ .cut ∧
          EraseFaults.tries (faults.second block) = .done true) := by
  have first := bspQspiEraseBlock64K_exits (faults.first block) address
  have again := bspQspiEraseBlock64K_exits (faults.second block) address
  exact first.or (bspQspiInit_succeeds (faults.reinit block) again.succeeds)

theorem qspiEraseBlocks_succeeds (faults : EraseFaults) (start blocks : Nat) :
    Op.Succeeds (qspiEraseBlocks faults start (blocks * qspiBlock64KSize))
      (faults.Completes blocks) := by
  have pass : ∀ block, Op.Succeeds (qspiErasePass faults start block)
      ((EraseFaults.tries (faults.first block) = .done true ∨
        EraseFaults.tries (faults.first block) = .done false ∧ faults.reinit block ≠ .cut ∧
          EraseFaults.tries (faults.second block) = .done true) ∧
        ((block + 1) % 8 = 0 → faults.periodic block ≠ .cut)) := by
    intro block
    apply (qspiEraseOrReset_succeeds faults block (start + block * qspiBlock64KSize)).and
    intro m
    by_cases eighth : (block + 1) % 8 = 0
    · have reset := bspQspiInit_succeeds (faults.periodic block)
        (Op.Exits.succeeds (c := (pure true : Op Mem Bool)) fun _ => rfl)
      simp only [eighth, ↓reduceIte, true_implies]
      rw [reset]
      simp only [and_true]
    · simp only [eighth, ↓reduceIte, Op.pure_run, false_implies]
  have count : (blocks * qspiBlock64KSize + qspiBlock64KSize - 1) / qspiBlock64KSize = blocks := by
    simp only [qspiBlock64KSize]
    omega
  have loop := Op.succeeds_allFrom pass blocks 0
  simp only [Nat.zero_add] at loop
  unfold qspiEraseBlocks
  rw [count]
  exact loop

section Refused

open Mem

/-- The chip refuses to erase the first block: every try fails and changes nothing. -/
structure EraseFaults.Refused (faults : EraseFaults) : Prop where
  first : ∀ k, (faults.first 0 k).Idle ∧ (faults.first 0 k).status ≠ .ok
  second : ∀ k, (faults.second 0 k).Idle ∧ (faults.second 0 k).status ≠ .ok

theorem EraseFaults.Refused.stops {faults : EraseFaults} (refused : faults.Refused) (blocks : Nat)
    (positive : 0 < blocks) : ¬ faults.Completes blocks := by
  have never : ∀ chip : Nat → ChipFault, (∀ k, (chip k).status ≠ .ok) →
      EraseFaults.tries chip ≠ .done true := by
    intro chip failing
    apply Exit.any_failing
    intro k
    have bad := failing k
    generalize (chip k).status = status at bad ⊢
    cases status with
    | ok => exact absurd rfl bad
    | error => simp [Status.exit]
    | cut => simp [Status.exit]
  intro completes
  rcases (completes 0 positive).1 with first | ⟨_, _, second⟩
  · exact never _ (fun k => (refused.first k).2) first
  · exact never _ (fun k => (refused.second k).2) second

theorem bspQspiEraseBlock64K_refused (faults : Nat → ChipFault)
    (refused : ∀ k, (faults k).Idle ∧ (faults k).status ≠ .ok) (address : Nat) (m : Mem) :
    Op.Ensures (bspQspiEraseBlock64K faults address) m (fun ok n => ok = false ∧ n = m)
      (fun n => n = m) := by
  have idle : ∀ k, m.store address qspiBlock64KSize (fun i =>
      (faults k).leaves i (m (address + i)) 0xFF) = m := by
    intro k
    funext i
    by_cases inside : address ≤ i ∧ i < address + qspiBlock64KSize
    · rw [store_inside _ _ _ _ _ inside.1 inside.2, (refused k).1]
      congr 1
      omega
    · exact store_outside _ _ _ _ _ (by omega)
  have tries := Op.anyFrom_ensures (fun attempt =>
      (faults attempt).command address qspiBlock64KSize fun _ _ => 0xFF)
    (fun n => n = m) (fun _ => False) (fun n => n = m) 3 0 m rfl (by
      intro k n _ _ same
      subst same
      apply ChipFault.command_ensures
      · intro ok
        exact absurd ok (refused k).2
      · intro _
        exact idle k
      · intro _
        exact idle k)
  apply tries.mono
  · intro ok n result
    cases ok with
    | false => exact ⟨rfl, result⟩
    | true => exact result.elim
  · intro n same
    exact same

theorem qspiEraseBlocks_refused (faults : EraseFaults) (refused : faults.Refused)
    (start size : Nat) (positive : 0 < size) (m : Mem) :
    Op.Ensures (qspiEraseBlocks faults start size) m (fun ok n => ok = false ∧ n = m)
      (fun n => n = m) := by
  have passes : ∃ count, (size + qspiBlock64KSize - 1) / qspiBlock64KSize = count + 1 := by
    refine ⟨(size + qspiBlock64KSize - 1) / qspiBlock64KSize - 1, ?_⟩
    simp only [qspiBlock64KSize]
    omega
  obtain ⟨count, total⟩ := passes
  have block : Op.Ensures (qspiEraseOrReset faults 0 (start + 0 * qspiBlock64KSize)) m
      (fun ok n => ok = false ∧ n = m) (fun n => n = m) := by
    apply Op.Ensures.bind _ (bspQspiEraseBlock64K_refused _ refused.first _ m)
    intro ok n result
    obtain ⟨rfl, rfl⟩ := result
    simp only [Bool.false_eq_true, ↓reduceIte]
    apply Op.Ensures.bind _ (bspQspiInit_ensures (C := fun o => o = n) _ n rfl)
    intro _ o same
    subst same
    exact bspQspiEraseBlock64K_refused _ refused.second _ o
  have pass : Op.Ensures (qspiErasePass faults start 0) m
      (fun ok n => ok = false ∧ n = m) (fun n => n = m) := by
    apply Op.Ensures.bind _ block
    intro ok n result
    obtain ⟨rfl, rfl⟩ := result
    exact ⟨rfl, rfl⟩
  unfold qspiEraseBlocks
  rw [total, Op.allFrom]
  apply Op.Ensures.bind _ pass
  intro ok n result
  obtain ⟨rfl, rfl⟩ := result
  exact ⟨rfl, rfl⟩

end Refused

/- Commands during which power is not lost. -/
section Returns

theorem returns_command {fault : ChipFault} (powered : fault.status ≠ .cut) (address size : Nat)
    (want : Nat → Byte → Byte) : Op.Returns (fault.command address size want) :=
  (ChipFault.exits_command fault address size want).returns (Status.exit_returns powered)

theorem returns_bspQspiInit {status : Status} (powered : status ≠ .cut) :
    Op.Returns (bspQspiInit status) :=
  (Status.exits_check status).returns (Status.exit_returns powered)

theorem returns_bspQspiRead {status : Status} (powered : status ≠ .cut) (address size : Nat) :
    Op.Returns (bspQspiRead status address size) := by
  intro m
  unfold bspQspiRead
  cases status with
  | cut => exact absurd rfl powered
  | ok => simp
  | error => simp

theorem returns_bspQspiWriteFrom {faults : Nat → ChipFault}
    (powered : ∀ page, (faults page).status ≠ .cut) (data : Nat → Byte) (passes : Nat) :
    ∀ pass address offset remaining,
    Op.Returns (bspQspiWriteFrom faults data passes pass address offset remaining) := by
  induction passes with
  | zero =>
      intro pass address offset remaining
      exact Op.returns_pure true
  | succ passes ih =>
      intro pass address offset remaining
      rw [bspQspiWriteFrom]
      apply (Op.returns_pure true).ite
      apply (returns_command (powered pass) _ _ _).bind
      intro ok
      exact (ih _ _ _ _).ite (Op.returns_pure false)

/-- No command of a batch erase loses power. -/
structure EraseFaults.Powered (faults : EraseFaults) : Prop where
  first : ∀ block k, (faults.first block k).status ≠ .cut
  reinit : ∀ block, faults.reinit block ≠ .cut
  second : ∀ block k, (faults.second block k).status ≠ .cut
  periodic : ∀ block, faults.periodic block ≠ .cut

theorem returns_qspiEraseBlocks {faults : EraseFaults} (powered : faults.Powered)
    (start size : Nat) : Op.Returns (qspiEraseBlocks faults start size) := by
  have block : ∀ {chip : Nat → ChipFault} (_ : ∀ k, (chip k).status ≠ .cut) address,
      Op.Returns (bspQspiEraseBlock64K chip address) :=
    fun kept address => Op.returns_anyFrom (fun k => returns_command (kept k) _ _ _) 3 0
  apply Op.returns_allFrom
  intro k
  have erase : Op.Returns (qspiEraseOrReset faults k (start + k * qspiBlock64KSize)) := by
    apply (block (powered.first k) _).bind
    intro ok
    apply (Op.returns_pure true).ite
    apply (returns_bspQspiInit (powered.reinit k)).bind
    intro _
    exact block (powered.second k) _
  apply erase.bind
  intro ok
  apply Op.Returns.ite _ (Op.returns_pure false)
  apply Op.Returns.ite _ (Op.returns_pure true)
  exact (returns_bspQspiInit (powered.periodic k)).bind fun _ => Op.returns_pure true

end Returns

end OtaBoot.Qspi
