import OtaBoot.Qspi

set_option autoImplicit false

namespace OtaBoot.Qspi

open Mem

/-- Inside one page the transfer does not wrap: the chip is asked to clear bits of
exactly the addressed bytes. -/
theorem pageWant_eq (column size offset : Nat) (data : Nat → Byte) (old : Byte)
    (fits : column + size ≤ qspiPageSize) (inPage : offset < qspiPageSize) :
    pageWant column size data offset old =
      if column ≤ offset ∧ offset < column + size then old &&& data (offset - column) else old := by
  dsimp only [pageWant, qspiPageSize] at fits inPage ⊢
  by_cases before : offset < column
  · have index : (offset + 256 - column) % 256 = offset + 256 - column := by
      apply Nat.mod_eq_of_lt
      omega
    have late : ¬ offset + 256 - column < size := by omega
    have apart : ¬ (column ≤ offset ∧ offset < column + size) := by omega
    simp only [index, late, apart, ↓reduceIte]
  · have index : (offset + 256 - column) % 256 = offset - column := by omega
    have same : offset - column < size ↔ column ≤ offset ∧ offset < column + size := by omega
    simp only [index, same]

/-- What a command leaves at a byte, by whether it is in the page and addressed. -/
theorem pageProgram_leaves (fault : ChipFault) (m : Mem) (address size page low : Nat)
    (data : Nat → Byte) (base : page + low = address) (fits : low + size ≤ qspiPageSize) (i : Nat) :
    m.store page qspiPageSize (fun offset => fault.leaves offset (m (page + offset))
      (pageWant low size data offset (m (page + offset)))) i =
      if page ≤ i ∧ i < page + qspiPageSize then fault.leaves (i - page) (m i)
        (if address ≤ i ∧ i < address + size then m i &&& data (i - address) else m i)
      else m i := by
  by_cases inPage : page ≤ i ∧ i < page + qspiPageSize
  · rw [store_inside _ _ _ _ _ inPage.1 inPage.2, show page + (i - page) = i by omega,
      pageWant_eq low size (i - page) data (m i) fits (by omega)]
    have addressed : (low ≤ i - page ∧ i - page < low + size) ↔
        (address ≤ i ∧ i < address + size) := by omega
    have offset : i - page - low = i - address := by omega
    simp only [inPage, and_self, ↓reduceIte, addressed, offset]
  · simp only [store_outside _ _ _ _ _ (show i < page ∨ page + qspiPageSize ≤ i by omega),
      inPage, ↓reduceIte]

/-- The array after a page program that stays inside its page. -/
theorem pageProgram_ensures (fault : ChipFault) (address size : Nat) (data : Nat → Byte) (m : Mem)
    (fits : address % qspiPageSize + size ≤ qspiPageSize) (sound : fault.Sound)
    (bitwise : fault.Bitwise) :
    Op.Ensures (pageProgram fault address size data) m
      (fun ok n => if ok then n = m.program address size data else Between m n address size data)
      (fun n => Between m n address size data) := by
  have base : address - address % qspiPageSize + address % qspiPageSize = address := by
    have := Nat.mod_le address qspiPageSize
    omega
  generalize start : address - address % qspiPageSize = page at base
  generalize column : address % qspiPageSize = low at base fits
  have left := pageProgram_leaves fault m address size page low data base fits
  have between : Between m (m.store page qspiPageSize (fun offset => fault.leaves offset
      (m (page + offset)) (pageWant low size data offset (m (page + offset)))))
      address size data := by
    constructor
    · intro i outside
      have absent : ¬ (address ≤ i ∧ i < address + size) := by omega
      rw [left i]
      simp only [absent, ↓reduceIte]
      split
      · exact bitwise.same _ _
      · rfl
    · intro i lower upper
      have inPage : page ≤ i ∧ i < page + qspiPageSize := by omega
      rw [left i]
      simp only [inPage, lower, upper, and_self, ↓reduceIte]
      exact bitwise.toward _ _ _
  unfold pageProgram
  rw [start, column]
  apply ChipFault.command_ensures
  · intro reported
    simp only [↓reduceIte]
    funext i
    rw [left i]
    by_cases addressed : address ≤ i ∧ i < address + size
    · have inPage : page ≤ i ∧ i < page + qspiPageSize := by omega
      simp only [inPage, addressed, and_self, ↓reduceIte, sound reported]
      rw [program_inside m _ _ _ _ addressed.1 addressed.2]
    · rw [program_outside m _ _ _ _ (by omega)]
      simp only [addressed, ↓reduceIte, sound reported, ite_self]
  · intro _
    exact between
  · intro _
    exact between

/-- The part of a write that goes into its first page. -/
theorem pageChunk_bounds {address remaining chunk : Nat} (nonempty : remaining ≠ 0)
    (part : (if remaining < qspiPageSize - address % qspiPageSize then remaining
      else qspiPageSize - address % qspiPageSize) = chunk) :
    0 < chunk ∧ chunk ≤ remaining ∧ address % qspiPageSize + chunk ≤ qspiPageSize := by
  have column : address % qspiPageSize < qspiPageSize := Nat.mod_lt _ (by decide)
  split at part <;> omega

/-- The data after a part of it. -/
theorem data_shift (data : Nat → Byte) (offset chunk : Nat) :
    (fun i => data (offset + chunk + i)) = fun i => data (offset + (chunk + i)) := by
  funext i
  rw [Nat.add_assoc]

/-- The page loop programs exactly its range; an interrupted one has begun to. -/
theorem bspQspiWriteFrom_ensures (faults : Nat → ChipFault) (sound : ∀ k, (faults k).Sound)
    (bitwise : ∀ k, (faults k).Bitwise) (data : Nat → Byte) (passes : Nat) :
    ∀ pass address offset remaining (m : Mem), remaining ≤ passes →
    Op.Ensures (bspQspiWriteFrom faults data passes pass address offset remaining) m
      (fun ok n => if ok then n = m.program address remaining (fun i => data (offset + i))
        else Between m n address remaining (fun i => data (offset + i)))
      (fun n => Between m n address remaining (fun i => data (offset + i))) := by
  induction passes with
  | zero =>
      intro pass address offset remaining m bound
      have empty : remaining = 0 := by omega
      subst empty
      exact (program_empty m _ _).symm
  | succ passes ih =>
      intro pass address offset remaining m bound
      rw [bspQspiWriteFrom]
      split
      · rename_i empty
        subst empty
        exact (program_empty m _ _).symm
      · rename_i nonempty
        dsimp only
        generalize part : (if remaining < qspiPageSize - address % qspiPageSize then remaining
          else qspiPageSize - address % qspiPageSize) = chunk
        have sized := pageChunk_bounds nonempty part
        obtain ⟨rest, split⟩ : ∃ rest, remaining = chunk + rest := ⟨remaining - chunk, by omega⟩
        subst split
        have shifted := data_shift data offset chunk
        have page := pageProgram_ensures (faults pass) address chunk (fun i => data (offset + i)) m
          sized.2.2 (sound pass) (bitwise pass)
        refine Op.Ensures.bind
          (fun ok n => if ok then n = m.program address chunk (fun i => data (offset + i))
            else Between m n address chunk (fun i => data (offset + i)))
          (page.mono (fun _ _ kept => kept) fun n begun => begun.extend rest) ?_
        intro ok n passed
        cases ok with
        | false => exact Between.extend passed rest
        | true =>
            simp only [↓reduceIte] at passed
            subst passed
            have next := ih (pass + 1) (address + chunk) (offset + chunk) rest
              (m.program address chunk fun i => data (offset + i)) (by omega)
            simp only [↓reduceIte, Nat.add_sub_cancel_left]
            refine next.mono ?_ ?_
            · intro done final result
              cases done with
              | false =>
                  simp only [Bool.false_eq_true, ↓reduceIte, shifted] at result ⊢
                  exact result.append
              | true =>
                  simp only [↓reduceIte, shifted] at result ⊢
                  rw [result]
                  exact program_append m address chunk rest fun i => data (offset + i)
            · intro final begun
              rw [shifted] at begun
              exact begun.append

theorem bspQspiWrite_ensures (faults : Nat → ChipFault) (sound : ∀ k, (faults k).Sound)
    (bitwise : ∀ k, (faults k).Bitwise) (data : Nat → Byte) (address size : Nat) (m : Mem) :
    Op.Ensures (bspQspiWrite faults data address size) m
      (fun ok n => if ok then n = m.program address size data else Between m n address size data)
      (fun n => Between m n address size data) := by
  simpa only [bspQspiWrite, Nat.zero_add] using
    bspQspiWriteFrom_ensures faults sound bitwise data size 0 address 0 size m (Nat.le_refl _)

/-- Three tries at one block touch nothing else; a reported success erased it. -/
theorem bspQspiEraseBlock64K_ensures (faults : Nat → ChipFault) (sound : ∀ k, (faults k).Sound)
    (address : Nat) (m : Mem) :
    Op.Ensures (bspQspiEraseBlock64K faults address) m
      (fun ok n => Framed m n address (address + qspiBlock64KSize) ∧
        (ok = true → Erased n address (address + qspiBlock64KSize)))
      (fun n => Framed m n address (address + qspiBlock64KSize)) := by
  have tries := Op.anyFrom_ensures
    (fun k => (faults k).command address qspiBlock64KSize fun _ _ => 0xFF)
    (fun n => Framed m n address (address + qspiBlock64KSize))
    (fun n => Framed m n address (address + qspiBlock64KSize) ∧
      Erased n address (address + qspiBlock64KSize))
    (fun n => Framed m n address (address + qspiBlock64KSize)) 3 0 m (Framed.refl m _ _) (by
      intro k n _ _ framed
      have kept : Framed m (n.store address qspiBlock64KSize
          fun i => (faults k).leaves i (n (address + i)) 0xFF) address
          (address + qspiBlock64KSize) :=
        framed.trans (store_framed n address qspiBlock64KSize _)
      apply ChipFault.command_ensures
      · intro reported
        refine ⟨kept, ?_⟩
        intro i lower upper
        rw [store_inside n _ _ _ i lower upper]
        exact sound k reported _ _ _
      · intro _
        exact kept
      · intro _
        exact kept)
  refine tries.mono ?_ fun _ framed => framed
  intro ok n result
  cases ok with
  | false => exact ⟨result, by simp⟩
  | true => exact ⟨result.1, fun _ => result.2⟩

/-- The controller reset leaves the array alone. -/
theorem bspQspiInit_ensures (status : Status) (m : Mem) {C : Mem → Prop} (kept : C m) :
    Op.Ensures (bspQspiInit status) m (fun _ n => n = m) C :=
  Status.check_ensures (fun _ => rfl) (fun _ => rfl) fun _ => kept

theorem qspiEraseOrReset_ensures (faults : EraseFaults) (sound : faults.Sound)
    (block address : Nat) (m : Mem) :
    Op.Ensures (qspiEraseOrReset faults block address) m
      (fun ok n => Framed m n address (address + qspiBlock64KSize) ∧
        (ok = true → Erased n address (address + qspiBlock64KSize)))
      (fun n => Framed m n address (address + qspiBlock64KSize)) := by
  refine Op.Ensures.bind _
    (bspQspiEraseBlock64K_ensures (faults.first block) (sound.1 block) address m) ?_
  intro ok n kept
  cases ok with
  | true => exact kept
  | false =>
      refine Op.Ensures.bind _ (bspQspiInit_ensures (faults.reinit block) n kept.1) ?_
      rintro _ o rfl
      refine (bspQspiEraseBlock64K_ensures (faults.second block) (sound.2 block) address o).mono
        ?_ ?_
      · intro again p result
        exact ⟨kept.1.trans result.1, result.2⟩
      · intro p framed
        exact kept.1.trans framed

theorem qspiErasePass_ensures (faults : EraseFaults) (sound : faults.Sound) (start block : Nat)
    (m : Mem) :
    Op.Ensures (qspiErasePass faults start block) m
      (fun ok n => Framed m n (start + block * qspiBlock64KSize)
          (start + block * qspiBlock64KSize + qspiBlock64KSize) ∧
        (ok = true → Erased n (start + block * qspiBlock64KSize)
          (start + block * qspiBlock64KSize + qspiBlock64KSize)))
      (fun n => Framed m n (start + block * qspiBlock64KSize)
        (start + block * qspiBlock64KSize + qspiBlock64KSize)) := by
  refine Op.Ensures.bind _ (qspiEraseOrReset_ensures faults sound block _ m) ?_
  intro ok n kept
  cases ok with
  | false => exact kept
  | true =>
      simp only [↓reduceIte]
      split
      · refine Op.Ensures.bind _ (bspQspiInit_ensures (faults.periodic block) n kept.1) ?_
        rintro _ o rfl
        exact kept
      · exact kept

/-- A batch erase stopped in one of its blocks: those before it are erased, and nothing
after it or before the range has changed. -/
def EraseStopped (m n : Mem) (start blocks : Nat) : Prop :=
  ∃ block < blocks, Erased n start (start + block * qspiBlock64KSize) ∧
    Framed m n start (start + (block + 1) * qspiBlock64KSize)

theorem EraseStopped.frame {m n : Mem} {start blocks : Nat} (stopped : EraseStopped m n start blocks) :
    Framed m n start (start + blocks * qspiBlock64KSize) := by
  obtain ⟨block, below, -, framed⟩ := stopped
  apply framed.widen (Nat.le_refl start)
  simp only [qspiBlock64KSize]
  omega

/-- The block loop erases one block after the other, and stops at the first that fails. -/
theorem qspiEraseBlocks_stops (faults : EraseFaults) (sound : faults.Sound) (start blocks : Nat)
    (m : Mem) :
    Op.Ensures (qspiEraseBlocks faults start (blocks * qspiBlock64KSize)) m
      (fun ok n => if ok then Framed m n start (start + blocks * qspiBlock64KSize) ∧
          Erased n start (start + blocks * qspiBlock64KSize)
        else EraseStopped m n start blocks)
      (fun n => EraseStopped m n start blocks) := by
  have count : (blocks * qspiBlock64KSize + qspiBlock64KSize - 1) / qspiBlock64KSize = blocks := by
    simp only [qspiBlock64KSize]
    omega
  unfold qspiEraseBlocks
  rw [count]
  have loop := Op.allFrom_ensures (qspiErasePass faults start)
    (fun k n => Framed m n start (start + k * qspiBlock64KSize) ∧
      Erased n start (start + k * qspiBlock64KSize))
    (fun n => EraseStopped m n start blocks) (fun n => EraseStopped m n start blocks) blocks 0 m
    ⟨Framed.refl m _ _, by intro i lower upper; omega⟩ (by
      rintro k n - below ⟨framed, blank⟩
      have next : start + (k + 1) * qspiBlock64KSize =
          start + k * qspiBlock64KSize + qspiBlock64KSize := by
        rw [Nat.succ_mul, Nat.add_assoc]
      -- Wherever the pass stops, it has only touched block `k`.
      have touched : ∀ o, Framed n o (start + k * qspiBlock64KSize)
          (start + k * qspiBlock64KSize + qspiBlock64KSize) →
          Erased o start (start + k * qspiBlock64KSize) ∧
            Framed m o start (start + (k + 1) * qspiBlock64KSize) := by
        intro o block
        constructor
        · intro i lower upper
          rw [block i (.inl upper)]
          exact blank i lower upper
        · rw [next]
          exact (framed.widen (Nat.le_refl start) (by omega)).trans (block.widen (by omega) (by omega))
      refine (qspiErasePass_ensures faults sound start k n).mono ?_ ?_
      · intro ok o result
        have kept := touched o result.1
        cases ok with
        | false => exact ⟨k, by omega, kept⟩
        | true =>
            refine ⟨kept.2, ?_⟩
            intro i lower upper
            by_cases earlier : i < start + k * qspiBlock64KSize
            · exact kept.1 i lower earlier
            · exact result.2 rfl i (by omega) (by omega)
      · intro o result
        exact ⟨k, by omega, touched o result⟩)
  rw [Nat.zero_add] at loop
  exact loop

/-- A batch erase touches only its range; if it reports success all of it is
erased. -/
theorem qspiEraseBlocks_ensures (faults : EraseFaults) (sound : faults.Sound) (start blocks : Nat)
    (m : Mem) :
    Op.Ensures (qspiEraseBlocks faults start (blocks * qspiBlock64KSize)) m
      (fun ok n => Framed m n start (start + blocks * qspiBlock64KSize) ∧
        (ok = true → Erased n start (start + blocks * qspiBlock64KSize)))
      (fun n => Framed m n start (start + blocks * qspiBlock64KSize)) := by
  refine (qspiEraseBlocks_stops faults sound start blocks m).mono ?_ fun _ stopped => stopped.frame
  intro ok n result
  cases ok with
  | false =>
      have stopped : EraseStopped m n start blocks := result
      exact ⟨stopped.frame, by simp⟩
  | true => exact ⟨result.1, fun _ => result.2⟩

/-- The array from `limit` on. -/
def above (limit : Nat) (m : Mem) : Mem := fun i => m (limit + i)

section Keeps

variable {limit : Nat}

/-- Whatever a command leaves in its target, it leaves the rest alone. -/
theorem keeps_command (fault : ChipFault) (address size : Nat) (want : Nat → Byte → Byte)
    (below : address + size ≤ limit) : Op.Keeps (above limit) (fault.command address size want) := by
  intro m
  unfold ChipFault.command
  rw [Status.report_snd]
  funext i
  exact store_outside m address size _ (limit + i) (by omega)

theorem keeps_bspQspiInit (status : Status) : Op.Keeps (above limit) (bspQspiInit status) := by
  intro m
  unfold bspQspiInit Status.check
  rw [Status.report_snd]

theorem keeps_bspQspiWriteFrom (faults : Nat → ChipFault) (data : Nat → Byte)
    (aligned : limit % qspiPageSize = 0) (passes : Nat) :
    ∀ pass address offset remaining, address + remaining ≤ limit →
    Op.Keeps (above limit) (bspQspiWriteFrom faults data passes pass address offset remaining) := by
  induction passes with
  | zero =>
      intro pass address offset remaining _
      exact Op.keeps_pure true
  | succ passes ih =>
      intro pass address offset remaining below
      rw [bspQspiWriteFrom]
      split
      · exact Op.keeps_pure true
      · rename_i nonempty
        have page : address - address % qspiPageSize + qspiPageSize ≤ limit := by
          simp only [qspiPageSize] at aligned ⊢
          omega
        apply (keeps_command _ _ _ _ page).bind
        intro ok
        apply Op.Keeps.ite _ (Op.keeps_pure false)
        apply ih
        split <;> omega

theorem keeps_bspQspiWrite (faults : Nat → ChipFault) (data : Nat → Byte) (address size : Nat)
    (aligned : limit % qspiPageSize = 0) (below : address + size ≤ limit) :
    Op.Keeps (above limit) (bspQspiWrite faults data address size) :=
  keeps_bspQspiWriteFrom faults data aligned size 0 address 0 size below

theorem keeps_bspQspiEraseBlock64K (faults : Nat → ChipFault) (address : Nat)
    (below : address + qspiBlock64KSize ≤ limit) :
    Op.Keeps (above limit) (bspQspiEraseBlock64K faults address) :=
  Op.keeps_anyFrom (fun k => keeps_command (faults k) address qspiBlock64KSize _ below) 3 0

theorem keeps_qspiEraseBlocks (faults : EraseFaults) (start blocks : Nat)
    (below : start + blocks * qspiBlock64KSize ≤ limit) :
    Op.Keeps (above limit) (qspiEraseBlocks faults start (blocks * qspiBlock64KSize)) := by
  have count : (blocks * qspiBlock64KSize + qspiBlock64KSize - 1) / qspiBlock64KSize = blocks := by
    simp only [qspiBlock64KSize]
    omega
  unfold qspiEraseBlocks
  rw [count]
  apply Op.keeps_allFrom_within
  intro block _ inside
  have target : start + block * qspiBlock64KSize + qspiBlock64KSize ≤ limit := by
    simp only [qspiBlock64KSize] at *
    omega
  have erase : Op.Keeps (above limit)
      (qspiEraseOrReset faults block (start + block * qspiBlock64KSize)) := by
    apply (keeps_bspQspiEraseBlock64K _ _ target).bind
    intro ok
    apply (Op.keeps_pure true).ite
    apply (keeps_bspQspiInit _).bind
    intro _
    exact keeps_bspQspiEraseBlock64K _ _ target
  apply erase.bind
  intro ok
  apply Op.Keeps.ite _ (Op.keeps_pure false)
  apply Op.Keeps.ite _ (Op.keeps_pure true)
  exact (keeps_bspQspiInit _).bind fun _ => Op.keeps_pure true

end Keeps

end OtaBoot.Qspi
