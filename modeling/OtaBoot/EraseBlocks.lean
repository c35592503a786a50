import OtaBoot.QspiCommands
import OtaBoot.QspiCompletion

set_option autoImplicit false

/- `BSP_QSPI_Erase_Block64K` and `QSPI_Erase_Blocks` of `bsp_qspi_flash.c` with their 32-bit
addresses and counter and with the loop as it is written. -/
namespace OtaBoot.FlashC

open Mem Qspi

/-- A block erase command: the chip erases the block that holds the address. -/
def blockErase (fault : ChipFault) (address : Word) : Op Mem Bool :=
  fault.command (address.toNat - address.toNat % qspiBlock64KSize) qspiBlock64KSize fun _ _ => 0xFF

def bspQspiEraseBlock64K (faults : Nat → ChipFault) (address : Word) : Op Mem Bool :=
  Op.anyFrom (fun attempt => blockErase (faults attempt) address) 3 0

/-- The body of the loop; `false` if the function returns 1 there. -/
def erasePass (faults : EraseFaults) (addr cnt : Word) : Op Mem Bool := do
  let erased ← (do
    if ← bspQspiEraseBlock64K (faults.first cnt.toNat) addr then pure true
    else
      let _ ← bspQspiInit (faults.reinit cnt.toNat)
      bspQspiEraseBlock64K (faults.second cnt.toNat) addr)
  if erased then
    if (cnt + 1) % 8 = 0 then
      let _ ← bspQspiInit (faults.periodic cnt.toNat)
      pure true
    else pure true
  else pure false

/-- The `for` loop; `none` if it is not over after so many passes. -/
def eraseFrom (faults : EraseFaults) (start size : Word) : Nat → Word → Word → Op Mem (Option Bool)
  | 0, addr, _ => pure (if addr < start + size then none else some true)
  | passes + 1, addr, cnt =>
    if addr < start + size then do
      if ← erasePass faults addr cnt then
        eraseFrom faults start size passes (addr + 65536) (cnt + 1)
      else pure (some false)
    else pure (some true)

/-- `true` stands for the return value 0. -/
def qspiEraseBlocks (faults : EraseFaults) (passes : Nat) (start size : Word) :
    Op Mem (Option Bool) :=
  eraseFrom faults start size passes start 0

theorem blockErase_eq (fault : ChipFault) {address : Word}
    (aligned : address.toNat % qspiBlock64KSize = 0) :
    blockErase fault address = fault.command address.toNat qspiBlock64KSize fun _ _ => 0xFF := by
  unfold blockErase
  rw [aligned, Nat.sub_zero]

theorem bspQspiEraseBlock64K_eq (faults : Nat → ChipFault) {address : Word}
    (aligned : address.toNat % qspiBlock64KSize = 0) :
    bspQspiEraseBlock64K faults address = Qspi.bspQspiEraseBlock64K faults address.toNat := by
  unfold bspQspiEraseBlock64K Qspi.bspQspiEraseBlock64K
  congr 1
  funext attempt
  exact blockErase_eq (faults attempt) aligned

/-- Where the loop is: `addr` and `cnt` have not wrapped before this block of the range. -/
structure AtBlock (start addr cnt : Word) (block : Nat) : Prop where
  address : addr.toNat = start.toNat + block * qspiBlock64KSize
  counted : cnt.toNat = block

theorem atBlock_first (start : Word) : AtBlock start start 0 0 := by
  refine ⟨?_, BitVec.toNat_zero⟩
  rw [Nat.zero_mul, Nat.add_zero]

theorem AtBlock.aligned {start addr cnt : Word} {block : Nat} (place : AtBlock start addr cnt block)
    (aligned : start.toNat % qspiBlock64KSize = 0) : addr.toNat % qspiBlock64KSize = 0 := by
  rw [place.address, Nat.add_mul_mod_self_right]
  exact aligned

theorem AtBlock.next {start addr cnt : Word} {block : Nat} (place : AtBlock start addr cnt block)
    (room : addr.toNat + qspiBlock64KSize ≤ qspiFlashSize) :
    AtBlock start (addr + 65536) (cnt + 1) (block + 1) := by
  have address := place.address
  have counted := place.counted
  simp only [qspiBlock64KSize, qspiFlashSize] at address room
  have further : (addr + 65536).toNat = addr.toNat + 65536 :=
    BitVec.toNat_add_of_lt (show addr.toNat + 65536 < 4294967296 by omega)
  have counts : (cnt + 1).toNat = cnt.toNat + 1 :=
    BitVec.toNat_add_of_lt (show cnt.toNat + 1 < 4294967296 by omega)
  constructor
  · simp only [qspiBlock64KSize]
    omega
  · omega

/-- One pass of the loop. -/
theorem erasePass_eq (faults : EraseFaults) {start addr cnt : Word} {block : Nat}
    (aligned : start.toNat % qspiBlock64KSize = 0) (place : AtBlock start addr cnt block)
    (further : (cnt + 1).toNat = block + 1) :
    erasePass faults addr cnt = qspiErasePass faults start.toNat block := by
  have eighth : (cnt + 1) % 8 = 0 ↔ (block + 1) % 8 = 0 := by
    have number : ((cnt + 1) % 8).toNat = (block + 1) % 8 := by
      rw [BitVec.toNat_umod, further]
      rfl
    rw [← number, ← BitVec.toNat_inj]
    rfl
  have inBlock := place.aligned aligned
  unfold erasePass qspiErasePass qspiEraseOrReset
  rw [bspQspiEraseBlock64K_eq _ inBlock, bspQspiEraseBlock64K_eq _ inBlock, place.counted,
    place.address]
  congr 1
  funext erased
  cases erased with
  | false => rfl
  | true =>
      simp only [↓reduceIte]
      by_cases periodic : (block + 1) % 8 = 0
      · rw [if_pos (eighth.mpr periodic), if_pos periodic]
      · rw [if_neg (fun is => periodic (eighth.mp is)), if_neg periodic]

theorem eraseFrom_past (faults : EraseFaults) {start size addr : Word}
    (past : ¬ addr < start + size) (passes : Nat) (cnt : Word) :
    eraseFrom faults start size passes addr cnt = pure (some true) := by
  cases passes with
  | zero =>
      unfold eraseFrom
      rw [if_neg past]
  | succ passes =>
      unfold eraseFrom
      rw [if_neg past]

/-- Inside the array the address does not wrap: the loop goes through its blocks. -/
theorem eraseFrom_eq (faults : EraseFaults) {start size : Word}
    (aligned : start.toNat % qspiBlock64KSize = 0)
    (room : start.toNat + size.toNat ≤ qspiFlashSize) (left : Nat) :
    ∀ passes block (addr cnt : Word), left ≤ passes → AtBlock start addr cnt block →
    size.toNat = (block + left) * qspiBlock64KSize →
    eraseFrom faults start size passes addr cnt =
      (Op.allFrom (qspiErasePass faults start.toNat) left block >>= fun ok => pure (some ok)) := by
  have limit : (start + size).toNat = start.toNat + size.toNat := by
    apply BitVec.toNat_add_of_lt
    exact Nat.lt_of_le_of_lt room (by decide)
  induction left with
  | zero =>
      intro passes block addr cnt _ place total
      have past : ¬ addr < start + size := by
        rw [BitVec.lt_def, limit, place.address, total, Nat.add_zero]
        omega
      rw [eraseFrom_past faults past]
      rfl
  | succ left ih =>
      intro passes block addr cnt enough place total
      obtain ⟨more, rfl⟩ : ∃ more, passes = more + 1 := ⟨passes - 1, by omega⟩
      have blockRoom : addr.toNat + qspiBlock64KSize ≤ start.toNat + size.toNat := by
        rw [place.address, total]
        simp only [qspiBlock64KSize]
        omega
      have inside : addr < start + size := by
        rw [BitVec.lt_def, limit]
        simp only [qspiBlock64KSize] at blockRoom
        omega
      have next := place.next (Nat.le_trans blockRoom room)
      have remains : size.toNat = (block + 1 + left) * qspiBlock64KSize := by
        rw [total, Nat.add_right_comm, Nat.add_assoc]
      have rest := ih more (block + 1) (addr + 65536) (cnt + 1) (by omega) next remains
      rw [eraseFrom, Op.allFrom, if_pos inside, erasePass_eq faults aligned place next.counted, rest,
        Op.bind_assoc]
      apply bind_congr
      intro erased
      cases erased with
      | false => rfl
      | true => rfl

/-- As many passes as blocks are enough. -/
theorem qspiEraseBlocks_eq (faults : EraseFaults) {start size : Word} {blocks passes : Nat}
    (aligned : start.toNat % qspiBlock64KSize = 0)
    (whole : size.toNat = blocks * qspiBlock64KSize)
    (room : start.toNat + size.toNat ≤ qspiFlashSize) (enough : blocks ≤ passes) :
    qspiEraseBlocks faults passes start size =
      (Qspi.qspiEraseBlocks faults start.toNat size.toNat >>= fun ok => pure (some ok)) := by
  have count : (size.toNat + qspiBlock64KSize - 1) / qspiBlock64KSize = blocks := by
    rw [whole]
    simp only [qspiBlock64KSize]
    omega
  have same : Qspi.qspiEraseBlocks faults start.toNat size.toNat =
      Op.allFrom (qspiErasePass faults start.toNat) blocks 0 := by
    unfold Qspi.qspiEraseBlocks
    rw [count]
  have literal := eraseFrom_eq faults aligned room blocks passes 0 start 0 enough
    (atBlock_first start) (by rw [whole, Nat.zero_add])
  rw [same]
  exact literal

theorem wrapped_run (c : Op Mem Bool) (m : Mem) :
    (c >>= fun ok => pure (some ok)) m =
      (match (c m).1 with
        | .done ok => .done (some ok)
        | .cut => .cut, (c m).2) := by
  generalize run : c m = result
  obtain ⟨exit, n⟩ := result
  cases exit with
  | done ok => exact Op.bind_run_done _ _ _ _ _ run
  | cut => exact Op.bind_run_cut _ _ _ _ run

/-- A batch erase ends, unless power is lost; it erases its range or stops in one of its
blocks, with those before it erased and those after it as they were; and it touches
nothing outside the range. -/
theorem qspiEraseBlocks_exact (faults : EraseFaults) (sound : faults.Sound) (start size : Word)
    (aligned : start.toNat % qspiBlock64KSize = 0) (whole : size.toNat % qspiBlock64KSize = 0)
    (room : start.toNat + size.toNat ≤ qspiFlashSize) (passes : Nat)
    (enough : size.toNat / qspiBlock64KSize ≤ passes) (m : Mem) :
    let run := qspiEraseBlocks faults passes start size m
    (faults.Powered → run.1 = .done (some true) ∨ run.1 = .done (some false)) ∧
      (run.1 = .done (some true) → Erased run.2 start.toNat (start.toNat + size.toNat)) ∧
      (run.1 = .done (some false) → ∃ block < size.toNat / qspiBlock64KSize,
        Erased run.2 start.toNat (start.toNat + block * qspiBlock64KSize) ∧
        ∀ i, start.toNat + (block + 1) * qspiBlock64KSize ≤ i → run.2 i = m i) ∧
      Framed m run.2 start.toNat (start.toNat + size.toNat) := by
  intro run
  generalize counted : size.toNat / qspiBlock64KSize = blocks at enough ⊢
  have total : size.toNat = blocks * qspiBlock64KSize := by
    rw [← counted, Nat.div_mul_cancel (Nat.dvd_of_mod_eq_zero whole)]
  have spec := qspiEraseBlocks_stops faults sound start.toNat blocks m
  have returns := fun powered : faults.Powered =>
    returns_qspiEraseBlocks powered start.toNat size.toNat m
  have literal : run = (Qspi.qspiEraseBlocks faults start.toNat size.toNat >>= fun ok =>
      pure (some ok)) m := congrFun (qspiEraseBlocks_eq faults aligned total room enough) m
  rw [wrapped_run] at literal
  rw [← total] at spec
  clear_value run
  subst literal
  generalize ran : Qspi.qspiEraseBlocks faults start.toNat size.toNat m = result at returns ⊢
  obtain ⟨exit, n⟩ := result
  cases exit with
  | cut =>
      have stopped := Op.ensures_of_cut spec ran
      have frame := stopped.frame
      rw [← total] at frame
      exact ⟨fun powered => absurd rfl (returns powered), nofun, nofun, frame⟩
  | done ok =>
      have result := Op.ensures_of_run spec ran
      cases ok with
      | true =>
          rw [if_pos rfl] at result
          exact ⟨fun _ => .inl rfl, fun _ => result.2, nofun, result.1⟩
      | false =>
          have stopped : EraseStopped m n start.toNat blocks := result
          have frame := stopped.frame
          rw [← total] at frame
          refine ⟨fun _ => .inr rfl, nofun, ?_, frame⟩
          intro _
          obtain ⟨block, below, erased, framed⟩ := stopped
          exact ⟨block, below, erased, fun i after => framed i (.inr after)⟩

/-- The second block cannot be erased; every try leaves other bytes in it. -/
def stuckBlock : EraseFaults where
  first := fun block _ => if block = 1 then ⟨.error, fun offset _ _ => BitVec.ofNat 8 offset⟩ else .clean
  reinit := fun _ => .error
  second := fun block _ => if block = 1 then ⟨.error, fun _ _ _ => 0x5A⟩ else .clean
  periodic := fun _ => .ok

theorem stuckBlock_sound : stuckBlock.Sound := by
  have sound : ∀ (block : Nat) (fault : ChipFault), fault.status = .error →
      (if block = 1 then fault else .clean).Sound := by
    intro block fault failed
    split
    · intro ok
      exact absurd (failed.symm.trans ok) (by decide)
    · exact ChipFault.clean_sound
  exact ⟨fun block _ => sound block _ rfl, fun block _ => sound block _ rfl⟩

theorem qspiEraseBlocks_exact_stuckBlock :
    (qspiEraseBlocks stuckBlock 3 0x200000 0x30000 fun _ => 0x11).1 = .done (some false) ∧
      ∃ block < 3, Erased (qspiEraseBlocks stuckBlock 3 0x200000 0x30000 fun _ => 0x11).2 0x200000
        (0x200000 + block * qspiBlock64KSize) ∧
      ∀ i, 0x200000 + (block + 1) * qspiBlock64KSize ≤ i →
        (qspiEraseBlocks stuckBlock 3 0x200000 0x30000 fun _ => 0x11).2 i = 0x11 := by
  have stops : (qspiEraseBlocks stuckBlock 3 0x200000 0x30000 fun _ => 0x11).1 =
      .done (some false) := by rfl
  have exact := qspiEraseBlocks_exact stuckBlock stuckBlock_sound 0x200000 0x30000 (by decide)
    (by decide) (by decide) 3 (by decide) fun _ => 0x11
  exact ⟨stops, exact.2.2.1 stops⟩

end OtaBoot.FlashC
