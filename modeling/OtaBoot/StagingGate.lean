import OtaBoot.OtaPoll
import OtaBoot.UpdateRun

set_option autoImplicit false

namespace OtaBoot

open Mem

theorem readbackCrc_eq (data : List Byte) : readbackCrc data = crc32Calculate data :=
  (crc32Calculate_eq data).symm

/-- No command of the poll loses power. -/
structure PollFaults.Powered (faults : PollFaults) : Prop where
  erase : faults.erase.Powered
  init : faults.init ≠ .cut
  write : ∀ page, (faults.write page).status ≠ .cut
  reinit : faults.reinit ≠ .cut
  rewrite : ∀ page, (faults.rewrite page).status ≠ .cut
  read : ∀ pass, faults.read pass ≠ .cut

theorem returns_readbackFrom {reads : Nat → Status} (powered : ∀ pass, reads pass ≠ .cut)
    (size passes : Nat) : ∀ pass crc, Op.Returns (readbackFrom reads size passes pass crc) := by
  induction passes with
  | zero =>
      intro pass crc
      exact Op.returns_pure _
  | succ passes ih =>
      intro pass crc
      unfold readbackFrom
      apply Op.Returns.ite _ (Op.returns_pure _)
      apply (Qspi.returns_bspQspiRead (powered pass) _ _).bind
      intro data
      cases data with
      | none => exact Op.returns_pure none
      | some found => exact ih _ _

theorem returns_stageImage {faults : PollFaults} (powered : faults.Powered) (o : Ota) :
    Op.Returns (stageImage faults o) := by
  have write : Op.Returns (stagingWrite faults o) := by
    apply (Qspi.returns_bspQspiWriteFrom powered.write _ _ _ _ _ _).bind
    intro ok
    apply (Op.returns_pure true).ite
    apply (Qspi.returns_bspQspiInit powered.reinit).bind
    intro _
    exact Qspi.returns_bspQspiWriteFrom powered.rewrite _ _ _ _ _ _
  apply (Qspi.returns_qspiEraseBlocks powered.erase _ _).bind
  intro _
  apply (Qspi.returns_bspQspiInit powered.init).bind
  intro ready
  apply Op.Returns.ite _ (Op.returns_pure _)
  apply write.bind
  intro written
  apply Op.Returns.ite _ (Op.returns_pure _)
  apply (returns_readbackFrom powered.read _ _ _ _).bind
  intro result
  cases result with
  | none => exact Op.returns_pure _
  | some crc => exact Op.returns_pure _

theorem keeps_readbackFrom {γ : Type} {f : Mem → γ} (reads : Nat → Status) (size passes : Nat) :
    ∀ pass crc, Op.Keeps f (readbackFrom reads size passes pass crc) := by
  induction passes with
  | zero =>
      intro pass crc
      exact Op.keeps_pure _
  | succ passes ih =>
      intro pass crc
      have read : Op.Keeps f (Qspi.bspQspiRead (reads pass) (pass * 64)
          (if size - pass * 64 < 64 then size - pass * 64 else 64)) := by
        intro m
        unfold Qspi.bspQspiRead
        cases reads pass <;> rfl
      unfold readbackFrom
      apply Op.Keeps.ite _ (Op.keeps_pure _)
      apply read.bind
      intro data
      cases data with
      | none => exact Op.keeps_pure none
      | some found => exact ih _ _

/-- Whatever the chip does, staging leaves the array from the backup area on alone. -/
theorem keeps_stageImage (faults : PollFaults) (o : Ota) (fits : o.received ≤ otaBufSize) :
    Op.Keeps (Qspi.above backupOffset) (stageImage faults o) := by
  have size : 32 * Qspi.qspiBlock64KSize = 2 * 1024 * 1024 := by decide
  have erase : Op.Keeps (Qspi.above backupOffset)
      (Qspi.qspiEraseBlocks faults.erase 0 (32 * Qspi.qspiBlock64KSize)) :=
    Qspi.keeps_qspiEraseBlocks faults.erase 0 32 (by decide)
  rw [size] at erase
  have inside : 0 + o.received ≤ backupOffset := by
    simp only [otaBufSize, backupOffset] at *
    omega
  have write : Op.Keeps (Qspi.above backupOffset) (stagingWrite faults o) := by
    apply (Qspi.keeps_bspQspiWrite _ _ _ _ (by decide) inside).bind
    intro ok
    apply (Op.keeps_pure true).ite
    apply (Qspi.keeps_bspQspiInit _).bind
    intro _
    exact Qspi.keeps_bspQspiWrite _ _ _ _ (by decide) inside
  apply erase.bind
  intro _
  apply (Qspi.keeps_bspQspiInit _).bind
  intro ready
  apply Op.Keeps.ite _ (Op.keeps_pure _)
  apply write.bind
  intro written
  apply Op.Keeps.ite _ (Op.keeps_pure _)
  apply (keeps_readbackFrom _ _ _ _ _).bind
  intro result
  cases result with
  | none => exact Op.keeps_pure _
  | some crc => exact Op.keeps_pure _

/-- Reads that work give a CRC. -/
theorem readbackFrom_reads {reads : Nat → Status} (works : ∀ pass, reads pass = .ok)
    (size passes : Nat) (m : Mem) : ∀ pass crc,
    Op.Ensures (readbackFrom reads size passes pass crc) m (fun result _ => result ≠ none)
      (fun _ => False) := by
  induction passes with
  | zero =>
      intro pass crc
      exact (Op.ensures_pure _ _ _ _).mpr (by simp)
  | succ passes ih =>
      intro pass crc
      unfold readbackFrom
      split
      · unfold Qspi.bspQspiRead
        rw [works pass]
        exact ih (pass + 1) _
      · exact (Op.ensures_pure _ _ _ _).mpr (by simp)

/-- Every command of the poll works. -/
structure PollFaults.Faultless (faults : PollFaults) : Prop where
  first : ∀ block k, (faults.erase.first block k).Works
  second : ∀ block k, (faults.erase.second block k).Works
  periodic : ∀ block, faults.erase.periodic block = .ok
  init : faults.init = .ok
  write : ∀ page, (faults.write page).Works
  read : ∀ pass, faults.read pass = .ok

theorem PollFaults.clean_faultless : PollFaults.clean.Faultless :=
  ⟨fun _ _ => ChipFault.clean_works, fun _ _ => ChipFault.clean_works, fun _ => rfl, rfl,
    fun _ => ChipFault.clean_works, fun _ => rfl⟩

/-- The staging area is erased. -/
theorem stagingErase_faultless {faults : PollFaults} (works : faults.Faultless) (m : Mem) :
    Op.Ensures (Qspi.qspiEraseBlocks faults.erase 0 (2 * 1024 * 1024)) m
      (fun _ n => Erased n 0 (2 * 1024 * 1024)) (fun _ => False) := by
  have size : 32 * Qspi.qspiBlock64KSize = 2 * 1024 * 1024 := by decide
  have sound : faults.erase.Sound :=
    ⟨fun block k => (works.first block k).sound, fun block k => (works.second block k).sound⟩
  have completes : faults.erase.Completes 32 := by
    intro block _
    refine ⟨.inl ?_, ?_⟩
    · simp only [Qspi.EraseFaults.tries, Exit.any, (works.first block 0).status, Status.exit]
    · intro _
      rw [works.periodic]
      simp
  have spec := Qspi.qspiEraseBlocks_ensures faults.erase sound 0 32 m
  have succeeds := Qspi.qspiEraseBlocks_succeeds faults.erase 0 32
  rw [size] at spec succeeds
  refine (spec.of_success succeeds completes).mono ?_ fun _ lost => lost
  rintro ok n ⟨-, result⟩
  rw [Nat.zero_add] at result
  exact result.2 rfl

/-- A successful write leaves the image in the erased staging area. -/
theorem stagingWrite_faultless {faults : PollFaults} (works : faults.Faultless) (o : Ota) (m : Mem)
    (fits : o.received ≤ otaBufSize) (blank : Erased m 0 (2 * 1024 * 1024)) :
    Op.Ensures (stagingWrite faults o) m
      (fun ok n => ok = true ∧ ∀ i < o.received, n i = o.buf i) (fun _ => False) := by
  have spec := Qspi.bspQspiWrite_ensures faults.write (fun page => (works.write page).sound)
    (fun page => (works.write page).bitwise) o.buf 0 o.received m
  have succeeds := Qspi.bspQspiWrite_succeeds faults.write o.buf 0 o.received
  refine Op.Ensures.bind _ (spec.of_success succeeds fun page _ => (works.write page).status) ?_
  rintro ok n ⟨rfl, written⟩
  refine (Op.ensures_pure _ _ _ _).mpr ⟨rfl, ?_⟩
  intro i inside
  simp only [↓reduceIte] at written
  have erased : m i = 0xFF := by
    apply blank i (Nat.zero_le _)
    simp only [otaBufSize] at fits
    omega
  rw [written]
  exact program_blank m 0 o.received o.buf i (Nat.zero_le _) (by omega) erased

/-- Without faults the image is staged and the read-back CRC is that of the buffer. -/
theorem stageImage_faultless {faults : PollFaults} (works : faults.Faultless) (o : Ota) (m : Mem)
    (fits : o.received ≤ otaBufSize) :
    Op.Ensures (stageImage faults o) m
      (fun state n => state = (if crc32Calculate (o.buf.bytes 0 o.received) = o.crcExpected then
          .confirm else .error) ∧ ∀ i < o.received, n i = o.buf i)
      (fun _ => False) := by
  refine Op.Ensures.bind _ (stagingErase_faultless works m) ?_
  intro _ erased blank
  have ready : Op.Ensures (Qspi.bspQspiInit faults.init) erased
      (fun ok n => ok = true ∧ n = erased) (fun _ => False) := by
    rw [works.init]
    exact ⟨rfl, rfl⟩
  refine Op.Ensures.bind _ ready ?_
  rintro _ started ⟨rfl, rfl⟩
  refine Op.Ensures.bind _ (stagingWrite_faultless works o started fits blank) ?_
  rintro _ staged ⟨rfl, image⟩
  have enough : o.received ≤ (0 + (o.received + 1)) * 64 := by omega
  have content : staged.bytes 0 o.received = o.buf.bytes 0 o.received := by
    apply bytes_congr
    intro i inside
    rw [Nat.zero_add]
    exact image i inside
  have read := readbackFrom_reads works.read o.received (o.received + 1) staged 0 0xFFFFFFFF
  have folded := readbackFrom_ensures faults.read o.received (o.received + 1) staged 0 0xFFFFFFFF
    enough
  generalize run : readbackFrom faults.read o.received (o.received + 1) 0 0xFFFFFFFF staged =
    outcome
  obtain ⟨exit, n⟩ := outcome
  cases exit with
  | cut => exact absurd (Op.ensures_of_cut read run) id
  | done result =>
      obtain ⟨rfl, value⟩ := Op.ensures_of_run folded run
      cases result with
      | none => exact absurd rfl (Op.ensures_of_run read run)
      | some crc =>
          have fold := value crc rfl
          rw [Nat.zero_mul, Nat.sub_zero, content] at fold
          unfold Op.Ensures
          simp only [↓reduceIte]
          rw [Op.bind_run_done _ _ _ _ _ run]
          refine ⟨?_, image⟩
          rw [crc32Calculate_eq, fold]

theorem otaPoll_verify (faults : PollFaults) (o : Ota) (verify : o.state = .verify) :
    otaPoll faults o =
      if crc32Calculate (o.buf.bytes 0 o.received) = o.crcExpected then stageImage faults o
      else pure .error := by
  unfold otaPoll
  rw [if_neg (not_not.mpr verify)]
  by_cases same : crc32Calculate (o.buf.bytes 0 o.received) = o.crcExpected
  · rw [if_neg (not_not.mpr same), if_pos same]
  · rw [if_pos same, if_neg same]

theorem otaPoll_verdict {faults : PollFaults} (powered : faults.Powered) (o : Ota)
    (verify : o.state = .verify) (nor : Mem) :
    (otaPoll faults o nor).1 = .done .confirm ∧
        crc32Calculate (o.buf.bytes 0 o.received) = o.crcExpected ∧
        crc32Calculate ((otaPoll faults o nor).2.bytes 0 o.received) = o.crcExpected ∨
      (otaPoll faults o nor).1 = .done .error := by
  have returns : Op.Returns (otaPoll faults o) := by
    rw [otaPoll_verify faults o verify]
    exact (returns_stageImage powered o).ite (Op.returns_pure _)
  have returned := returns nor
  generalize run : otaPoll faults o nor = result at returned
  obtain ⟨exit, after⟩ := result
  cases exit with
  | cut => exact absurd rfl returned
  | done state =>
      rcases otaPoll_cases faults o nor after state run with ⟨other, -⟩ | ⟨-, outcome⟩
      · exact absurd verify other
      · rcases outcome with rfl | ⟨rfl, verified⟩
        · exact .inr rfl
        · have readback := verified.readback
          rw [readbackCrc_eq] at readback
          exact .inl ⟨rfl, verified.sram, readback⟩

theorem otaPoll_faultless {faults : PollFaults} (works : faults.Faultless) (o : Ota)
    (verify : o.state = .verify) (fits : o.received ≤ otaBufSize) (nor : Mem) :
    (otaPoll faults o nor).1 =
        .done (if crc32Calculate (o.buf.bytes 0 o.received) = o.crcExpected then .confirm
          else .error) ∧
      (crc32Calculate (o.buf.bytes 0 o.received) = o.crcExpected →
        ∀ i < o.received, (otaPoll faults o nor).2 i = o.buf i) := by
  have staged := stageImage_faultless works o nor fits
  rw [otaPoll_verify faults o verify]
  by_cases same : crc32Calculate (o.buf.bytes 0 o.received) = o.crcExpected
  · rw [if_pos same]
    rw [if_pos same] at staged ⊢
    generalize run : stageImage faults o nor = result
    obtain ⟨exit, after⟩ := result
    cases exit with
    | cut => exact absurd (Op.ensures_of_cut staged run) id
    | done state =>
        obtain ⟨rfl, image⟩ := Op.ensures_of_run staged run
        exact ⟨rfl, fun _ => image⟩
  · rw [if_neg same, if_neg same]
    exact ⟨rfl, fun equal => absurd equal same⟩

theorem keeps_otaPoll (faults : PollFaults) (o : Ota) (fits : o.received ≤ otaBufSize) :
    Op.Keeps (Qspi.above backupOffset) (otaPoll faults o) := by
  unfold otaPoll
  apply (Op.keeps_pure _).ite
  exact (Op.keeps_pure _).ite (keeps_stageImage faults o fits)

/-- One `OTA_Poll` from VERIFY: CONFIRM only with both CRCs right, otherwise ERROR;
without faults the buffer's CRC decides and the image is staged; the backup area, Bank 2
and the record are never touched. -/
theorem otaPoll_gate (faults : PollFaults) (o : Ota) (verify : o.state = .verify)
    (fits : o.received ≤ otaBufSize) (b : Board) :
    (faults.Powered →
      (onNor (otaPoll faults o) b).1 = .done .confirm ∧
          crc32Calculate (o.buf.bytes 0 o.received) = o.crcExpected ∧
          crc32Calculate ((onNor (otaPoll faults o) b).2.nor.bytes 0 o.received) = o.crcExpected ∨
        (onNor (otaPoll faults o) b).1 = .done .error) ∧
    (faults.Faultless →
      (onNor (otaPoll faults o) b).1 =
          .done (if crc32Calculate (o.buf.bytes 0 o.received) = o.crcExpected then .confirm
            else .error) ∧
        (crc32Calculate (o.buf.bytes 0 o.received) = o.crcExpected →
          ∀ i < o.received, (onNor (otaPoll faults o) b).2.nor i = o.buf i)) ∧
    (∀ i, backupOffset ≤ i → (onNor (otaPoll faults o) b).2.nor i = b.nor i) ∧
    (onNor (otaPoll faults o) b).2.bank2 = b.bank2 ∧
    (onNor (otaPoll faults o) b).2.sector1 = b.sector1 := by
  refine ⟨?_, ?_, ?_, keeps_onNor (fun _ _ => rfl) _ b, keeps_onNor (fun _ _ => rfl) _ b⟩
  · intro powered
    exact otaPoll_verdict powered o verify b.nor
  · intro works
    exact otaPoll_faultless works o verify fits b.nor
  · intro i backup
    have kept := congrFun (keeps_otaPoll faults o fits b.nor) (i - backupOffset)
    unfold Qspi.above at kept
    rw [show backupOffset + (i - backupOffset) = i by omega] at kept
    exact kept

/-- One byte has been received and waits for verification. -/
def receivedByte : Ota :=
  { Ota.initial (fun _ => 0x22) with state := .verify, received := 1, crcExpected := 0x0762AE69 }

theorem otaPoll_gate_receivedByte :
    (onNor (otaPoll .clean receivedByte) confirmedBoard).1 = .done .confirm ∧
      (onNor (otaPoll .clean receivedByte) confirmedBoard).2.nor 0 = 0x22 ∧
      (onNor (otaPoll .clean receivedByte) confirmedBoard).2.nor backupOffset = 0x22 := by
  have gate := otaPoll_gate .clean receivedByte rfl (by decide) confirmedBoard
  have crc : crc32Calculate (receivedByte.buf.bytes 0 receivedByte.received) =
      receivedByte.crcExpected := by decide +kernel
  have staged := gate.2.1 PollFaults.clean_faultless
  rw [if_pos crc] at staged
  exact ⟨staged.1, staged.2 crc 0 (by decide), gate.2.2.1 backupOffset (Nat.le_refl _)⟩

end OtaBoot
