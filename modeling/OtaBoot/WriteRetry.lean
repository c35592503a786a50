import OtaBoot.BackupMemory
import OtaBoot.Ota
import OtaBoot.QspiCommands

set_option autoImplicit false

namespace OtaBoot

open Mem

/-- The page programs of a write behave as the chip does: a reported success is real, and a
failed one may have cleared any of the bits it should clear, and no others. -/
def PhysicalWrite (faults : Nat → ChipFault) : Prop :=
  ∀ page, (faults page).Sound ∧ (faults page).Bitwise

/-- The array after attempts at the same write, wherever each of them stopped. -/
def afterAttempts (data : Nat → Byte) (address size : Nat) (attempts : List (Nat → ChipFault))
    (m : Mem) : Mem :=
  attempts.foldl (fun n faults => (Qspi.bspQspiWrite faults data address size n).2) m

/-- However an attempt ends, its write can still be completed. -/
theorem attempt_between {faults : Nat → ChipFault} (physical : PhysicalWrite faults)
    (data : Nat → Byte) (address size : Nat) (m : Mem) :
    Between m (Qspi.bspQspiWrite faults data address size m).2 address size data := by
  have spec := Qspi.bspQspiWrite_ensures faults (fun page => (physical page).1)
    (fun page => (physical page).2) data address size m
  have held : Op.Ensures (Qspi.bspQspiWrite faults data address size) m
      (fun _ n => Between m n address size data) fun n => Between m n address size data := by
    apply spec.mono
    · intro ok n result
      cases ok with
      | false => exact result
      | true =>
          have programmed : n = m.program address size data := result
          rw [programmed]
          exact program_between m address size data
    · intro n begun
      exact begun
  exact held.final

theorem afterAttempts_between (data : Nat → Byte) (address size : Nat)
    (attempts : List (Nat → ChipFault)) : ∀ m, (∀ faults ∈ attempts, PhysicalWrite faults) →
    Between m (afterAttempts data address size attempts m) address size data := by
  induction attempts with
  | nil =>
      intro m _
      exact Between.refl m address size data
  | cons faults rest ih =>
      intro m physical
      have first := attempt_between (physical faults List.mem_cons_self) data address size m
      exact first.trans (ih _ fun later found => physical later (List.mem_cons_of_mem _ found))

/-- The staging write and its retry. -/
theorem stagingWrite_ensures (faults : PollFaults) (write : PhysicalWrite faults.write)
    (rewrite : PhysicalWrite faults.rewrite) (o : Ota) (m : Mem) :
    Op.Ensures (stagingWrite faults o) m
      (fun ok n => ok = true → n = m.program 0 o.received o.buf) (fun _ => True) := by
  have first := Qspi.bspQspiWrite_ensures faults.write (fun page => (write page).1)
    (fun page => (write page).2) o.buf 0 o.received m
  refine Op.Ensures.bind _ (first.mono (fun _ _ result => result) fun _ _ => trivial) ?_
  intro ok n result
  cases ok with
  | true => exact fun _ => result
  | false =>
      have begun : Between m n 0 o.received o.buf := result
      refine Op.Ensures.bind _ (Qspi.bspQspiInit_ensures faults.reinit n trivial) ?_
      rintro _ reset rfl
      have second := Qspi.bspQspiWrite_ensures faults.rewrite (fun page => (rewrite page).1)
        (fun page => (rewrite page).2) o.buf 0 o.received reset
      refine second.mono ?_ fun _ _ => trivial
      rintro again t written rfl
      have programmed : t = reset.program 0 o.received o.buf := written
      rw [programmed, begun.program]

/-- The chunk loop of the backup, on an area that is erased. -/
theorem backupChunks_ensures (faults : BackupFaults) (physical : faults.Physical) (b : Board)
    (blank : Erased b.nor backupOffset (backupOffset + appSize)) :
    Op.Ensures (Op.allFrom (backupChunk faults) (appSize / 64) 0) b
      (fun ok t => ok = true → t = b.backedUp) (fun _ => True) := by
  have count : appSize / 64 * 64 = appSize := by decide
  have loop := backupLoop_ensures (backupChunk faults) 64 (appSize / 64) b
    fun k _ n => backupChunk_ensures faults physical b k n
  rw [count] at loop
  refine loop.mono ?_ fun _ _ => trivial
  rintro ok t result rfl
  have programmed : t = { b with nor := b.nor.program backupOffset appSize b.bank2 } := result
  rw [programmed]
  exact program_erased_backedUp b b ⟨rfl, Framed.refl _ _ _⟩ blank

/-- Attempts that stopped anywhere do not change what a later one that succeeds leaves; so
the retried writes of the poll and of the backup store exactly their data in erased
areas. -/
theorem write_retry_harmless :
    (∀ (data m : Mem) (address size : Nat) (attempts : List (Nat → ChipFault))
        (last once : Nat → ChipFault),
      (∀ faults ∈ attempts, PhysicalWrite faults) → PhysicalWrite last → PhysicalWrite once →
      (Qspi.bspQspiWrite last data address size
        (afterAttempts data address size attempts m)).1 = .done true →
      (Qspi.bspQspiWrite once data address size m).1 = .done true →
      (Qspi.bspQspiWrite last data address size (afterAttempts data address size attempts m)).2 =
        (Qspi.bspQspiWrite once data address size m).2) ∧
    (∀ (faults : PollFaults) (o : Ota) (m : Mem),
      PhysicalWrite faults.write → PhysicalWrite faults.rewrite → Erased m 0 o.received →
      (stagingWrite faults o m).1 = .done true →
      (stagingWrite faults o m).2 = m.store 0 o.received o.buf) ∧
    ∀ (faults : BackupFaults) (b : Board),
      (∀ chunk attempt, PhysicalWrite (faults.write chunk attempt)) →
      Erased b.nor backupOffset (backupOffset + appSize) →
      (Op.allFrom (backupChunk faults) (appSize / 64) 0 b).1 = .done true →
      (Op.allFrom (backupChunk faults) (appSize / 64) 0 b).2 =
        { b with nor := b.nor.store backupOffset appSize b.bank2 } := by
  refine ⟨?_, ?_, ?_⟩
  · intro data m address size attempts last once physical physicalLast physicalOnce succeeds first
    have begun := afterAttempts_between data address size attempts m physical
    rw [Qspi.bspQspiWrite_program (fun page => (physicalLast page).1) succeeds, begun.program,
      Qspi.bspQspiWrite_program (fun page => (physicalOnce page).1) first]
  · intro faults o m write rewrite blank succeeds
    have programmed := Op.ensures_of_run (stagingWrite_ensures faults write rewrite o m)
      (Prod.ext succeeds rfl) rfl
    have erased : Erased m 0 (0 + o.received) := by
      rw [Nat.zero_add]
      exact blank
    exact programmed.trans (erased.program o.buf)
  · intro faults b physical blank succeeds
    -- The chunk loop does not look at the faults of the erase before it.
    have chunks := backupChunks_ensures { faults with erase := .clean }
      ⟨⟨fun _ _ => ChipFault.clean_sound, fun _ _ => ChipFault.clean_sound⟩,
        fun chunk attempt page => (physical chunk attempt page).1,
        fun chunk attempt page => (physical chunk attempt page).2⟩ b blank
    exact Op.ensures_of_run chunks (Prod.ext succeeds rfl) rfl

/-- A page program that reports an error and has cleared only bits of the low halves. -/
def halfCleared : ChipFault := ⟨.error, fun _ old want => (old &&& 0xF0) ||| (want &&& ~~~0xF0)⟩

theorem halfCleared_physical : PhysicalWrite fun _ => halfCleared :=
  fun _ => ⟨fun ok => (by cases ok), fun _ _ _ => ⟨0xF0, rfl⟩⟩

theorem clean_physical : PhysicalWrite fun _ => .clean :=
  fun _ => ⟨ChipFault.clean_sound, ChipFault.clean_bitwise⟩

theorem write_retry_harmless_halfCleared :
    afterAttempts (fun _ => 0x5A) 250 10 [fun _ => halfCleared] (fun _ => 0xFF) 250 = 0xFA ∧
      (Qspi.bspQspiWrite (fun _ => .clean) (fun _ => 0x5A) 250 10
        (afterAttempts (fun _ => 0x5A) 250 10 [fun _ => halfCleared] fun _ => 0xFF)).2 =
      (Qspi.bspQspiWrite (fun _ => .clean) (fun _ => 0x5A) 250 10 fun _ => 0xFF).2 :=
  ⟨by decide, write_retry_harmless.1 (fun _ => 0x5A) (fun _ => 0xFF) 250 10 [fun _ => halfCleared]
    (fun _ => .clean) (fun _ => .clean)
    (fun faults found => List.mem_singleton.mp found ▸ halfCleared_physical) clean_physical
    clean_physical rfl rfl⟩

end OtaBoot
