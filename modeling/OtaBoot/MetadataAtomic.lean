import OtaBoot.MetadataMemory

set_option autoImplicit false

namespace OtaBoot

/-- Every byte of the record that was read is the new record's or an erased one,
and not all are the new record's. -/
structure Metadata.Mixture (record read : Metadata) : Prop where
  bytes : ∀ i < 64, read.image i = record.sealed.image i ∨ read.image i = 0xFF
  other : read ≠ record.sealed

/-- All or nothing: what `Metadata_Read` finds after a write over sector `m`. -/
structure WriteAtomic (record : Metadata) (m : Mem) (exit : Exit Bool) (after : Mem) : Prop where
  found : metadataRead after = metadataRead m ∨ metadataRead after = record.sealed ∨
    metadataRead after = Metadata.fresh
  success : exit = .done true → metadataRead after = record.sealed
  failure : exit = .done false → record.Mixture (metadataRead after) →
    metadataRead after = metadataRead m ∨ metadataRead after = Metadata.fresh

/-- A write that reports success has programmed both flash words. -/
theorem MetaFaults.stage_of_exit (faults : MetaFaults) (success : faults.exit = .done true) :
    faults.stage = .full := by
  have erased : Attempt.verdict faults.erase 10 0 = .done true := by
    unfold MetaFaults.exit at success
    split at success
    · assumption
    · exact success
  have first : Attempt.verdict (faults.program 0) 3 0 = .done true := by
    simp only [MetaFaults.exit, erased] at success
    split at success
    · assumption
    · exact success
  have second : Attempt.verdict (faults.program 1) 3 0 = .done true := by
    simpa only [MetaFaults.exit, erased, first] using success
  simp only [MetaFaults.stage, erased, first, Attempt.takes_of_verdict _ _ _ erased,
    Attempt.takes_of_verdict _ _ _ first, Attempt.takes_of_verdict _ _ _ second,
    Bool.true_eq_false, ne_eq, not_true_eq_false, ↓reduceIte]

/-- A write that reports success stores a record that carries the magic as it is. -/
theorem MetaFaults.metadataRead_of_exit {faults : MetaFaults} (success : faults.exit = .done true)
    {record : Metadata} (magic : record.magic = metadataMagic) (m : Mem) :
    metadataRead (faults.stage.memory record m) = record := by
  rw [faults.stage_of_exit success, metadataRead_full]
  unfold Metadata.sealed
  rw [← magic]

/-- The record of a half-written sector has erased words where the default has zeros. -/
theorem halfWritten_not_fresh (record : Metadata) : record.halfWritten ≠ Metadata.fresh := by
  intro same
  have words : (0xFFFFFFFF : Word) = 0 := congrArg Metadata.bakMinor same
  exact absurd words (by decide)

theorem memory_atomic (faults : MetaFaults) (record : Metadata) (m : Mem)
    (whole : faults.stage = .half → record.halfWritten = record.sealed ∨
      record.halfWritten = metadataRead m) :
    WriteAtomic record m faults.exit (faults.stage.memory record m) := by
  have found : metadataRead (faults.stage.memory record m) = metadataRead m ∨
      metadataRead (faults.stage.memory record m) = record.sealed ∨
      metadataRead (faults.stage.memory record m) = Metadata.fresh := by
    cases stage : faults.stage with
    | unchanged => exact .inl rfl
    | erased => exact .inr (.inr (metadataRead_erased m record))
    | half =>
        rw [metadataRead_half]
        rcases whole stage with new | old
        · exact .inr (.inl new)
        · exact .inl old
    | full => exact .inr (.inl (metadataRead_full m record))
  refine ⟨found, ?_, ?_⟩
  · intro success
    rw [faults.stage_of_exit success]
    exact metadataRead_full m record
  · intro _ mixture
    rcases found with old | new | empty
    · exact .inl old
    · exact absurd new mixture.other
    · exact .inr empty

/-- A sector with one new flash word can be neither of the three records, except
where the second flash word is erased anyway. -/
theorem half_whole {exit : Exit Bool} {record : Metadata} {m : Mem}
    (atomic : WriteAtomic record m exit (MetaStage.half.memory record m)) :
    record.halfWritten = record.sealed ∨ record.halfWritten = metadataRead m := by
  have found := atomic.found
  rw [metadataRead_half] at found
  rcases found with old | new | empty
  · exact .inr old
  · exact .inl new
  · exact absurd empty (halfWritten_not_fresh record)

/-- `Metadata_Write` is all or nothing exactly if it does not stop between its two
flash words, or the record it leaves then is the new or the old one all the same. -/
theorem metadataWrite_atomic_iff (faults : MetaFaults) (record : Metadata) (m : Mem) :
    WriteAtomic record m (metadataWrite faults record m).1 (metadataWrite faults record m).2 ↔
      (faults.stage = .half → record.halfWritten = record.sealed ∨
        record.halfWritten = metadataRead m) := by
  rw [metadataWrite_run]
  constructor
  · intro atomic stage
    simp only [stage] at atomic
    exact half_whole atomic
  · exact memory_atomic faults record m

/-- The second flash word cannot be programmed. -/
def MetaFaults.secondWordFails : MetaFaults where
  erase := fun _ => .ok
  program := fun i _ => if i = 0 then .ok else .failed false

/-- The first boot of an update rewrites its record and only the first flash word
is stored: -1 is returned, and the size and CRC of the backup read as erased. -/
theorem metadataWrite_half_mixture :
    let record : Metadata := { Metadata.fresh with state := stateTesting, bakFwSize := 1 }
    let run := metadataWrite .secondWordFails record (fun _ => 0xFF)
    run.1 = .done false ∧ (metadataRead run.2).bakFwSize = 0xFFFFFFFF ∧
      record.Mixture (metadataRead run.2) ∧ ¬ WriteAtomic record (fun _ => 0xFF) run.1 run.2 := by
  intro record run
  have stage : MetaFaults.secondWordFails.stage = .half := by decide
  have run_eq : run = (MetaFaults.secondWordFails.exit,
      MetaStage.half.memory record (fun _ => 0xFF)) := by
    show metadataWrite _ _ _ = _
    rw [metadataWrite_run, stage]
  have read : metadataRead run.2 = record.halfWritten := by
    rw [run_eq]
    exact metadataRead_half _ record
  have differs : record.halfWritten ≠ record.sealed := by decide
  refine ⟨?_, ?_, ⟨?_, ?_⟩, ?_⟩
  · rw [run_eq]
    decide
  · rw [read]
    rfl
  · rw [read]
    intro i below
    have cells : ∀ j : Fin 64, record.halfWritten.image j = record.sealed.image j ∨
        record.halfWritten.image j = 0xFF := by decide
    exact cells ⟨i, below⟩
  · rw [read]
    exact differs
  · rw [run_eq]
    intro atomic
    have old : metadataRead (fun _ => 0xFF) ≠ record.halfWritten := by decide
    rcases half_whole atomic with new | same
    · exact differs new
    · exact old same.symm

end OtaBoot
