import OtaBoot.Metadata
import Mathlib.Tactic.IntervalCases

set_option autoImplicit false

namespace OtaBoot

open Mem

/-- How far a `Metadata_Write` gets on the sector. -/
inductive MetaStage
  | unchanged
  | erased
  | half
  | full
  deriving DecidableEq

/-- The stage a write reaches, from its faults alone. -/
def MetaFaults.stage (faults : MetaFaults) : MetaStage :=
  if Attempt.takes faults.erase 10 0 = false then .unchanged
  else if Attempt.verdict faults.erase 10 0 ≠ .done true then .erased
  else if Attempt.takes (faults.program 0) 3 0 = false then .erased
  else if Attempt.verdict (faults.program 0) 3 0 ≠ .done true then .half
  else if Attempt.takes (faults.program 1) 3 0 = false then .half
  else .full

/-- How a write ends, from its faults alone. -/
def MetaFaults.exit (faults : MetaFaults) : Exit Bool :=
  match Attempt.verdict faults.erase 10 0 with
  | .done true =>
    match Attempt.verdict (faults.program 0) 3 0 with
    | .done true => Attempt.verdict (faults.program 1) 3 0
    | other => other
  | other => other

def MetaStage.memory (stage : MetaStage) (record : Metadata) (m : Mem) : Mem :=
  match stage with
  | .unchanged => m
  | .erased => m.erase 0 sectorSize
  | .half => (m.erase 0 sectorSize).program 0 flashWord record.sealed.image
  | .full => (m.erase 0 sectorSize).program 0 (2 * flashWord) record.sealed.image

/-- The record that a sector with only its first flash word programmed holds. -/
def Metadata.halfWritten (record : Metadata) : Metadata :=
  { record.sealed with
    bakMinor := 0xFFFFFFFF
    bakPatch := 0xFFFFFFFF
    bakCrc32 := 0xFFFFFFFF
    bakFwSize := 0xFFFFFFFF
    otaMajor := 0xFFFFFFFF
    otaMinor := 0xFFFFFFFF
    otaPatch := 0xFFFFFFFF
    reserved := 0xFFFFFFFF }

namespace Metadata

theorem ofBytes_congr {m n : Mem} (same : ∀ i < 64, m i = n i) : ofBytes m = ofBytes n := by
  have agree : ∀ a, a + 4 ≤ 64 → m.word a = n.word a :=
    fun a bound => word_congr fun i below => same (a + i) (by omega)
  simp only [ofBytes, agree _ (show 0 + 4 ≤ 64 by decide), agree 4 (by decide),
    agree 8 (by decide), agree 12 (by decide), agree 16 (by decide), agree 20 (by decide),
    agree 24 (by decide), agree 28 (by decide), agree 32 (by decide), agree 36 (by decide),
    agree 40 (by decide), agree 44 (by decide), agree 48 (by decide), agree 52 (by decide),
    agree 56 (by decide), agree 60 (by decide)]

/-- Reading back the laid-out bytes gives the record. -/
theorem ofBytes_image (record : Metadata) : ofBytes record.image = record := by
  have read : ∀ k, record.image.word (4 * k) = record.words k := wordsImage_word record.words
  cases record
  simp only [ofBytes, mk.injEq]
  exact ⟨read 0, read 1, read 2, read 3, read 4, read 5, read 6, read 7, read 8, read 9,
    read 10, read 11, read 12, read 13, read 14, read 15⟩

end Metadata

theorem metadataErase_run (faults : MetaFaults) (m : Mem) :
    metadataErase faults m = (Attempt.verdict faults.erase 10 0,
      if Attempt.takes faults.erase 10 0 then m.erase 0 sectorSize else m) :=
  Attempt.anyFrom_perform faults.erase (fun n : Mem => n.erase 0 sectorSize)
    (fun n => erase_idempotent n 0 sectorSize) 10 0 m

theorem metadataProgram_run (faults : MetaFaults) (record : Metadata) (i : Nat) (m : Mem) :
    metadataProgram faults record i m = (Attempt.verdict (faults.program i) 3 0,
      if Attempt.takes (faults.program i) 3 0 then
        m.program (i * flashWord) flashWord fun j => record.image (i * flashWord + j)
      else m) :=
  Attempt.anyFrom_perform (faults.program i) _
    (fun n => program_idempotent n (i * flashWord) flashWord _) 3 0 m

/-- After both programs the sector holds the image of the record. -/
theorem full_memory (record : Metadata) (m : Mem) (i : Nat) (below : i < 64) :
    MetaStage.full.memory record m i = record.sealed.image i := by
  have blank : (m.erase 0 sectorSize) i = 0xFF :=
    erase_inside m 0 sectorSize i (by omega) (by simp only [sectorSize]; omega)
  exact program_blank _ 0 (2 * flashWord) _ i (by omega) (by simp only [flashWord]; omega) blank

theorem metadataVerify_full (record : Metadata) (m : Mem) :
    metadataVerify record.sealed (MetaStage.full.memory record m) =
      (.done true, MetaStage.full.memory record m) := by
  have same : (MetaStage.full.memory record m).bytes 0 64 = record.sealed.image.bytes 0 64 := by
    apply bytes_congr
    intro i below
    rw [Nat.zero_add]
    exact full_memory record m i below
  simp only [metadataVerify, same, decide_true]

/-- A metadata write is determined by its faults: how it ends, and which of four
contents it leaves. -/
theorem metadataWrite_run (faults : MetaFaults) (record : Metadata) (m : Mem) :
    metadataWrite faults record m = (faults.exit, faults.stage.memory record m) := by
  have joined : ((m.erase 0 sectorSize).program 0 flashWord
      fun j => record.sealed.image j).program flashWord flashWord
      (fun j => record.sealed.image (flashWord + j)) =
      (m.erase 0 sectorSize).program 0 (2 * flashWord) record.sealed.image := by
    simpa only [Nat.zero_add, Nat.two_mul] using
      program_append (m.erase 0 sectorSize) 0 flashWord flashWord record.sealed.image
  have verified := metadataVerify_full record m
  simp only [MetaStage.memory] at verified
  unfold metadataWrite MetaFaults.exit MetaFaults.stage
  simp only [Op.bind_run, Op.allFrom, metadataErase_run]
  cases erasing : Attempt.verdict faults.erase 10 0 with
  | cut => cases Attempt.takes faults.erase 10 0 <;> simp [MetaStage.memory]
  | done erased =>
      cases erased with
      | false => cases Attempt.takes faults.erase 10 0 <;> simp [MetaStage.memory, Op.pure_run]
      | true =>
          simp only [Attempt.takes_of_verdict faults.erase 10 0 erasing, ↓reduceIte,
            Op.bind_run, metadataProgram_run]
          cases firstWord : Attempt.verdict (faults.program 0) 3 0 with
          | cut => cases Attempt.takes (faults.program 0) 3 0 <;> simp [MetaStage.memory]
          | done passed =>
              cases passed with
              | false =>
                  cases Attempt.takes (faults.program 0) 3 0 <;>
                    simp [MetaStage.memory, Op.pure_run]
              | true =>
                  simp only [Attempt.takes_of_verdict (faults.program 0) 3 0 firstWord, ↓reduceIte,
                    Op.bind_run, metadataProgram_run]
                  cases secondWord : Attempt.verdict (faults.program 1) 3 0 with
                  | cut =>
                      cases Attempt.takes (faults.program 1) 3 0 <;>
                        simp [MetaStage.memory, joined]
                  | done passed =>
                      cases passed with
                      | false =>
                          cases Attempt.takes (faults.program 1) 3 0 <;>
                            simp [MetaStage.memory, Op.pure_run, joined]
                      | true =>
                          simp [Attempt.takes_of_verdict (faults.program 1) 3 0 secondWord,
                            Op.pure_run, joined, verified, MetaStage.memory]

theorem erased_word (record : Metadata) (m : Mem) (address : Nat) (inside : address + 4 ≤ sectorSize) :
    (MetaStage.erased.memory record m).word address = 0xFFFFFFFF := by
  have cell : ∀ i < 4, (MetaStage.erased.memory record m) (address + i) =
      (fun _ => 0xFF : Mem) (0 + i) := by
    intro i below
    exact erase_inside m 0 sectorSize (address + i) (by omega) (by omega)
  exact (word_congr (n := fun _ => 0xFF) (b := 0) cell).trans (by decide)

/-- What `Metadata_Read` finds in a sector with exactly the erased content. -/
theorem metadataRead_erased (m : Mem) (record : Metadata) :
    metadataRead (MetaStage.erased.memory record m) = Metadata.fresh := by
  have wrong : (Metadata.ofBytes (MetaStage.erased.memory record m)).magic ≠ metadataMagic := by
    show (MetaStage.erased.memory record m).word 0 ≠ _
    rw [erased_word record m 0 (by decide)]
    decide
  simp only [metadataRead, wrong, ne_eq, not_false_eq_true, ↓reduceIte]

theorem ofBytes_full (m : Mem) (record : Metadata) :
    Metadata.ofBytes (MetaStage.full.memory record m) = record.sealed :=
  (Metadata.ofBytes_congr (full_memory record m)).trans (Metadata.ofBytes_image record.sealed)

theorem metadataRead_full (m : Mem) (record : Metadata) :
    metadataRead (MetaStage.full.memory record m) = record.sealed := by
  have same := ofBytes_full m record
  simp only [metadataRead, same, Metadata.sealed, ne_eq, not_true_eq_false, ↓reduceIte]

/-- With only the first flash word programmed, the words from `bak_minor` on read
as erased. -/
theorem ofBytes_half (m : Mem) (record : Metadata) :
    Metadata.ofBytes (MetaStage.half.memory record m) = record.halfWritten := by
  have cell : ∀ i < 64, (MetaStage.half.memory record m) i = record.halfWritten.image i := by
    intro i below
    have blank : (m.erase 0 sectorSize) i = 0xFF :=
      erase_inside m 0 sectorSize i (by omega) (by simp only [sectorSize]; omega)
    by_cases first : i < 32
    · have stored : (MetaStage.half.memory record m) i = record.sealed.image i :=
        program_blank _ 0 flashWord _ i (by omega) (by simp only [flashWord]; omega) blank
      rw [stored]
      have index : i / 4 < 8 := by omega
      show (record.sealed.words (i / 4)).byte (i % 4) = (record.halfWritten.words (i / 4)).byte (i % 4)
      generalize i / 4 = word at index
      interval_cases word <;> rfl
    · have kept : (MetaStage.half.memory record m) i = 0xFF :=
        (program_outside _ 0 flashWord _ i (by simp only [flashWord]; omega)).trans blank
      rw [kept]
      have index : 8 ≤ i / 4 ∧ i / 4 < 16 := by omega
      have column : i % 4 < 4 := by omega
      show _ = (record.halfWritten.words (i / 4)).byte (i % 4)
      generalize i / 4 = word at index
      generalize i % 4 = byte at column
      obtain ⟨low, high⟩ := index
      have ones : record.halfWritten.words word = 0xFFFFFFFF := by
        interval_cases word <;> rfl
      rw [ones]
      interval_cases byte <;> decide
  exact (Metadata.ofBytes_congr cell).trans (Metadata.ofBytes_image record.halfWritten)

theorem metadataRead_half (m : Mem) (record : Metadata) :
    metadataRead (MetaStage.half.memory record m) = record.halfWritten := by
  have same := ofBytes_half m record
  simp only [metadataRead, same, Metadata.halfWritten, Metadata.sealed, ne_eq, not_true_eq_false,
    ↓reduceIte]

/-- The state word on the sector, and the state `Metadata_Read` returns: a write
leaves the old one, the erased one or the one it was given. -/
theorem memory_stateWord (stage : MetaStage) (record : Metadata) (m : Mem) :
    (stage.memory record m).word 4 =
      match stage with
      | .unchanged => m.word 4
      | .erased => stateEmpty
      | .half => record.state
      | .full => record.state := by
  cases stage with
  | unchanged => rfl
  | erased => exact erased_word record m 4 (by decide)
  | half => exact congrArg Metadata.state (ofBytes_half m record)
  | full => exact congrArg Metadata.state (ofBytes_full m record)

theorem memory_readState (stage : MetaStage) (record : Metadata) (m : Mem) :
    (metadataRead (stage.memory record m)).state =
      match stage with
      | .unchanged => (metadataRead m).state
      | .erased => stateEmpty
      | .half => record.state
      | .full => record.state := by
  cases stage with
  | unchanged => rfl
  | erased => exact congrArg Metadata.state (metadataRead_erased m record)
  | half =>
      rw [metadataRead_half]
      rfl
  | full =>
      rw [metadataRead_full]
      rfl

/-- The read state is the stored word, or EMPTY if the magic is wrong. -/
theorem metadataRead_state (m : Mem) :
    (metadataRead m).state = m.word 4 ∨ (metadataRead m).state = stateEmpty := by
  unfold metadataRead
  dsimp only
  split
  · exact .inr rfl
  · exact .inl rfl

end OtaBoot
