import OtaBoot.QspiMemory
import OtaBoot.Lib.Trace

set_option autoImplicit false

namespace OtaBoot.Qspi

open Mem

abbrev qspiFlashSize : Nat := 0x2000000

/-- A page program command: its address and the number of data bytes. -/
structure PageCommand where
  address : Nat
  size : Nat

/-- The command transfers at least one byte, does not wrap in its page and stays in
`[lower, upper)`. -/
structure PageCommand.Within (lower upper : Nat) (command : PageCommand) : Prop where
  nonempty : 1 ≤ command.size
  size : command.size ≤ qspiPageSize
  page : command.address % qspiPageSize + command.size ≤ qspiPageSize
  lower : lower ≤ command.address
  upper : command.address + command.size ≤ upper

/-- `bspQspiWriteFrom` with its page program commands logged. -/
def bspQspiWriteFromLogged (faults : Nat → ChipFault) (data : Nat → Byte) :
    Nat → Nat → Nat → Nat → Nat → Op (Mem × List PageCommand) Bool
  | 0, _, _, _, _ => pure true
  | passes + 1, pass, address, offset, remaining =>
    if remaining = 0 then pure true
    else
      let pageAvail := qspiPageSize - address % qspiPageSize
      let chunk := if remaining < pageAvail then remaining else pageAvail
      do
        if ← Op.logging ⟨address, chunk⟩
            (pageProgram (faults pass) address chunk fun i => data (offset + i)) then
          bspQspiWriteFromLogged faults data passes (pass + 1) (address + chunk) (offset + chunk)
            (remaining - chunk)
        else pure false

/-- `BSP_QSPI_Write` with its page program commands logged. -/
def bspQspiWriteLogged (faults : Nat → ChipFault) (data : Nat → Byte) (address size : Nat) :
    Op (Mem × List PageCommand) Bool :=
  bspQspiWriteFromLogged faults data size 0 address 0 size

theorem bspQspiWriteFromLogged_projects (faults : Nat → ChipFault) (data : Nat → Byte)
    (passes : Nat) : ∀ pass address offset remaining,
    Op.Projects (bspQspiWriteFromLogged faults data passes pass address offset remaining)
      (bspQspiWriteFrom faults data passes pass address offset remaining) := by
  induction passes with
  | zero =>
      intro pass address offset remaining
      exact Op.projects_pure true
  | succ passes ih =>
      intro pass address offset remaining
      apply (Op.projects_pure true).ite
      apply (Op.projects_logging _ _).bind
      intro ok
      exact (ih _ _ _ _).ite (Op.projects_pure false)

/-- Logging changes neither the result nor the array. -/
theorem bspQspiWriteLogged_projects (faults : Nat → ChipFault) (data : Nat → Byte)
    (address size : Nat) :
    Op.Projects (bspQspiWriteLogged faults data address size)
      (bspQspiWrite faults data address size) :=
  bspQspiWriteFromLogged_projects faults data size 0 address 0 size

/-- A sound command that reports success is one that works. -/
theorem sound_eq_clean {fault : ChipFault} (sound : fault.Sound) (reported : fault.status = .ok) :
    fault = .clean := by
  have leaves := sound reported
  obtain ⟨status, left⟩ := fault
  have same : left = fun _ _ want => want := by
    funext offset old want
    exact leaves offset old want
  rw [same]
  exact congrArg (ChipFault.mk · _) reported

/-- A page program that reports success has cleared exactly the bits it should. -/
theorem pageProgram_sound {fault : ChipFault} (sound : fault.Sound) {address size : Nat}
    (fits : address % qspiPageSize + size ≤ qspiPageSize) (data : Nat → Byte) (m : Mem) :
    Op.Ensures (pageProgram fault address size data) m
      (fun ok n => ok = true → n = m.program address size data) (fun _ => True) := by
  by_cases reported : fault.status = .ok
  · rw [sound_eq_clean sound reported]
    apply (pageProgram_ensures .clean address size data m fits ChipFault.clean_sound
      ChipFault.clean_bitwise).mono
    · rintro ok n result rfl
      exact result
    · intro _ _
      trivial
  · unfold pageProgram
    apply ChipFault.command_ensures
    · intro ok
      exact absurd ok reported
    · intro _ failed
      cases failed
    · intro _
      trivial

/-- What the loop may have logged, wherever it stops. -/
def Commanded (lower upper : Nat) (before after : List PageCommand) : Prop :=
  ∀ command ∈ after, command ∈ before ∨ command.Within lower upper

theorem Commanded.cons {lower upper : Nat} {before after : List PageCommand} {first : PageCommand}
    (rest : Commanded lower upper (first :: before) after) (within : first.Within lower upper) :
    Commanded lower upper before after := by
  intro command found
  rcases rest command found with earlier | later
  · rcases List.mem_cons.mp earlier with rfl | older
    · exact .inr within
    · exact .inl older
  · exact .inr later

theorem Commanded.widen {lower upper lower' upper' : Nat} {before after : List PageCommand}
    (commanded : Commanded lower upper before after) (below : lower' ≤ lower)
    (above : upper ≤ upper') : Commanded lower' upper' before after := by
  intro command found
  rcases commanded command found with earlier | ⟨nonempty, size, page, low, high⟩
  · exact .inl earlier
  · exact .inr ⟨nonempty, size, page, by omega, by omega⟩

/-- The page loop sends only commands that stay inside a page of its range; if it
reports success the range is programmed. -/
theorem bspQspiWriteFromLogged_ensures (faults : Nat → ChipFault) (sound : ∀ k, (faults k).Sound)
    (data : Nat → Byte) (passes : Nat) :
    ∀ pass address offset remaining (m : Mem) (log : List PageCommand), remaining ≤ passes →
    Op.Ensures (bspQspiWriteFromLogged faults data passes pass address offset remaining) (m, log)
      (fun ok t => Commanded address (address + remaining) log t.2 ∧
        (ok = true → t.1 = m.program address remaining fun i => data (offset + i)))
      (fun t => Commanded address (address + remaining) log t.2) := by
  induction passes with
  | zero =>
      intro pass address offset remaining m log bound
      have empty : remaining = 0 := by omega
      subst empty
      exact ⟨fun command found => .inl found, fun _ => (program_empty m _ _).symm⟩
  | succ passes ih =>
      intro pass address offset remaining m log bound
      rw [bspQspiWriteFromLogged]
      split
      · rename_i empty
        subst empty
        exact ⟨fun command found => .inl found, fun _ => (program_empty m _ _).symm⟩
      · rename_i nonempty
        dsimp only
        generalize part : (if remaining < qspiPageSize - address % qspiPageSize then remaining
          else qspiPageSize - address % qspiPageSize) = chunk
        have sized := pageChunk_bounds nonempty part
        obtain ⟨rest, split⟩ : ∃ rest, remaining = chunk + rest := ⟨remaining - chunk, by omega⟩
        subst split
        have most : chunk ≤ qspiPageSize := by omega
        have reach : address + chunk ≤ address + (chunk + rest) := by omega
        have within : PageCommand.Within address (address + (chunk + rest)) ⟨address, chunk⟩ :=
          ⟨sized.1, most, sized.2.2, Nat.le_refl _, reach⟩
        have sent : Commanded address (address + (chunk + rest)) log (⟨address, chunk⟩ :: log) :=
          Commanded.cons (fun command found => .inl found) within
        have shifted := data_shift data offset chunk
        have page := pageProgram_sound (sound pass) sized.2.2 (fun i => data (offset + i)) m
        refine Op.Ensures.bind (fun ok t => t.2 = ⟨address, chunk⟩ :: log ∧
          (ok = true → t.1 = m.program address chunk fun i => data (offset + i)))
          (Op.logging_ensures (page.mono (fun _ _ kept => ⟨rfl, kept⟩) fun _ _ => sent)) ?_
        rintro ok ⟨n, now⟩ ⟨rfl, passed⟩
        cases ok with
        | false => exact ⟨sent, by simp⟩
        | true =>
            have programmed : n = m.program address chunk fun i => data (offset + i) := passed rfl
            subst programmed
            have next := ih (pass + 1) (address + chunk) (offset + chunk) rest
              (m.program address chunk fun i => data (offset + i)) (⟨address, chunk⟩ :: log)
              (by omega)
            simp only [↓reduceIte, Nat.add_sub_cancel_left]
            rw [shifted] at next
            refine next.mono ?_ ?_
            · rintro done t ⟨commanded, result⟩
              refine ⟨(commanded.widen (by omega) (by omega)).cons within, ?_⟩
              intro success
              rw [result success]
              exact program_append m address chunk rest fun i => data (offset + i)
            · intro t commanded
              exact (commanded.widen (by omega) (by omega)).cons within

/-- A write that reports success has programmed its range. -/
theorem bspQspiWrite_program {faults : Nat → ChipFault} (sound : ∀ k, (faults k).Sound)
    {data m : Mem} {address size : Nat}
    (succeeds : (bspQspiWrite faults data address size m).1 = .done true) :
    (bspQspiWrite faults data address size m).2 = m.program address size data := by
  obtain ⟨exit, array⟩ := bspQspiWriteLogged_projects faults data address size m []
  have spec := bspQspiWriteFromLogged_ensures faults sound data size 0 address 0 size m []
    (Nat.le_refl _)
  simp only [Nat.zero_add] at spec
  rw [succeeds] at exit
  rw [← array]
  exact (Op.ensures_of_run spec (Prod.ext exit rfl)).2 rfl

/-- Every command of a write, whether it reports success or not. -/
theorem bspQspiWriteLogged_commands {faults : Nat → ChipFault} (sound : ∀ k, (faults k).Sound)
    (data m : Mem) (address size : Nat) :
    ∀ command ∈ (bspQspiWriteLogged faults data address size (m, [])).2.2,
      command.Within address (address + size) := by
  have spec := bspQspiWriteFromLogged_ensures faults sound data size 0 address 0 size m []
    (Nat.le_refl _)
  have commanded := Op.Ensures.final (spec.mono (fun _ _ result => result.1) fun _ lost => lost)
  intro command found
  rcases commanded command found with none | within
  · cases none
  · exact within

/-- A write that reports success sent commands inside single pages of its range and of the
array, cleared exactly the bits of its data, and touched nothing else; on erased bytes the
data reads back. -/
theorem bspQspiWrite_exact (faults : Nat → ChipFault) (sound : ∀ k, (faults k).Sound) (data m : Mem)
    (address size : Nat) (room : address + size ≤ qspiFlashSize)
    (succeeds : (bspQspiWrite faults data address size m).1 = .done true) :
    (∀ command ∈ (bspQspiWriteLogged faults data address size (m, [])).2.2,
        command.Within address (address + size) ∧ command.Within 0 qspiFlashSize) ∧
      (∀ i < size, (bspQspiWrite faults data address size m).2 (address + i) =
        m (address + i) &&& data i) ∧
      (∀ i, i < address ∨ address + size ≤ i →
        (bspQspiWrite faults data address size m).2 i = m i) ∧
      (Erased m address (address + size) →
        (bspQspiRead .ok address size (bspQspiWrite faults data address size m).2).1 =
          .done (some (data.bytes 0 size))) := by
  have programmed := bspQspiWrite_program sound succeeds
  generalize (bspQspiWrite faults data address size m).2 = n at programmed
  have inside : ∀ i < size, n (address + i) = m (address + i) &&& data i := by
    intro i below
    rw [programmed, program_inside m address size data _ (by omega) (by omega),
      Nat.add_sub_cancel_left]
  refine ⟨?_, inside, ?_, ?_⟩
  · intro command found
    have within := bspQspiWriteLogged_commands sound data m address size command found
    exact ⟨within, within.nonempty, within.size, within.page, Nat.zero_le _,
      Nat.le_trans within.upper room⟩
  · intro i outside
    rw [programmed]
    exact program_outside m address size data i outside
  · intro blank
    have same : n.bytes address size = data.bytes 0 size := by
      apply bytes_congr
      intro i below
      rw [inside i below, blank (address + i) (by omega) (by omega), Nat.zero_add]
      exact BitVec.allOnes_and
    show Exit.done (some (n.bytes address size)) = _
    rw [same]

/-- Ten bytes that cross a page boundary of an erased array. -/
theorem bspQspiWrite_exact_crossing :
    (bspQspiRead .ok 250 10
        (bspQspiWrite (fun _ => .clean) (fun i => BitVec.ofNat 8 i) 250 10 fun _ => 0xFF).2).1 =
      .done (some [0, 1, 2, 3, 4, 5, 6, 7, 8, 9]) := by
  have written := bspQspiWrite_exact (fun _ => .clean) (fun _ => ChipFault.clean_sound)
    (fun i => BitVec.ofNat 8 i) (fun _ => 0xFF) 250 10 (by decide) rfl
  exact written.2.2.2 fun _ _ _ => rfl

end OtaBoot.Qspi
