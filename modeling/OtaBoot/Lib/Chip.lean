import OtaBoot.Lib.Memory
import OtaBoot.Lib.Crash

set_option autoImplicit false

namespace OtaBoot

/-- What a command to a chip reports, or that power was lost during it. -/
inductive Status
  | ok
  | error
  | cut
  deriving DecidableEq

/-- One command to a serial flash chip: what it reports, and the byte it leaves
at each offset of its target given the old byte and the byte it should leave. -/
structure ChipFault where
  status : Status
  leaves : Nat → Byte → Byte → Byte

namespace Status

variable {σ : Type}

/-- Report a status from a state. -/
def report (status : Status) (s : σ) : Exit Bool × σ :=
  match status with
  | .ok => (.done true, s)
  | .error => (.done false, s)
  | .cut => (.cut, s)

def exit (status : Status) : Exit Bool :=
  match status with
  | .ok => .done true
  | .error => .done false
  | .cut => .cut

theorem report_fst (status : Status) (s : σ) : (status.report s).1 = status.exit := by
  cases status <;> rfl

theorem report_snd (status : Status) (s : σ) : (status.report s).2 = s := by
  cases status <;> rfl

theorem exit_returns {status : Status} (powered : status ≠ .cut) : status.exit ≠ .cut := by
  cases status with
  | cut => exact absurd rfl powered
  | ok => simp [exit]
  | error => simp [exit]

/-- A command without effect on the array. -/
def check (status : Status) : Op σ Bool := fun s => status.report s

theorem check_ensures {status : Status} {s : σ} {Q : Bool → σ → Prop} {C : σ → Prop}
    (success : status = .ok → Q true s) (failure : status = .error → Q false s)
    (lost : status = .cut → C s) : Op.Ensures (check status) s Q C := by
  cases status with
  | ok => exact success rfl
  | error => exact failure rfl
  | cut => exact lost rfl

theorem exits_check (status : Status) : Op.Exits (check status : Op σ Bool) status.exit :=
  fun s => status.report_fst s

end Status

namespace ChipFault

/-- The command works. -/
def clean : ChipFault := ⟨.ok, fun _ _ want => want⟩

/-- A command that reports success took effect. -/
def Sound (fault : ChipFault) : Prop :=
  fault.status = .ok → ∀ offset old want, fault.leaves offset old want = want

/-- Every bit a command leaves is the old one or the one it should leave. -/
def Bitwise (fault : ChipFault) : Prop :=
  ∀ offset old want, ∃ keep, fault.leaves offset old want = (old &&& keep) ||| (want &&& ~~~keep)

theorem Bitwise.same {fault : ChipFault} (bitwise : fault.Bitwise) (offset : Nat) (old : Byte) :
    fault.leaves offset old old = old := by
  obtain ⟨keep, bits⟩ := bitwise offset old old
  rw [bits, ← BitVec.and_or_distrib_left, BitVec.or_not_self, BitVec.and_allOnes]

/-- A command that should clear bits can be completed. -/
theorem Bitwise.toward {fault : ChipFault} (bitwise : fault.Bitwise) (offset : Nat)
    (old data : Byte) : fault.leaves offset old (old &&& data) &&& data = old &&& data := by
  obtain ⟨keep, bits⟩ := bitwise offset old (old &&& data)
  rw [bits]
  apply BitVec.eq_of_getLsbD_eq
  intro bit _
  simp only [BitVec.getLsbD_and, BitVec.getLsbD_or, BitVec.getLsbD_not]
  cases old.getLsbD bit <;> cases data.getLsbD bit <;> cases keep.getLsbD bit <;> simp_all

/-- A command that leaves its target as it was. -/
def Idle (fault : ChipFault) : Prop :=
  ∀ offset old want, fault.leaves offset old want = old

/-- The command reports success and took effect. -/
structure Works (fault : ChipFault) : Prop where
  status : fault.status = .ok
  leaves : ∀ offset old want, fault.leaves offset old want = want

theorem clean_works : clean.Works := ⟨rfl, fun _ _ _ => rfl⟩

theorem Works.sound {fault : ChipFault} (works : fault.Works) : fault.Sound := fun _ => works.leaves

theorem Works.bitwise {fault : ChipFault} (works : fault.Works) : fault.Bitwise := by
  intro offset old want
  refine ⟨0, ?_⟩
  rw [works.leaves]
  show want = (old &&& 0#8) ||| (want &&& ~~~0#8)
  rw [BitVec.and_zero, BitVec.zero_or, BitVec.not_zero, BitVec.and_allOnes]

theorem clean_sound : clean.Sound := clean_works.sound

theorem clean_bitwise : clean.Bitwise := clean_works.bitwise

/-- Send a command that should turn each byte `old` at `offset` of its target
into `want offset old`. -/
def command (fault : ChipFault) (address size : Nat) (want : Nat → Byte → Byte) : Op Mem Bool :=
  fun m => fault.status.report (m.store address size fun i =>
    fault.leaves i (m (address + i)) (want i (m (address + i))))

theorem exits_command (fault : ChipFault) (address size : Nat) (want : Nat → Byte → Byte) :
    Op.Exits (command fault address size want) fault.status.exit :=
  fun _ => Status.report_fst _ _

theorem command_ensures {fault : ChipFault} {address size : Nat} {want : Nat → Byte → Byte}
    {m : Mem} {Q : Bool → Mem → Prop} {C : Mem → Prop}
    (success : fault.status = .ok → Q true (m.store address size fun i =>
      fault.leaves i (m (address + i)) (want i (m (address + i)))))
    (failure : fault.status = .error → Q false (m.store address size fun i =>
      fault.leaves i (m (address + i)) (want i (m (address + i)))))
    (lost : fault.status = .cut → C (m.store address size fun i =>
      fault.leaves i (m (address + i)) (want i (m (address + i))))) :
    Op.Ensures (command fault address size want) m Q C := by
  unfold Op.Ensures command
  generalize reported : fault.status = status at success failure lost
  cases status with
  | ok => exact success rfl
  | error => exact failure rfl
  | cut => exact lost rfl

end ChipFault

end OtaBoot
