import OtaBoot.QspiDriver
import OtaBoot.QspiCommands

set_option autoImplicit false

namespace OtaBoot.Qspi

theorem Fate.bitwise (fate : Fate) (offset : Nat) (old want : Byte) :
    ∃ keep, fate.leaves offset old want = (old &&& keep) ||| (want &&& ~~~keep) := by
  cases fate with
  | completes => exact ChipFault.clean_bitwise offset old want
  | interrupted keep => exact ⟨keep offset old want, rfl⟩

/-- A command that stops with this status, having left what the fate says. -/
def Fate.fault (fate : Fate) (status : Status) : ChipFault := ⟨status, fate.leaves⟩

theorem Fate.leaves_same (fate : Fate) (offset : Nat) (old : Byte) :
    fate.leaves offset old old = old :=
  have bitwise : (fate.fault .ok).Bitwise := fate.bitwise
  bitwise.same offset old

namespace W25Q

theorem finish_settled (c : W25Q) : c.finish.settled = c.settled := by
  obtain ⟨mem, wel, enabled, job⟩ := c
  cases job <;> rfl

theorem finish_job (c : W25Q) : c.finish.job = none := by
  obtain ⟨mem, wel, enabled, job⟩ := c
  cases job <;> rfl

theorem advance_settled (c : W25Q) : c.advance.settled = c.settled := by
  unfold advance
  cases found : c.job with
  | none => rfl
  | some job =>
      dsimp only
      split
      · exact c.finish_settled
      · rfl

theorem advance_idle {c : W25Q} (idle : c.job = none) : c.advance = c := by
  unfold advance
  rw [idle]

end W25Q

theorem HalCall.chip_settled (call : HalCall) (c : W25Q) : (call.chip c).settled = c.settled := by
  unfold HalCall.chip
  split
  · exact c.advance_settled
  · rfl

theorem HalCall.chip_idle (call : HalCall) {c : W25Q} (idle : c.job = none) : call.chip c = c := by
  unfold HalCall.chip
  rw [W25Q.advance_idle idle, ite_self]

/-- A call finds the chip as it was, or it has become ready and lost the latch. -/
theorem HalCall.chip_cases (call : HalCall) (c : W25Q) :
    call.chip c = c ∨ (call.chip c).job = none ∧ (call.chip c).wel = false := by
  obtain ⟨advances, status, sent⟩ := call
  obtain ⟨mem, wel, enabled, job⟩ := c
  cases advances with
  | false => exact .inl rfl
  | true =>
      cases job with
      | none => exact .inl rfl
      | some job =>
          obtain ⟨address, size, want, fate⟩ := job
          cases fate with
          | completes => exact .inr ⟨rfl, rfl⟩
          | interrupted keep => exact .inl rfl

namespace Driver

/-- The chip is ready and its array is `m`. -/
def Idle (c : W25Q) (m : Mem) : Prop := c.job = none ∧ c.mem = m

/-- The array is `m` once the chip is ready. -/
def Settled (c : W25Q) (m : Mem) : Prop := c.settled = m

theorem Idle.settled {c : W25Q} {m : Mem} (idle : Idle c m) : Settled c m := by
  unfold Settled W25Q.settled
  rw [idle.1]
  exact idle.2

theorem Idle.writeEnable {c : W25Q} {m : Mem} (idle : Idle c m) :
    Idle c.writeEnable m ∧ c.writeEnable.wel = true := by
  obtain ⟨mem, wel, enabled, job⟩ := c
  obtain ⟨rfl, rfl⟩ := idle
  exact ⟨⟨rfl, rfl⟩, rfl⟩

/-- A ready chip with the latch set starts the operation. -/
theorem Idle.start {c : W25Q} {m : Mem} (idle : Idle c m) (latched : c.wel = true) (job : Job) :
    (c.start job).job = some job ∧ (c.start job).mem = m := by
  obtain ⟨mem, wel, enabled, running⟩ := c
  obtain ⟨rfl, rfl⟩ := idle
  obtain rfl : wel = true := latched
  exact ⟨rfl, rfl⟩

theorem halCall_ensures {call : HalCall} {whole part : W25Q → W25Q} {c : W25Q}
    {Q : Bool → W25Q → Prop} {C : W25Q → Prop} (works : Q true (whole (call.chip c)))
    (fails : Q false (part (call.chip c))) (cut : C (part (call.chip c)).powerLoss) :
    Op.Ensures (halCall call whole part) c Q C := by
  unfold Op.Ensures halCall
  cases call.status with
  | ok => exact works
  | error => exact fails
  | cut => exact cut

theorem halQspiAutoPolling_ensures {call : HalCall} {matched : W25Q → Bool} {c : W25Q}
    {Q : Bool → W25Q → Prop} {C : W25Q → Prop}
    (found : matched (call.chip c) = true → Q true (call.chip c)) (fails : Q false (call.chip c))
    (cut : C (call.chip c).powerLoss) : Op.Ensures (halQspiAutoPolling call matched) c Q C := by
  unfold Op.Ensures halQspiAutoPolling
  cases call.status with
  | ok =>
      show Q (matched (call.chip c)) (call.chip c)
      cases same : matched (call.chip c) with
      | true => exact found same
      | false => exact fails
  | error => exact fails
  | cut => exact cut

/-- A ready chip takes the command, and the poll sees the latch. -/
theorem qspiWriteEnable_idle (enable poll : HalCall) {c : W25Q} {m : Mem} (idle : Idle c m) :
    Op.Ensures (qspiWriteEnable enable poll) c
      (fun ok t => Idle t m ∧ (ok = true → t.wel = true)) (fun t => Settled t m) := by
  have enabled := idle.writeEnable
  refine Op.Ensures.bind (fun ok t => Idle t m ∧ (ok = true → t.wel = true)) ?_ ?_
  · apply halCall_ensures
    · rw [enable.chip_idle idle.1]
      exact ⟨enabled.1, fun _ => enabled.2⟩
    · rw [enable.chip_idle idle.1]
      refine ⟨?_, by intro absurd; cases absurd⟩
      split
      · exact enabled.1
      · exact idle
    · rw [enable.chip_idle idle.1]
      show (if enable.sent then c.writeEnable else c).settled = m
      split
      · exact enabled.1.settled
      · exact idle.settled
  · intro ok t ⟨still, latched⟩
    cases ok with
    | false => exact ⟨still, fun absurd => by cases absurd⟩
    | true =>
        show Op.Ensures (halQspiAutoPolling poll fun c => c.wel) t _ _
        apply halQspiAutoPolling_ensures
        · intro _
          rw [poll.chip_idle still.1]
          exact ⟨still, fun _ => latched rfl⟩
        · rw [poll.chip_idle still.1]
          exact ⟨still, fun absurd => by cases absurd⟩
        · rw [poll.chip_idle still.1]
          exact still.settled

/-- A busy chip is found ready only if its operation completes. -/
theorem ready_completes (poll : HalCall) {c : W25Q} {job : Job} (busy : c.job = some job)
    (ready : (poll.chip c).job = none) :
    job.fate = .completes ∧ Idle (poll.chip c) (job.result c.mem) := by
  obtain ⟨mem, wel, enabled, running⟩ := c
  obtain rfl : running = some job := busy
  obtain ⟨address, size, want, fate⟩ := job
  obtain ⟨advances, status, sent⟩ := poll
  cases advances with
  | false => cases ready
  | true =>
      cases fate with
      | completes => exact ⟨rfl, rfl, rfl⟩
      | interrupted keep => cases ready

theorem pageJob_none (fate : Fate) (address : Nat) (data : Nat → Byte) (m : Mem) :
    (pageJob fate address 0 data).result m = m := by
  have same : ∀ i, fate.leaves i (m (address - address % qspiPageSize + i))
      (pageWant (address % qspiPageSize) 0 data i (m (address - address % qspiPageSize + i))) =
      m (address - address % qspiPageSize + i) := by
    intro i
    unfold pageWant
    rw [if_neg (Nat.not_lt_zero _)]
    exact fate.leaves_same i _
  funext i
  unfold Job.result
  by_cases inside : address - address % qspiPageSize ≤ i ∧
      i < address - address % qspiPageSize + qspiPageSize
  · refine (Mem.store_inside m _ _ _ i inside.1 inside.2).trans ((same _).trans ?_)
    rw [Nat.add_sub_of_le inside.1]
  · refine Mem.store_outside m _ _ _ i ?_
    show i < address - address % qspiPageSize ∨
      address - address % qspiPageSize + qspiPageSize ≤ i
    omega

/-- The page program that the chip has taken, if any. -/
theorem program_settled {c : W25Q} {m : Mem} (idle : Idle c m) (latched : c.wel = true)
    (fate : Fate) (address count : Nat) (data : Nat → Byte) :
    (program fate address count data c).settled = (pageJob fate address count data).result m := by
  unfold program
  split
  · rename_i none
    rw [none, pageJob_none]
    exact idle.settled
  · obtain ⟨job, mem⟩ := idle.start latched (pageJob fate address count data)
    unfold W25Q.settled
    rw [job, mem]

/-- The chip is ready after the poll only if the page program was completed. -/
theorem program_ready {c : W25Q} {m : Mem} (idle : Idle c m) (latched : c.wel = true)
    (fate : Fate) (address count : Nat) (data : Nat → Byte) (poll : HalCall)
    (ready : (poll.chip (program fate address count data c)).job = none) :
    Idle (poll.chip (program fate address count data c))
      ((pageJob .completes address count data).result m) := by
  unfold program at ready ⊢
  split at ready
  · rename_i none
    rw [none, pageJob_none, if_pos rfl, poll.chip_idle idle.1]
    exact idle
  · rename_i some
    rw [if_neg some]
    obtain ⟨job, mem⟩ := idle.start latched (pageJob fate address count data)
    obtain ⟨completes, after⟩ := ready_completes poll job ready
    obtain rfl : fate = .completes := completes
    rw [mem] at after
    exact after

/-- What a page of `BSP_QSPI_Write` leaves: if it reports an error, the program of some of
the bytes. -/
theorem writePage_ensures (calls : PageCalls) (address size : Nat) (data : Nat → Byte) {c : W25Q}
    {m : Mem} (idle : Idle c m) :
    Op.Ensures (writePage calls address size data) c
      (fun ok t => if ok then Idle t ((pageJob .completes address size data).result m)
        else ∃ count ≤ size, Settled t ((pageJob calls.fate address count data).result m))
      (fun t => ∃ count ≤ size, Settled t ((pageJob calls.fate address count data).result m)) := by
  have untouched : ∀ t : W25Q, Settled t m →
      ∃ count ≤ size, Settled t ((pageJob calls.fate address count data).result m) := by
    intro t settled
    refine ⟨0, Nat.zero_le size, ?_⟩
    rw [pageJob_none]
    exact settled
  refine Op.Ensures.bind _ ((qspiWriteEnable_idle calls.enable calls.latched idle).mono
    (fun _ _ held => held) untouched) ?_
  intro ok t ⟨still, latched⟩
  cases ok with
  | false => exact untouched t still.settled
  | true =>
      have wel := latched rfl
      refine Op.Ensures.bind (fun _ u => Idle u m ∧ u.wel = true) ?_ ?_
      · apply halCall_ensures
        · rw [calls.command.chip_idle still.1]
          exact ⟨still, wel⟩
        · rw [calls.command.chip_idle still.1]
          exact ⟨still, wel⟩
        · apply untouched
          rw [calls.command.chip_idle still.1]
          exact still.settled
      · intro ok u ⟨still, wel⟩
        cases ok with
        | false => exact untouched u still.settled
        | true =>
            refine Op.Ensures.bind (fun ok v => if ok then
                v = program calls.fate address size data u
              else v = program calls.fate address (min calls.bytes size) data u) ?_ ?_
            · apply halCall_ensures
              · rw [calls.transmit.chip_idle still.1]
                rfl
              · rw [calls.transmit.chip_idle still.1]
                rfl
              · rw [calls.transmit.chip_idle still.1]
                exact ⟨_, Nat.min_le_right _ _, program_settled still wel _ _ _ _⟩
            · intro ok v sent
              cases ok with
              | false =>
                  obtain rfl : v = _ := sent
                  exact ⟨_, Nat.min_le_right _ _, program_settled still wel _ _ _ _⟩
              | true =>
                  obtain rfl : v = _ := sent
                  have settled := program_settled still wel calls.fate address size data
                  show Op.Ensures (qspiAutoPollingMemReady calls.ready) _ _ _
                  apply halQspiAutoPolling_ensures
                  · intro ready
                    exact program_ready still wel _ _ _ _ _ (Option.isNone_iff_eq_none.mp ready)
                  · exact ⟨size, Nat.le_refl _, (calls.ready.chip_settled _).trans settled⟩
                  · exact ⟨size, Nat.le_refl _, (calls.ready.chip_settled _).trans settled⟩

/-- Faults that the abstract driver may have: a success is one, and what an error leaves
is between the old and the new. -/
def Permitted (fault : ChipFault) : Prop := fault.Sound ∧ fault.Bitwise

theorem clean_permitted : Permitted .clean := ⟨ChipFault.clean_sound, ChipFault.clean_bitwise⟩

/-- The fault of a page of which only `count` bytes were programmed. -/
def partialFault (fate : Fate) (status : Status) (column count : Nat) : ChipFault :=
  ⟨status, fun offset old want =>
    if (offset + qspiPageSize - column) % qspiPageSize < count then fate.leaves offset old want
    else old⟩

theorem partialFault_permitted (fate : Fate) {status : Status} (failed : status ≠ .ok)
    (column count : Nat) : Permitted (partialFault fate status column count) := by
  refine ⟨fun ok => absurd ok failed, ?_⟩
  intro offset old want
  unfold partialFault
  dsimp only
  split
  · exact fate.bitwise offset old want
  · refine ⟨BitVec.allOnes 8, ?_⟩
    rw [BitVec.and_allOnes, BitVec.not_allOnes, BitVec.and_zero, BitVec.or_zero]

theorem partialFault_run (fate : Fate) (status : Status) (address size count : Nat)
    (less : count ≤ size) (data : Nat → Byte) (m : Mem) :
    pageProgram (partialFault fate status (address % qspiPageSize) count) address size data m =
      status.report ((pageJob fate address count data).result m) := by
  unfold pageProgram ChipFault.command Job.result
  congr 2
  funext i
  unfold partialFault pageJob pageWant
  dsimp only
  split
  · rename_i sent
    rw [if_pos (Nat.lt_of_lt_of_le sent less)]
  · rename_i kept
    exact (fate.leaves_same i _).symm

/-- A page of the driver is a page of the abstract one. -/
theorem writePage_refines (calls : PageCalls) (address size : Nat) (data : Nat → Byte) :
    Op.Refines Permitted (fun fault => pageProgram fault address size data)
      (writePage calls address size data) Idle (Op.outcome Idle Settled Settled) := by
  apply Op.refines_of_run
  intro c m idle
  have held := writePage_ensures calls address size data idle
  unfold Op.Ensures at held
  generalize writePage calls address size data c = result at held
  obtain ⟨exit, t⟩ := result
  have failing : ∀ (status : Status), status ≠ .ok →
      (∃ count ≤ size, Settled t ((pageJob calls.fate address count data).result m)) →
      ∃ fault, Permitted fault ∧ pageProgram fault address size data m = status.report t.settled := by
    rintro status failed ⟨count, less, settled⟩
    refine ⟨_, partialFault_permitted calls.fate failed (address % qspiPageSize) count, ?_⟩
    rw [partialFault_run _ _ _ _ _ less, settled]
  cases exit with
  | cut =>
      obtain ⟨fault, permits, run⟩ := failing .cut (by decide) held
      exact ⟨fault, t.settled, permits, run, rfl⟩
  | done ok =>
      cases ok with
      | false =>
          obtain ⟨fault, permits, run⟩ := failing .error (by decide) held
          exact ⟨fault, t.settled, permits, run, rfl⟩
      | true => exact ⟨.clean, _, clean_permitted, rfl, held⟩

theorem bspQspiWriteFrom_congr {faults others : Nat → ChipFault} (data : Nat → Byte)
    (passes : Nat) : ∀ pass address offset remaining, (∀ k, pass ≤ k → faults k = others k) →
    Qspi.bspQspiWriteFrom faults data passes pass address offset remaining =
      Qspi.bspQspiWriteFrom others data passes pass address offset remaining := by
  induction passes with
  | zero =>
      intro pass address offset remaining _
      rfl
  | succ passes ih =>
      intro pass address offset remaining same
      unfold Qspi.bspQspiWriteFrom
      rw [same pass (Nat.le_refl pass)]
      dsimp only
      rw [ih (pass + 1) _ _ _ fun k later => same k (by omega)]

/-- The page loop: each page has a fault of its own. -/
theorem bspQspiWriteFrom_refines (calls : Nat → PageCalls) (data : Nat → Byte) (passes : Nat) :
    ∀ pass address offset remaining,
    Op.Refines (fun faults : Nat → ChipFault => ∀ k, Permitted (faults k))
      (fun faults => Qspi.bspQspiWriteFrom faults data passes pass address offset remaining)
      (bspQspiWriteFrom calls data passes pass address offset remaining)
      Idle (Op.outcome Idle Settled Settled) := by
  induction passes with
  | zero =>
      intro pass address offset remaining
      exact Op.refines_pure (fun _ => .clean) (fun _ => clean_permitted) fun c m idle => idle
  | succ passes ih =>
      intro pass address offset remaining
      refine Op.Refines.ite (fun _ => Op.refines_pure (fun _ => .clean) (fun _ => clean_permitted)
        fun c m idle => idle) fun _ => ?_
      have pages := fun chunk => (writePage_refines (calls pass) address chunk
          fun i => data (offset + i)).bind (T := Op.outcome Idle Settled Settled)
        (q := fun faults : Nat → ChipFault => ∀ k, Permitted (faults k))
        (f := fun ok faults => if ok = true then
          Qspi.bspQspiWriteFrom faults data passes (pass + 1) (address + chunk) (offset + chunk)
            (remaining - chunk) else pure false)
        (g := fun ok => if ok = true then
          bspQspiWriteFrom calls data passes (pass + 1) (address + chunk) (offset + chunk)
            (remaining - chunk) else pure false)
        (fun _ => .clean) (fun _ => clean_permitted) (fun c m lost => lost) fun ok =>
          Op.Refines.ite (P := ok = true)
            (fun yes => by
              rw [yes]
              exact ih (pass + 1) _ _ _)
            fun no => Op.refines_pure (fun _ => .clean) (fun _ => clean_permitted) fun c m after => by
              rw [Bool.not_eq_true] at no
              rw [no] at after
              exact after
      refine (pages _).map (fun faults => Function.update faults.2 pass faults.1)
        (fun faults both => Op.permitted_update both.2 both.1 pass) fun faults => ?_
      dsimp only
      rw [Function.update_self, bspQspiWriteFrom_congr data passes (pass + 1)]
      intro k later
      exact (Op.update_later faults.2 faults.1 later).symm

/-- `BSP_QSPI_Write` on a ready chip does what the abstract one does with some permitted
faults; if it reports success, the chip is ready again. -/
theorem bspQspiWrite_refines (calls : Nat → PageCalls) (data : Nat → Byte) (address size : Nat) :
    Op.Refines (fun faults : Nat → ChipFault => ∀ k, Permitted (faults k))
      (fun faults => Qspi.bspQspiWrite faults data address size)
      (bspQspiWrite calls data address size) Idle (Op.outcome Idle Settled Settled) :=
  bspQspiWriteFrom_refines calls data size 0 address 0 size

section Erase

variable {size address : Nat} {m : Mem}

/-- The chip is ready, or an earlier erase of the same block keeps it busy. -/
def Erasable (size address : Nat) (c : W25Q) (m : Mem) : Prop :=
  Settled c m ∧ (c.job = none ∨ ∃ fate, c.job = some (eraseJob fate address size))

theorem Idle.erasable {c : W25Q} (idle : Idle c m) : Erasable size address c m :=
  ⟨idle.settled, .inl idle.1⟩

theorem Erasable.idle {c : W25Q} (ready : Erasable size address c m) (none : c.job = none) :
    Idle c m := by
  refine ⟨none, ?_⟩
  have settled : c.settled = m := ready.1
  unfold W25Q.settled at settled
  rw [none] at settled
  exact settled

theorem eraseJob_completes (aligned : address % size = 0) (n : Mem) :
    (eraseJob .completes address size).result n = n.erase address size := by
  show n.store (address - address % size) size (fun _ => 0xFF) = _
  rw [aligned, Nat.sub_zero]
  rfl

theorem Erasable.chip {c : W25Q} (ready : Erasable size address c m) (call : HalCall) :
    Erasable size address (call.chip c) m := by
  refine ⟨(call.chip_settled c).trans ready.1, ?_⟩
  rcases call.chip_cases c with same | ⟨none, -⟩
  · rw [same]
    exact ready.2
  · exact .inl none

/-- An erase of the block that a call finds completed has erased it. -/
theorem Erasable.completed {c : W25Q} (ready : Erasable size address c m) (aligned : address % size = 0)
    (call : HalCall) (busy : c.job ≠ none) (free : (call.chip c).job = none) :
    m.erase address size = m := by
  obtain ⟨settled, none | ⟨fate, running⟩⟩ := ready
  · exact absurd none busy
  · obtain ⟨completes, -, -⟩ := ready_completes call running free
    obtain rfl : fate = .completes := completes
    have result : (eraseJob .completes address size).result c.mem = m := by
      unfold Settled W25Q.settled at settled
      rw [running] at settled
      exact settled
    rw [← result, eraseJob_completes aligned, Mem.erase_idempotent]

theorem Erasable.writeEnable {c : W25Q} (ready : Erasable size address c m) :
    Erasable size address c.writeEnable m := by
  obtain ⟨mem, wel, enabled, job⟩ := c
  cases job with
  | none => exact ⟨ready.1, .inl rfl⟩
  | some job => exact ready

theorem qspiWriteEnable_erasable (enable poll : HalCall) {c : W25Q}
    (ready : Erasable size address c m) :
    Op.Ensures (qspiWriteEnable enable poll) c
      (fun ok t => Erasable size address t m ∧ (ok = true → t.wel = true)) (fun t => Settled t m) := by
  have found := ready.chip enable
  refine Op.Ensures.bind (fun _ t => Erasable size address t m) ?_ ?_
  · apply halCall_ensures
    · exact found.writeEnable
    · split
      · exact found.writeEnable
      · exact found
    · show (if enable.sent then (enable.chip c).writeEnable else enable.chip c).settled = m
      split
      · exact found.writeEnable.1
      · exact found.1
  · intro ok t still
    cases ok with
    | false => exact ⟨still, fun absurd => by cases absurd⟩
    | true =>
        show Op.Ensures (halQspiAutoPolling poll fun c => c.wel) t _ _
        apply halQspiAutoPolling_ensures
        · intro latched
          exact ⟨still.chip poll, fun _ => latched⟩
        · exact ⟨still.chip poll, fun absurd => by cases absurd⟩
        · exact (still.chip poll).1

/-- The erase command was taken, or the block is erased without it. -/
def Started (fate : Fate) (size address : Nat) (m : Mem) (c : W25Q) : Prop :=
  c.job = some (eraseJob fate address size) ∧ c.mem = m ∨
    Erasable size address c m ∧ (c.job = none → m.erase address size = m)

/-- What the command does to a chip whose latch was seen. A chip that has become ready
since has lost it. -/
theorem Erasable.start {c : W25Q} (ready : Erasable size address c m) (aligned : address % size = 0)
    (latched : c.wel = true) (call : HalCall) (fate : Fate) :
    Started fate size address m ((call.chip c).start (eraseJob fate address size)) := by
  by_cases idle : c.job = none
  · rw [call.chip_idle idle]
    exact .inl ((ready.idle idle).start latched _)
  · right
    have found := ready.chip call
    have erased := ready.completed aligned call idle
    have lost : (call.chip c).job = none → (call.chip c).wel = false := by
      intro free
      rcases call.chip_cases c with same | ⟨-, clear⟩
      · rw [same] at free
        exact absurd free idle
      · exact clear
    generalize call.chip c = t at found erased lost
    obtain ⟨mem, wel, enabled, job⟩ := t
    cases job with
    | none =>
        obtain rfl : wel = false := lost rfl
        exact ⟨found, fun _ => erased rfl⟩
    | some job => exact ⟨found, fun absurd => by cases absurd⟩

/-- What the array holds after a try that was not reported as a success. -/
def Tried (fate : Fate) (size address : Nat) (m : Mem) (t : W25Q) : Prop :=
  Settled t m ∨ Settled t ((eraseJob fate address size).result m)

theorem Started.tried {fate : Fate} {c : W25Q} (started : Started fate size address m c) :
    Tried fate size address m c ∧
      (c.job = none ∨ ∃ fate, c.job = some (eraseJob fate address size)) := by
  rcases started with ⟨job, mem⟩ | ⟨ready, -⟩
  · refine ⟨.inr ?_, .inr ⟨fate, job⟩⟩
    unfold Settled W25Q.settled
    rw [job, mem]
  · exact ⟨.inl ready.1, ready.2⟩

theorem Started.ready {fate : Fate} {c : W25Q} (started : Started fate size address m c)
    (aligned : address % size = 0) (call : HalCall) (free : (call.chip c).job = none) :
    Idle (call.chip c) (m.erase address size) := by
  rcases started with ⟨job, mem⟩ | ⟨ready, done⟩
  · obtain ⟨completes, idle⟩ := ready_completes call job free
    obtain rfl : fate = .completes := completes
    rw [mem, eraseJob_completes aligned] at idle
    exact idle
  · have idle := (ready.chip call).idle free
    by_cases none : c.job = none
    · rw [done none]
      exact idle
    · rw [ready.completed aligned call none free]
      exact idle

/-- What one try at an erase leaves. -/
theorem erase_ensures (calls : EraseCalls) (aligned : address % size = 0) {c : W25Q}
    (ready : Erasable size address c m) :
    Op.Ensures (erase size calls address) c
      (fun ok t => if ok then Idle t (m.erase address size)
        else Tried calls.fate size address m t ∧
          (t.job = none ∨ ∃ fate, t.job = some (eraseJob fate address size)))
      (fun t => Tried calls.fate size address m t) := by
  refine Op.Ensures.bind _ ((qspiWriteEnable_erasable calls.enable calls.latched ready).mono
    (fun _ _ held => held) fun t kept => .inl kept) ?_
  intro ok t ⟨still, latched⟩
  cases ok with
  | false => exact ⟨.inl still.1, still.2⟩
  | true =>
      have started := still.start aligned (latched rfl) calls.command calls.fate
      have found := still.chip calls.command
      refine Op.Ensures.bind (fun ok u => if ok then Started calls.fate size address m u
        else Tried calls.fate size address m u ∧
          (u.job = none ∨ ∃ fate, u.job = some (eraseJob fate address size))) ?_ ?_
      · apply halCall_ensures
        · exact started
        · simp only [Bool.false_eq_true, ↓reduceIte]
          split
          · exact started.tried
          · exact ⟨.inl found.1, found.2⟩
        · split
          · exact started.tried.1
          · exact .inl found.1
      · intro ok u after
        cases ok with
        | false => exact after
        | true =>
            have started : Started calls.fate size address m u := after
            obtain ⟨tried, -⟩ := started.tried
            have polled : Tried calls.fate size address m (calls.ready.chip u) :=
              tried.imp (calls.ready.chip_settled u).trans (calls.ready.chip_settled u).trans
            show Op.Ensures (qspiAutoPollingMemReady calls.ready) u _ _
            apply halQspiAutoPolling_ensures
            · intro free
              exact started.ready aligned calls.ready (Option.isNone_iff_eq_none.mp free)
            · refine ⟨polled, ?_⟩
              rcases calls.ready.chip_cases u with same | ⟨none, -⟩
              · rw [same]
                exact started.tried.2
              · exact .inl none
            · exact polled

theorem command_kept (status : Status) (n : Mem) (want : Nat → Byte → Byte) :
    (ChipFault.mk status fun _ old _ => old).command address size want n = status.report n := by
  show status.report (n.store address size fun i => n (address + i)) = _
  congr 1
  funext i
  by_cases inside : address ≤ i ∧ i < address + size
  · rw [Mem.store_inside n _ _ _ i inside.1 inside.2, Nat.add_sub_of_le inside.1]
  · exact Mem.store_outside n _ _ _ i (by omega)

theorem tried_explained {fate : Fate} {t : W25Q} (tried : Tried fate size address m t)
    (aligned : address % size = 0) (status : Status) (failed : status ≠ .ok) :
    ∃ fault, Permitted fault ∧
      fault.command address size (fun _ _ => 0xFF) m = status.report t.settled := by
  rcases tried with kept | left
  · refine ⟨⟨status, fun _ old _ => old⟩, ⟨fun ok => absurd ok failed, ?_⟩, ?_⟩
    · intro offset old want
      refine ⟨BitVec.allOnes 8, ?_⟩
      rw [BitVec.and_allOnes, BitVec.not_allOnes, BitVec.and_zero, BitVec.or_zero]
    · rw [command_kept, kept]
  · refine ⟨fate.fault status, ⟨fun ok => absurd ok failed, fate.bitwise⟩, ?_⟩
    have result : t.settled = (eraseJob fate address size).result m := left
    have base : (eraseJob fate address size).address = address := by
      show address - address % size = address
      rw [aligned, Nat.sub_zero]
    rw [result]
    unfold Job.result
    rw [base]
    rfl

/-- A try of the driver is a try of the abstract one, also while an earlier one keeps the
chip busy. -/
theorem erase_refines (calls : EraseCalls) (aligned : address % size = 0) :
    Op.Refines Permitted (fun fault => fault.command address size fun _ _ => 0xFF)
      (erase size calls address) (Erasable size address)
      (Op.outcome Idle (Erasable size address) Settled) := by
  apply Op.refines_of_run
  intro c m ready
  have held := erase_ensures calls aligned ready
  unfold Op.Ensures at held
  generalize erase size calls address c = result at held
  obtain ⟨exit, t⟩ := result
  cases exit with
  | cut =>
      obtain ⟨fault, permits, run⟩ := tried_explained held aligned .cut (by decide)
      exact ⟨fault, t.settled, permits, run, rfl⟩
  | done ok =>
      cases ok with
      | false =>
          obtain ⟨tried, job⟩ := held
          obtain ⟨fault, permits, run⟩ := tried_explained tried aligned .error (by decide)
          exact ⟨fault, t.settled, permits, run, rfl, job⟩
      | true => exact ⟨.clean, _, clean_permitted, rfl, held⟩

theorem bspQspiEraseBlock64K_refines (calls : Nat → EraseCalls)
    (aligned : address % qspiBlock64KSize = 0) :
    Op.Refines (fun faults : Nat → ChipFault => ∀ k, Permitted (faults k))
      (fun faults => Qspi.bspQspiEraseBlock64K faults address) (bspQspiEraseBlock64K calls address)
      (Erasable qspiBlock64KSize address)
      (Op.outcome Idle (Erasable qspiBlock64KSize address) Settled) :=
  Op.Refines.anyFrom .clean clean_permitted (fun k => erase_refines (calls k) aligned) 3 0

end Erase

/-- The chip may become ready, but starts nothing. -/
def Quiet (job : Option Job) (m : Mem) (c : W25Q) : Prop :=
  Settled c m ∧ (c.job = none ∨ c.job = job)

/-- A command that starts nothing. -/
def Harmless (effect : W25Q → W25Q) : Prop :=
  ∀ c, (effect c).settled = c.settled ∧ ((effect c).job = none ∨ (effect c).job = c.job)

theorem Harmless.quiet {effect : W25Q → W25Q} (harmless : Harmless effect) {job : Option Job}
    {m : Mem} {c : W25Q} (quiet : Quiet job m c) : Quiet job m (effect c) := by
  obtain ⟨settled, running⟩ := harmless c
  refine ⟨settled.trans quiet.1, ?_⟩
  rcases running with none | same
  · exact .inl none
  · rw [same]
    exact quiet.2

theorem harmless_id : Harmless id := fun _ => ⟨rfl, .inr rfl⟩

theorem harmless_chip (call : HalCall) : Harmless call.chip := by
  intro c
  refine ⟨call.chip_settled c, ?_⟩
  rcases call.chip_cases c with same | ⟨none, -⟩
  · exact .inr (by rw [same])
  · exact .inl none

theorem harmless_resetEnable : Harmless W25Q.resetEnable := fun _ => ⟨rfl, .inr rfl⟩

theorem harmless_enter4BAddr : Harmless W25Q.enter4BAddr := fun _ => ⟨rfl, .inr rfl⟩

theorem harmless_resetMemory : Harmless W25Q.resetMemory := by
  intro c
  unfold W25Q.resetMemory
  split
  · have none := c.finish_job
    refine ⟨Eq.trans ?_ c.finish_settled, .inl none⟩
    unfold W25Q.settled
    rw [none]
  · exact ⟨rfl, .inr rfl⟩

theorem harmless_sent {effect : W25Q → W25Q} (harmless : Harmless effect) (sent : Bool) :
    Harmless fun c => if sent then effect c else c := by
  intro c
  dsimp only
  split
  · exact harmless c
  · exact harmless_id c

section Init

variable {job : Option Job} {m : Mem} {c : W25Q}

theorem halCall_quiet (call : HalCall) {whole part : W25Q → W25Q} (first : Harmless whole)
    (second : Harmless part) (quiet : Quiet job m c) :
    Op.Ensures (halCall call whole part) c (fun _ t => Quiet job m t) (fun t => Settled t m) := by
  have found := (harmless_chip call).quiet quiet
  apply halCall_ensures
  · exact first.quiet found
  · exact second.quiet found
  · exact (second.quiet found).1

theorem halQspiCommand_quiet (call : HalCall) {effect : W25Q → W25Q} (harmless : Harmless effect)
    (quiet : Quiet job m c) :
    Op.Ensures (halQspiCommand call effect) c (fun _ t => Quiet job m t) (fun t => Settled t m) :=
  halCall_quiet call harmless (harmless_sent harmless call.sent) quiet

theorem polling_quiet (call : HalCall) (quiet : Quiet job m c) :
    Op.Ensures (qspiAutoPollingMemReady call) c (fun _ t => Quiet job m t) (fun t => Settled t m) := by
  have found := (harmless_chip call).quiet quiet
  apply halQspiAutoPolling_ensures
  · intro _
    exact found
  · exact found
  · exact found.1

/-- One step after the other, as long as each reports success. -/
theorem quiet_and {first rest : Op W25Q Bool}
    (front : Op.Ensures first c (fun _ t => Quiet job m t) (fun t => Settled t m))
    (back : ∀ t, Quiet job m t →
      Op.Ensures rest t (fun _ t => Quiet job m t) (fun t => Settled t m)) :
    Op.Ensures (do if ← first then rest else pure false) c (fun _ t => Quiet job m t)
      (fun t => Settled t m) := by
  refine Op.Ensures.bind _ front ?_
  intro ok t quiet
  cases ok with
  | true => exact back t quiet
  | false => exact quiet

theorem bspQspiInit_quiet (calls : InitCalls) (quiet : Quiet job m c) :
    Op.Ensures (bspQspiInit calls) c (fun _ t => Quiet job m t) (fun t => Settled t m) := by
  refine quiet_and (halCall_quiet calls.deInit harmless_id harmless_id quiet) fun t quiet => ?_
  refine quiet_and (halCall_quiet calls.init harmless_id harmless_id quiet) fun t quiet => ?_
  refine quiet_and (halQspiCommand_quiet calls.resetEnable harmless_resetEnable quiet)
    fun t quiet => ?_
  refine quiet_and (halQspiCommand_quiet calls.resetMemory harmless_resetMemory quiet)
    fun t quiet => ?_
  exact quiet_and (polling_quiet calls.ready quiet) fun t quiet =>
    halQspiCommand_quiet calls.enter4B harmless_enter4BAddr quiet

/-- `BSP_QSPI_Init` keeps what the chip can be while it starts nothing. -/
theorem bspQspiInit_refines (calls : InitCalls) {R : W25Q → Mem → Prop}
    (settled : ∀ c m, R c m → Settled c m)
    (keeps : ∀ c t m, R c m → Quiet c.job m t → R t m) :
    Op.Refines (fun _ => True) (fun status => Qspi.bspQspiInit status) (bspQspiInit calls) R
      fun exit t m => match exit with
        | .done _ => R t m
        | .cut => Settled t m := by
  apply Op.refines_of_run
  intro c m related
  have held := bspQspiInit_quiet calls ⟨settled c m related, .inr rfl⟩
  unfold Op.Ensures at held
  generalize bspQspiInit calls c = result at held
  obtain ⟨exit, t⟩ := result
  cases exit with
  | cut => exact ⟨.cut, m, trivial, rfl, held⟩
  | done ok =>
      have after := keeps c t m related held
      cases ok with
      | true => exact ⟨.ok, m, trivial, rfl, after⟩
      | false => exact ⟨.error, m, trivial, rfl, after⟩

theorem Idle.quiet {t : W25Q} (idle : Idle c m) (quiet : Quiet c.job m t) : Idle t m := by
  have none : t.job = none := by
    rcases quiet.2 with none | same
    · exact none
    · rw [same, idle.1]
  have kept : t.settled = m := quiet.1
  unfold W25Q.settled at kept
  rw [none] at kept
  exact ⟨none, kept⟩

theorem Erasable.quiet {size address : Nat} {t : W25Q} (ready : Erasable size address c m)
    (quiet : Quiet c.job m t) : Erasable size address t m := by
  refine ⟨quiet.1, ?_⟩
  rcases quiet.2 with none | same
  · exact .inl none
  · rw [same]
    exact ready.2

end Init

/-- The faults of one block: of the first three tries, of the reset and the other three,
and of the reset after every eighth block. -/
structure BlockFaults where
  first : Nat → ChipFault
  reinit : Status
  second : Nat → ChipFault
  periodic : Status

def BlockFaults.Permitted (faults : BlockFaults) : Prop :=
  (∀ k, Driver.Permitted (faults.first k)) ∧ ∀ k, Driver.Permitted (faults.second k)

/-- The faults of a batch erase, put together from those of its blocks. -/
def batchFaults (faults : Nat → BlockFaults) : EraseFaults :=
  ⟨fun block => (faults block).first, fun block => (faults block).reinit,
    fun block => (faults block).second, fun block => (faults block).periodic⟩

def BlockFaults.clean : BlockFaults := ⟨fun _ => .clean, .ok, fun _ => .clean, .ok⟩

theorem BlockFaults.clean_permitted : BlockFaults.clean.Permitted :=
  ⟨fun _ => Driver.clean_permitted, fun _ => Driver.clean_permitted⟩

section Blocks

variable (calls : BlocksCalls)

/-- The reset after a failed erase, and the second one. -/
theorem eraseAgain_refines (block : Nat) {address : Nat}
    (aligned : address % qspiBlock64KSize = 0) :
    Op.Refines (fun faults : Status × (Nat → ChipFault) => True ∧ ∀ k, Permitted (faults.2 k))
      (fun faults => do
        let _ ← Qspi.bspQspiInit faults.1
        Qspi.bspQspiEraseBlock64K faults.2 address)
      (do
        let _ ← bspQspiInit (calls.reinit block)
        bspQspiEraseBlock64K (calls.second block) address)
      (Erasable qspiBlock64KSize address)
      (Op.outcome Idle (Erasable qspiBlock64KSize address) Settled) :=
  (bspQspiInit_refines (calls.reinit block) (fun _ _ ready => ready.1)
    fun _ _ _ ready quiet => ready.quiet quiet).bind (fun _ => .clean) (fun _ => clean_permitted)
    (fun _ _ lost => lost) fun _ => bspQspiEraseBlock64K_refines (calls.second block) aligned

theorem qspiEraseOrReset_refines (block : Nat) {address : Nat}
    (aligned : address % qspiBlock64KSize = 0) :
    Op.Refines BlockFaults.Permitted
      (fun faults => Qspi.qspiEraseOrReset (batchFaults fun _ => faults) block address)
      (qspiEraseOrReset calls block address) (Erasable qspiBlock64KSize address)
      (Op.outcome Idle (Erasable qspiBlock64KSize address) Settled) := by
  have tries := (bspQspiEraseBlock64K_refines (calls.first block) aligned).bind
    (T := Op.outcome Idle (Erasable qspiBlock64KSize address) Settled)
    (q := fun faults : Status × (Nat → ChipFault) => True ∧ ∀ k, Permitted (faults.2 k))
    (f := fun ok faults => if ok = true then pure true else do
      let _ ← Qspi.bspQspiInit faults.1
      Qspi.bspQspiEraseBlock64K faults.2 address)
    (g := fun ok => if ok = true then pure true else do
      let _ ← bspQspiInit (calls.reinit block)
      bspQspiEraseBlock64K (calls.second block) address)
    (.ok, fun _ => .clean) ⟨trivial, fun _ => clean_permitted⟩ (fun _ _ lost => lost) fun ok =>
      Op.Refines.ite (P := ok = true)
        (fun yes => Op.refines_pure (.ok, fun _ => .clean) ⟨trivial, fun _ => clean_permitted⟩
          fun c m after => by
            rw [yes] at after
            exact after)
        fun no => by
          rw [Bool.not_eq_true] at no
          rw [no]
          exact eraseAgain_refines calls block aligned
  exact tries.map (fun faults => ⟨faults.1, faults.2.1, faults.2.2, .ok⟩)
    (fun faults both => ⟨both.1, both.2.2⟩) fun faults => rfl

/-- After a block that was erased the chip is ready, whatever a reset reports. -/
theorem qspiErasePass_refines {start : Nat} (aligned : start % qspiBlock64KSize = 0) (block : Nat) :
    Op.Refines BlockFaults.Permitted
      (fun faults => Qspi.qspiErasePass (batchFaults fun _ => faults) start block)
      (qspiErasePass calls start block) Idle (Op.outcome Idle Settled Settled) := by
  have here : (start + block * qspiBlock64KSize) % qspiBlock64KSize = 0 := by
    rw [Nat.add_mul_mod_self_right, aligned]
  have erased : Op.Refines BlockFaults.Permitted
      (fun faults => Qspi.qspiEraseOrReset (batchFaults fun _ => faults) block
        (start + block * qspiBlock64KSize))
      (qspiEraseOrReset calls block (start + block * qspiBlock64KSize)) Idle
      (Op.outcome Idle (Erasable qspiBlock64KSize (start + block * qspiBlock64KSize)) Settled) :=
    fun c m idle => qspiEraseOrReset_refines calls block here c m idle.erasable
  have reset : Op.Refines (fun _ => True) (fun status => do
        let _ ← Qspi.bspQspiInit status
        pure true)
      (do
        let _ ← bspQspiInit (calls.periodic block)
        pure true)
      Idle (Op.outcome Idle Settled Settled) := by
    have init := (bspQspiInit_refines (calls.periodic block) (fun _ _ idle => Idle.settled idle)
      fun _ _ _ idle quiet => Idle.quiet idle quiet).bind (T := Op.outcome Idle Settled Settled)
      (q := fun _ : Unit => True) (f := fun _ _ => pure true) (g := fun _ => pure true)
      () trivial (fun _ _ lost => lost)
      fun _ => Op.refines_pure () trivial fun _ _ idle => idle
    exact init.map Prod.fst (fun _ _ => trivial) fun _ => rfl
  have pass := erased.bind (T := Op.outcome Idle Settled Settled)
    (q := fun _ : Status => True)
    (f := fun ok status => if ok = true then
        if (block + 1) % 8 = 0 then do
          let _ ← Qspi.bspQspiInit status
          pure true
        else pure true
      else pure false)
    (g := fun ok => if ok = true then
        if (block + 1) % 8 = 0 then do
          let _ ← bspQspiInit (calls.periodic block)
          pure true
        else pure true
      else pure false)
    .ok trivial (fun _ _ lost => lost) fun ok => Op.Refines.ite (P := ok = true)
      (fun yes => by
        rw [yes]
        exact Op.Refines.ite (fun _ => reset) fun _ => Op.refines_pure .ok trivial fun _ _ idle => idle)
      fun no => Op.refines_pure .ok trivial fun c m after => by
        rw [Bool.not_eq_true] at no
        rw [no] at after
        exact after.1
  exact pass.map (fun faults => { faults.1 with periodic := faults.2 })
    (fun faults both => both.1) fun faults => rfl

/-- `QSPI_Erase_Blocks` on a ready chip does what the abstract one does with some permitted
faults; if it reports success, the chip is ready again. -/
theorem qspiEraseBlocks_refines {start : Nat} (aligned : start % qspiBlock64KSize = 0) (size : Nat) :
    Op.Refines (fun faults : EraseFaults => (∀ block k, Permitted (faults.first block k)) ∧
        ∀ block k, Permitted (faults.second block k))
      (fun faults => Qspi.qspiEraseBlocks faults start size) (qspiEraseBlocks calls start size)
      Idle (Op.outcome Idle Settled Settled) := by
  have passes := Op.Refines.allFrom BlockFaults.clean BlockFaults.clean_permitted
    (qspiErasePass_refines calls aligned) ((size + qspiBlock64KSize - 1) / qspiBlock64KSize) 0
  exact passes.map batchFaults (fun faults both => ⟨fun block => (both block).1,
    fun block => (both block).2⟩) fun faults => rfl

end Blocks

/-- A call that works, after which the chip has become ready. -/
def workingCall : HalCall := ⟨true, .ok, true⟩

def workingErase : EraseCalls := ⟨workingCall, workingCall, workingCall, .completes, workingCall⟩

def workingInit : InitCalls :=
  ⟨workingCall, workingCall, workingCall, workingCall, workingCall, workingCall⟩

/-- The first try at every block gets no answer when it asks whether the chip is ready. -/
def retriedBlocks : BlocksCalls where
  first _ attempt := if attempt = 0 then { workingErase with ready := ⟨false, .error, true⟩ }
    else workingErase
  reinit _ := workingInit
  second _ _ := workingErase
  periodic _ := workingInit

theorem qspiEraseBlocks_refines_retried :
    ∃ faults : EraseFaults, ∃ m, Qspi.qspiEraseBlocks faults 0x100000 0x80000 (fun _ => 0) =
      ((qspiEraseBlocks retriedBlocks 0x100000 0x80000 ⟨fun _ => 0, false, false, none⟩).1, m) := by
  obtain ⟨faults, _, ends, _⟩ := qspiEraseBlocks_refines retriedBlocks
    (show 0x100000 % qspiBlock64KSize = 0 by decide) 0x80000 ⟨fun _ => 0, false, false, none⟩
    (fun _ => 0) ⟨rfl, rfl⟩
  exact ⟨faults, _, Prod.ext ends rfl⟩

section Busy

/-- Calls that all report success; the chip becomes ready only before the last of them. -/
def lateCalls : PageCalls :=
  let works : HalCall := ⟨false, .ok, true⟩
  ⟨works, works, works, works, 0, .completes, ⟨true, .ok, true⟩⟩

/-- While the chip is busy the latch of its running operation is taken for the one that
was asked for, the page program is ignored, and the end of the running operation for its
end. -/
theorem writePage_busy {c : W25Q} {job : Job} (busy : c.job = some job)
    (completes : job.fate = .completes) (latched : c.wel = true) (address size : Nat)
    (data : Nat → Byte) :
    writePage lateCalls address size data c =
      (.done true, ⟨job.result c.mem, false, c.resetEnabled, none⟩) := by
  obtain ⟨mem, wel, enabled, running⟩ := c
  obtain rfl : running = some job := busy
  obtain rfl : wel = true := latched
  obtain ⟨target, length, want, fate⟩ := job
  obtain rfl : fate = .completes := completes
  cases size <;> rfl

/-- A write within a page on a busy chip is reported as a success, and nothing of its data
is in the array. -/
theorem bspQspiWrite_busy {c : W25Q} {job : Job} (busy : c.job = some job)
    (completes : job.fate = .completes) (latched : c.wel = true) {address size : Nat}
    (some : 0 < size) (fits : address % qspiPageSize + size ≤ qspiPageSize) (data : Nat → Byte) :
    bspQspiWrite (fun _ => lateCalls) data address size c =
      (.done true, ⟨job.result c.mem, false, c.resetEnabled, none⟩) := by
  obtain ⟨passes, rfl⟩ : ∃ passes, size = passes + 1 := ⟨size - 1, by omega⟩
  have whole : (if passes + 1 < qspiPageSize - address % qspiPageSize then passes + 1
      else qspiPageSize - address % qspiPageSize) = passes + 1 := by
    split <;> omega
  have last : ∀ pass target offset, bspQspiWriteFrom (fun _ => lateCalls) data passes pass target offset 0 =
      pure true := by
    intro pass target offset
    cases passes <;> rfl
  unfold bspQspiWrite bspQspiWriteFrom
  rw [if_neg (Nat.succ_ne_zero passes)]
  rw [whole, Op.bind_run_done _ _ _ _ _
    (writePage_busy busy completes latched address (passes + 1) fun i => data (0 + i))]
  simp only [↓reduceIte, Nat.sub_self, last]
  rfl

/-- An erase is still running: the write of one byte next to it is lost. -/
theorem bspQspiWrite_busy_erasing :
    let erasing : W25Q := ⟨fun _ => 0xFF, true, false, some (eraseJob .completes 0x10000 qspiBlock64KSize)⟩
    (bspQspiWrite (fun _ => lateCalls) (fun _ => 0x5A) 0x300 1 erasing).1 = .done true ∧
      (bspQspiWrite (fun _ => lateCalls) (fun _ => 0x5A) 0x300 1 erasing).2.mem 0x300 = 0xFF := by
  intro erasing
  have lost := bspQspiWrite_busy (c := erasing) rfl rfl rfl (by decide : 0 < 1)
    (by decide : 0x300 % qspiPageSize + 1 ≤ qspiPageSize) fun _ => 0x5A
  rw [lost]
  exact ⟨rfl, by decide⟩

end Busy

end Driver

end OtaBoot.Qspi
