import OtaBoot.Recovery
import OtaBoot.Footprint
import OtaBoot.BootPhase
import OtaBoot.KnownGood
import OtaBoot.JumpWatch

set_option autoImplicit false

/- The life of the stored record over whole runs, and which update a firmware on trial
comes from. -/
namespace OtaBoot

namespace Metadata

/-- What a record says about the firmware in Bank 2: version, CRC and size. -/
def current (record : Metadata) : List Word :=
  [record.curMajor, record.curMinor, record.curPatch, record.crc32, record.fwSize]

/-- The record is torn, or it has this state and says this about Bank 2. -/
def Like (record : Metadata) (state : Word) (current : List Word) : Prop :=
  record.state = stateEmpty ∨ record.state = state ∧ record.current = current

theorem like_self (record : Metadata) : record.Like record.state record.current := .inr ⟨rfl, rfl⟩

theorem Like.trans {found old : Metadata} {state : Word} {current : List Word}
    (like : found.Like old.state old.current) (before : old.Like state current) :
    found.Like state current := by
  rcases like with torn | ⟨sameState, sameCurrent⟩
  · exact .inl torn
  · unfold Like
    rw [sameState, sameCurrent]
    exact before

end Metadata

/-- A write leaves the record that it finds, or one like the record that it is given: all
that is said about Bank 2 is in the first flash word. -/
theorem memory_like (stage : MetaStage) (record : Metadata) (m : Mem) :
    metadataRead (stage.memory record m) = metadataRead m ∨
      (metadataRead (stage.memory record m)).Like record.state record.current := by
  cases stage with
  | unchanged => exact .inl rfl
  | erased =>
      rw [metadataRead_erased]
      exact .inr (.inl rfl)
  | half =>
      rw [metadataRead_half]
      exact .inr (.inr ⟨rfl, rfl⟩)
  | full =>
      rw [metadataRead_full]
      exact .inr (.inr ⟨rfl, rfl⟩)

theorem record_written {b t : Board} {stage : MetaStage} {record : Metadata}
    (sector1 : t.sector1 = stage.memory record b.sector1) :
    t.record = b.record ∨ t.record.Like record.state record.current := by
  unfold Board.record
  rw [sector1]
  exact memory_like stage record b.sector1

/-- A write keeps what holds of every record like the one it is given. -/
theorem preserves_recordWrite {P : Metadata → Prop} (faults : MetaFaults) {record : Metadata}
    (stored : ∀ found : Metadata, found.Like record.state record.current → P found) :
    Op.Preserves (fun b : Board => P b.record) (onSector1 (metadataWrite faults record)) := by
  intro b before
  rw [recordWrite_run]
  have either := record_written (b := b) (t := { b with
    sector1 := faults.stage.memory record b.sector1 }) rfl
  rcases either with same | like
  · rw [same]
    exact before
  · exact stored _ like

/-- Where the record's sector is not in the footprint, the record stays. -/
theorem WritesIn.record {α : Type} {areas : List Area} {c : Op Board α} (writes : WritesIn areas c)
    (apart : Area.record ∉ areas) : Op.Keeps Board.record c := by
  intro b
  have sector : (c b).2.sector1 = b.sector1 := by
    funext i
    refine writes (.sector1, i) ?_ b
    rintro ⟨area, found, has⟩
    cases area with
    | record => exact apart found
    | slot => exact nomatch has.1
    | staging => exact nomatch has.1
    | backup => exact nomatch has.1
  unfold Board.record
  rw [sector]

section Operations

variable (old : Metadata)

/-- The record is like the old one. -/
abbrev RecordKept (b : Board) : Prop := b.record.Like old.state old.current

theorem kept_recordBackup (faults : MetaFaults) :
    Op.Preserves (RecordKept old) (recordBackup faults) := by
  intro b kept
  have write : Op.Preserves (RecordKept old) (onSector1 (metadataWrite faults b.record.backedUp)) :=
    preserves_recordWrite (P := fun found => found.Like old.state old.current) faults
      fun found like => like.trans kept
  exact write.bind (fun _ => Op.preserves_pure ()) b kept

theorem kept_backupSlotA (faults : ManualBackupFaults) :
    Op.Preserves (RecordKept old) (backupSlotA faults) := by
  have copy : Op.Keeps Board.record (copySlotA faults) := (writes_copySlotA faults).record (by simp)
  refine (Op.preserves_gets _).bind ?_
  intro msp
  refine (Op.preserves_pure ()).ite ?_
  apply (copy.preserves fun found => found.Like old.state old.current).bind
  intro ok
  exact (kept_recordBackup old _).ite (Op.preserves_pure ())

end Operations

/-- What the record will say about an update. -/
def Update.current (update : Update) : List Word :=
  [update.major, update.minor, update.patch, update.crcExpected, BitVec.ofNat 32 update.received]

/-- The staged image is in Bank 2, and the record announces it. -/
structure Update.Published (update : Update) (staging : Mem) (t : Board) : Prop where
  record : t.record.Like statePendingUpdate update.current
  image : ∀ i < update.received, t.bank2 i = staging i

/-- The record is like the old one, and the staged image is untouched. -/
structure Update.Waits (update : Update) (old : Metadata) (staging : Mem) (t : Board) : Prop where
  record : RecordKept old t
  staged : ∀ i < update.received, t.nor i = staging i

theorem waits_of_writes {α : Type} {areas : List Area} {c : Op Board α} (writes : WritesIn areas c)
    {old : Metadata} (kept : Op.Preserves (RecordKept old) c) (apart : Area.staging ∉ areas)
    (update : Update) (fits : update.received ≤ appSize) (staging : Mem) :
    Op.Preserves (update.Waits old staging) c := by
  intro t waits
  refine ⟨kept t waits.record, ?_⟩
  intro i inside
  have outside : ∀ area ∈ areas, ¬ area.Has (.nor, i) := by
    intro area found has
    cases area with
    | record => exact nomatch has.1
    | slot => exact nomatch has.1
    | staging => exact apart found
    | backup =>
        have upper : backupOffset ≤ i := has.2.1
        simp only [appSize, backupOffset] at fits upper
        omega
  exact (writes.run t (.nor, i) outside).trans (waits.staged i inside)

theorem installImage_publishes (faults : UpdateFaults) {update : Update}
    (fits : update.received ≤ appSize) {old : Metadata} {staging : Mem} {t : Board}
    (waits : update.Waits old staging t) :
    Op.Ensures (installImage faults update) t
      (fun _ u => RecordKept old u ∨ update.Published staging u)
      (fun u => RecordKept old u ∨ update.Published staging u) := by
  have kept : ∀ u, OnlyBank2 t u appSize → RecordKept old u := by
    intro u only
    have same : u.record = t.record := by
      unfold Board.record
      rw [only.sector1]
    unfold RecordKept
    rw [same]
    exact waits.record
  refine Op.Ensures.bind _ ((writeSlot_ensures faults update.received fits t).mono
    (fun _ _ written => written) fun u only => .inl (kept u only)) ?_
  rintro ok u ⟨only, written⟩
  cases ok with
  | false => exact .inl (kept u only)
  | true =>
      have publishes : Op.Preserves (fun w : Board => RecordKept old w ∨ w.record.Like statePendingUpdate
          update.current) (publishPending faults.publish update) := by
        refine (Op.preserves_gets _).bind ?_
        intro record
        exact preserves_recordWrite (P := fun found => found.Like old.state old.current ∨
          found.Like statePendingUpdate update.current) faults.publish fun found like => .inr like
      rw [if_pos rfl]
      apply Op.ensures_of_final
      refine (publishes u (.inl (kept u only))).imp_right fun record => ⟨record, ?_⟩
      intro i inside
      have bank2 : (publishPending faults.publish update u).2.bank2 = u.bank2 := by
        rw [publishPending_run]
      rw [bank2, written rfl, t.slotWritten_inside update.received i inside]
      exact waits.staged i inside

/-- Whatever fails and wherever power is lost, an update leaves a record like the old one, or
announces an image that is in Bank 2. -/
theorem otaFlashWrite_publishes (faults : UpdateFaults) {update : Update}
    (fits : update.received ≤ appSize) (b : Board) :
    RecordKept b.record (otaFlashWrite faults update b).2 ∨
      update.Published b.nor (otaFlashWrite faults update b).2 := by
  have backup : Op.Preserves (update.Waits b.record b.nor) (backupOldSlot faults.backup) :=
    waits_of_writes (writes_backupOldSlot faults.backup)
      (((writes_backupOldSlot faults.backup).record (by simp)).preserves
        fun found => found.Like b.record.state b.record.current) (by simp) update fits b.nor
  have recorded : Op.Preserves (update.Waits b.record b.nor) (recordBackup faults.recordBackup) :=
    waits_of_writes (writes_recordBackup faults.recordBackup)
      (kept_recordBackup b.record faults.recordBackup) (by simp) update fits b.nor
  have start : update.Waits b.record b.nor b := ⟨b.record.like_self, fun _ _ => rfl⟩
  apply Op.Ensures.final (P := fun t => RecordKept b.record t ∨ update.Published b.nor t)
  refine Op.Ensures.bind _ ((Op.ensures_of_final (backup b start)).mono (fun _ _ waits => waits)
    fun t waits => .inl waits.record) ?_
  intro ok t waits
  cases ok with
  | false => exact .inl waits.record
  | true =>
      refine Op.Ensures.bind _ ((Op.ensures_of_final (recorded t waits)).mono
        (fun _ _ waits => waits) fun u waits => .inl waits.record) ?_
      intro _ u waits
      exact installImage_publishes faults fits waits

/-- What one step makes of the record. -/
inductive Machine.RecordMove (s : Machine) : Input → Board → Prop
  | kept (input : Input) (t : Board) (like : RecordKept s.board.record t) : RecordMove s input t
  | tried (boot : Boot) (key1 : Bool) (qspi : Status) (t : Board)
      (pending : s.board.record.state = statePendingUpdate)
      (like : t.record.Like stateTesting s.board.record.current) :
      RecordMove s (.reset boot key1 qspi) t
  | rolledBack (boot : Boot) (key1 : Bool) (qspi : Status) (t : Board)
      (testing : s.board.record.state = stateTesting)
      (watchdog : (s.board.reset boot.cause).watchdog)
      (confirmed : t.record.state = stateConfirmed) : RecordMove s (.reset boot key1 qspi) t
  | restored (faults : MenuFaults) (t : Board) (found : s.loc = .menu)
      (confirmed : t.record.state = stateConfirmed) : RecordMove s (.menuKey key4 faults) t
  | accepted (faults : MetaFaults) (t : Board) (found : s.loc = .app)
      (testing : s.board.record.state = stateTesting)
      (confirmed : t.record.state = stateConfirmed) : RecordMove s (.appConfirm faults) t
  | published (key : Nat) (faults : UpdateFaults) (t : Board) (found : s.loc = .confirm)
      (yes : isYes key = true) (published : s.update.Published s.board.nor t) :
      RecordMove s (.confirmKey key faults) t

namespace Machine

variable (s : Machine)

theorem RecordMove.of_record {s : Machine} {t : Board} (input : Input)
    (same : t.record = s.board.record) : s.RecordMove input t := by
  apply RecordMove.kept
  unfold RecordKept
  rw [same]
  exact s.board.record.like_self

theorem RecordMove.of_sector1 {s : Machine} {t : Board} (input : Input)
    (same : t.sector1 = s.board.sector1) : s.RecordMove input t :=
  .of_record input (congrArg metadataRead same)

/-- A write of a confirmed record. -/
theorem RecordMove.confirmed {s : Machine} {input : Input} {t : Board} {stage : MetaStage}
    {record : Metadata} (sector1 : t.sector1 = stage.memory record s.board.sector1)
    (state : record.state = stateConfirmed)
    (move : t.record.state = stateConfirmed → s.RecordMove input t) : s.RecordMove input t := by
  rcases record_written sector1 with kept | torn | ⟨confirmed, -⟩
  · exact .of_record input kept
  · exact .kept input t (.inl torn)
  · exact move (confirmed.trans state)

theorem main_record (boot : Boot) (key1 : Bool) (qspi : Status) :
    s.RecordMove (.reset boot key1 qspi) (s.main boot key1 qspi).board := by
  obtain ⟨inited, board⟩ := s.main_board boot key1 qspi
  have sector : (s.main boot key1 qspi).board.sector1 = (boot.run s.board).2.sector1 := by
    rw [board]
  generalize (s.main boot key1 qspi).board = final at sector
  have phase := boot_phase boot s.board
  generalize (boot.run s.board).1 = exit at phase
  generalize (boot.run s.board).2 = t at phase sector
  cases phase with
  | menu _ _ same => exact .of_sector1 _ (sector.trans same.sector1)
  | stay _ _ _ same => exact .of_sector1 _ (sector.trans same.sector1)
  | direct _ _ _ _ same => exact .of_sector1 _ (sector.trans same.sector1)
  | stopped _ _ _ _ _ _ sector1 _ => exact .of_sector1 _ (sector.trans sector1)
  | trial _ _ pending _ _ _ sector1 =>
      rcases record_written (sector.trans sector1) with kept | like
      · exact .of_record _ kept
      · exact .tried boot key1 qspi final pending like
  | restored _ _ testing completed _ _ _ sector1 =>
      have branch := bootBranch_testing s.board boot.cause testing
      rw [completed.1] at branch
      have watchdog : (s.board.reset boot.cause).watchdog := by
        by_contra clear
        rw [if_neg clear] at branch
        exact nomatch branch
      exact .confirmed (sector.trans sector1) rfl
        (.rolledBack boot key1 qspi final testing watchdog)

theorem menuKey_record (found : s.loc = .menu) (key : Nat) (faults : MenuFaults) :
    s.RecordMove (.menuKey key faults) (s.menuKey key faults).board := by
  rw [s.menuKey_board]
  by_cases three : key = key3
  · rw [if_pos three]
    exact .kept _ _ (kept_backupSlotA s.board.record faults.backup s.board s.board.record.like_self)
  · rw [if_neg three]
    by_cases four : key = key4
    · rw [if_pos four, four]
      have phase := restoreSlotA_phase faults.restore faults.record s.board
      generalize (restoreSlotA faults.restore faults.record s.board).2 = t at phase
      cases phase with
      | stopped _ _ only _ => exact .of_sector1 _ only.sector1
      | restored _ _ => exact .confirmed rfl rfl (.restored faults _ found)
    · rw [if_neg four]
      exact .of_sector1 _ rfl

theorem confirmKey_record (bounded : OtaC.Bounded s.ota) (found : s.loc = .confirm) (key : Nat)
    (faults : UpdateFaults) : s.RecordMove (.confirmKey key faults) (s.confirmKey key faults).board := by
  rw [s.confirmKey_board]
  by_cases yes : isYes key = true
  · rw [if_pos yes]
    have fits : s.update.received ≤ appSize := Nat.le_trans bounded.received (by decide)
    rcases otaFlashWrite_publishes faults fits s.board with like | published
    · exact .kept _ _ like
    · exact .published key faults _ found yes published
  · rw [if_neg yes]
    exact .of_sector1 _ rfl

theorem appConfirm_record (found : s.loc = .app) (faults : MetaFaults) :
    s.RecordMove (.appConfirm faults) (s.perform (OtaBoot.appConfirm faults) .app).board := by
  rw [s.perform_board, appConfirm_run]
  by_cases testing : s.board.record.state = stateTesting
  · rw [if_pos testing]
    exact .confirmed rfl rfl (.accepted faults _ found testing)
  · rw [if_neg testing]
    exact .of_sector1 _ rfl

theorem poll_sector1 (faults : PollFaults) : (s.poll faults).board.sector1 = s.board.sector1 := by
  unfold poll
  generalize otaPoll faults s.ota s.board.nor = result
  obtain ⟨exit, nor⟩ := result
  cases exit with
  | cut => rfl
  | done state => rfl

/-- Whatever fails in it, a step makes one of these moves. -/
theorem step_record (bounded : OtaC.Bounded s.ota) (input : Input) :
    s.RecordMove input (s.step input).board := by
  have move := s.step_move input
  generalize s.step input = t at move
  cases move with
  | ignored => exact .of_sector1 _ rfl
  | reset boot key1 qspi => exact s.main_record boot key1 qspi
  | accept => exact .of_sector1 _ rfl
  | receive => exact .of_sector1 _ rfl
  | fin => exact .of_sector1 _ rfl
  | err => exact .of_sector1 _ rfl
  | poll found faults => exact .of_sector1 _ (s.poll_sector1 faults)
  | confirmKey found key faults => exact s.confirmKey_record bounded found key faults
  | menuKey found key faults => exact s.menuKey_record found key faults
  | versionChecked found result => exact .of_sector1 _ (by cases result <;> rfl)
  | promptKey crc found key result =>
      exact .of_sector1 _ (congrArg Board.sector1 (s.promptKey_board crc key result))
  | leave => exact .of_sector1 _ rfl
  | triggerCheck round found elapsed =>
      exact .of_sector1 _ (congrArg Board.sector1 (s.triggerCheck_board round elapsed))
  | appConfirm found faults => exact s.appConfirm_record found faults

end Machine

/-- The step installs the staged image on the user's word and describes it in the record. -/
structure Machine.Installs (s : Machine) (input : Input) (t : Board) : Prop where
  confirm : ∃ key faults, input = .confirmKey key faults ∧ s.loc = .confirm ∧ isYes key = true
  state : t.record.state = statePendingUpdate
  record : t.record.current = s.update.current
  image : ∀ i < s.update.received, t.bank2 i = s.board.nor i

theorem Board.OnTrial.whole {t : Board} (trial : t.OnTrial) : t.record.state ≠ stateEmpty := by
  rcases trial with pending | testing
  · rw [pending]
    decide
  · rw [testing]
    decide

theorem Board.OnTrial.unconfirmed {t : Board} (trial : t.OnTrial) :
    t.record.state ≠ stateConfirmed := by
  rcases trial with pending | testing
  · rw [pending]
    decide
  · rw [testing]
    decide

/-- What is on trial after a step was on trial before, as described, or has just been
installed. -/
theorem Machine.RecordMove.on_trial {s : Machine} {input : Input} {t : Board}
    (move : s.RecordMove input t) (trial : t.OnTrial) : s.Installs input t ∨
      s.board.OnTrial ∧ t.record.current = s.board.record.current := by
  cases move with
  | kept _ _ like =>
      obtain ⟨state, current⟩ := like.resolve_left trial.whole
      unfold Board.OnTrial at trial ⊢
      rw [state] at trial
      exact .inr ⟨trial, current⟩
  | tried boot key1 qspi _ pending like =>
      exact .inr ⟨.inl pending, (like.resolve_left trial.whole).2⟩
  | rolledBack _ _ _ _ _ _ confirmed => exact absurd confirmed trial.unconfirmed
  | restored _ _ _ confirmed => exact absurd confirmed trial.unconfirmed
  | accepted _ _ _ _ confirmed => exact absurd confirmed trial.unconfirmed
  | published key faults _ found yes published =>
      obtain ⟨state, current⟩ := published.record.resolve_left trial.whole
      exact .inl ⟨⟨key, faults, rfl, found, yes⟩, state, current, published.image⟩

/-- A trial starts with a reset that finds an update pending. -/
theorem Machine.RecordMove.starts_trial {s : Machine} {input : Input} {t : Board}
    (move : s.RecordMove input t) (before : s.board.record.state ≠ stateTesting)
    (after : t.record.state = stateTesting) : s.board.record.state = statePendingUpdate ∧
      ∃ boot key1 qspi, input = .reset boot key1 qspi := by
  have trial : t.OnTrial := .inr after
  cases move with
  | kept _ _ like => exact absurd ((like.resolve_left trial.whole).1.symm.trans after) before
  | tried boot key1 qspi _ pending _ => exact ⟨pending, boot, key1, qspi, rfl⟩
  | rolledBack _ _ _ _ _ _ confirmed => exact absurd confirmed trial.unconfirmed
  | restored _ _ _ confirmed => exact absurd confirmed trial.unconfirmed
  | accepted _ _ _ _ confirmed => exact absurd confirmed trial.unconfirmed
  | published _ _ _ _ _ published =>
      have pending := (published.record.resolve_left trial.whole).1
      rw [after] at pending
      exact absurd pending (by decide)

theorem reached_bounded (s : Machine) (bounded : OtaC.Bounded s.ota) (inputs : List Input) :
    OtaC.Bounded (Run.after Machine.step s inputs).ota :=
  Run.invariant_always (I := fun s : Machine => OtaC.Bounded s.ota)
    (fun s input holds => OtaC.step_bounded s holds input) inputs s bounded

/-- From a device without a firmware on trial: what is on trial at the end of a run was
installed by an update that the user confirmed, has been on trial since, and the record
describes that update; it is being tested only since a reset that found the update pending;
and as long as nothing has written Bank 2 since the update, the image that was staged is in it. -/
theorem record_lifecycle (board : Board) (buf : Mem) (fresh : ¬ board.OnTrial) (inputs : List Input)
    (trial : (Run.after Machine.step (.powerOff board buf) inputs).board.OnTrial) :
    ∃ before key faults rest, inputs = before ++ .confirmKey key faults :: rest ∧
      let asked := Run.after Machine.step (.powerOff board buf) before
      let installed := asked.step (.confirmKey key faults)
      let final := Run.after Machine.step (.powerOff board buf) inputs
      asked.loc = .confirm ∧ isYes key = true ∧
        Run.Within Machine.step (fun t => t.board.OnTrial ∧
          t.board.record.current = asked.update.current) installed rest ∧
        (final.board.record.state = stateTesting →
          ∃ waiting boot key1 qspi tested, rest = waiting ++ .reset boot key1 qspi :: tested ∧
            (Run.after Machine.step installed waiting).board.record.state = statePendingUpdate ∧
            Run.Within Machine.step (fun t => t.board.record.state = stateTesting)
              ((Run.after Machine.step installed waiting).step (.reset boot key1 qspi)) tested) ∧
        (Run.Along Machine.step (fun t input => Area.slot ∉ t.areas input) installed rest →
          ∀ i < asked.ota.received, final.board.bank2 i = asked.board.nor i) := by
  -- The bound on the receiver's count holds in every state that the machine reaches.
  let sets (s : Machine) (input : Input) : Prop :=
    (s.step input).board.OnTrial ∧ (OtaC.Bounded s.ota → s.Installs input (s.step input).board)
  let keeps (s : Machine) (input : Input) : Prop :=
    (s.step input).board.OnTrial ∧ (s.step input).board.record.current = s.board.record.current
  have one : ∀ s input, (s.step input).board.OnTrial ↔
      sets s input ∨ s.board.OnTrial ∧ keeps s input := by
    intro s input
    constructor
    · intro after
      by_cases bounded : OtaC.Bounded s.ota
      · rcases (s.step_record bounded input).on_trial after with installs | ⟨was, same⟩
        · exact .inl ⟨after, fun _ => installs⟩
        · exact .inr ⟨was, after, same⟩
      · exact .inl ⟨after, fun holds => absurd holds bounded⟩
    · rintro (set | kept)
      · exact set.1
      · exact kept.2.1
  rcases (Run.flag_after (F := fun s : Machine => s.board.OnTrial) one inputs _).mp trial with
    ⟨was, -⟩ | ⟨before, event, rest, split, ⟨entered, installs⟩, kept⟩
  · exact absurd was fresh
  · have bounded := reached_bounded _ (powerOff_bounded board buf) before
    obtain ⟨⟨key, faults, rfl, found, yes⟩, pending, record, image⟩ := installs bounded
    refine ⟨before, key, faults, rest, split, ?_⟩
    intro asked installed final
    have settled : OtaC.Bounded installed.ota := OtaC.step_bounded asked bounded _
    have ends : final = Run.after Machine.step installed rest := by
      show Run.after Machine.step (.powerOff board buf) inputs = _
      rw [split, Run.after_append]
      rfl
    rw [ends]
    refine ⟨found, yes, ?_, ?_, ?_⟩
    · refine ⟨⟨entered, record⟩, ?_⟩
      exact Run.invariant_along
        (I := fun t : Machine => t.board.record.current = asked.update.current)
        (fun t input described stays => stays.2.trans described)
        (fun t input described stays => ⟨stays.1, stays.2.trans described⟩) rest installed record kept
    · intro testing
      rcases Run.within_or_entered (F := fun t : Machine => t.board.record.state = stateTesting)
        installed rest testing with whole | ⟨waiting, event, tested, cut, other, within⟩
      · have tests : installed.board.record.state = stateTesting := whole.1
        rw [pending] at tests
        exact absurd tests (by decide)
      · have move := (Run.after Machine.step installed waiting).step_record
          (reached_bounded installed settled waiting) event
        obtain ⟨waits, boot, key1, qspi, rfl⟩ := move.starts_trial other within.1
        exact ⟨waiting, boot, key1, qspi, tested, cut, waits, within⟩
    · intro apart i inside
      have same := Run.invariant_after
        (I := fun t : Machine => OtaC.Bounded t.ota ∧ t.board.bank2 i = asked.board.nor i)
        (fun t input holds free => ⟨OtaC.step_bounded t holds.1 input,
          (congrFun (t.bank2_of_areas holds.1 input free) i).trans holds.2⟩) rest installed
        ⟨settled, image i inside⟩ apart
      exact same.2

/-- A confirmed device, booted into the menu and updated. -/
def updatedRun : List Input :=
  rescue ⟨.powerOn, .clean⟩ .ok .clean ⟨.clean, .clean, .clean⟩
      (crc32Calculate segmentedUpload.image) ⟨0, 2, 0⟩ ++
    (segmentedUpload.reception ++ segmentedUpload.installation)

theorem updatedRun_onTrial :
    (Run.after Machine.step (.powerOff confirmedBoard fun _ => 0) updatedRun).board.OnTrial := by
  let boot : Boot := ⟨.powerOn, .clean⟩
  have powered : boot.faults.Powered := BootFaults.clean_powered
  have on : Status.ok ≠ .cut := by decide
  obtain ⟨prompt, eth⟩ := (Machine.powerOff confirmedBoard fun _ => 0).after_rescue powered on .clean
    ⟨.clean, .clean, .clean⟩ (crc32Calculate segmentedUpload.image) ⟨0, 2, 0⟩
  unfold updatedRun
  rw [Run.after_append]
  exact .inr (segmentedUpload_works.tried _ prompt eth).2.2.state

theorem record_lifecycle_updatedRun :
    ∃ before key faults rest, updatedRun = before ++ .confirmKey key faults :: rest ∧
      (Run.after Machine.step (.powerOff confirmedBoard fun _ => 0) before).loc = .confirm ∧
      isYes key = true := by
  have fresh : ¬ confirmedBoard.OnTrial := by
    unfold Board.OnTrial
    rw [confirmedBoard_state]
    decide
  obtain ⟨before, key, faults, rest, split, found, yes, -⟩ :=
    record_lifecycle confirmedBoard (fun _ => 0) fresh updatedRun updatedRun_onTrial
  exact ⟨before, key, faults, rest, split, found, yes⟩

end OtaBoot
