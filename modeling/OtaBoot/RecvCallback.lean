import OtaBoot.FlashGate
import OtaBoot.Lib.Checked

set_option autoImplicit false

/- The receiver of `ota.c` with its 32-bit counters, with the loops of `ota_recv_cb` as they
are written, and with every copy and every counter computation checked. -/
namespace OtaBoot.OtaC

open Checked

/-- The variables that the callbacks use. -/
structure Vars where
  serverPcb : Bool
  clientPcb : Bool
  state : OtaState
  headerParsed : Bool
  expected : Word
  received : Word
  stage : Mem
  buf : Mem

namespace Vars

def initial (buf : Mem) : Vars where
  serverPcb := false
  clientPcb := false
  state := .idle
  headerParsed := false
  expected := 0
  received := 0
  stage := fun _ => 0
  buf := buf

def otaErrCb (v : Vars) : Vars :=
  { v with clientPcb := false, state := if v.state = .receiving then .error else v.state }

/-- Aborting the client runs `ota_err_cb`. -/
def otaServerStop (v : Vars) : Vars :=
  let v := if v.clientPcb then v.otaErrCb else v
  { v with clientPcb := false, serverPcb := false, state := .idle }

def otaServerStart (result : StartResult) (v : Vars) : Vars :=
  let v := { v.otaServerStop with
    state := .receiving
    headerParsed := false
    expected := 0
    received := 0 }
  match result with
  | .newFails => { v with state := .error }
  | .bindFails => { v with serverPcb := true }.otaServerStop
  | .listenFails => v
  | .listening => { v with serverPcb := true }

def otaAcceptCb (v : Vars) : Vars :=
  if v.clientPcb then v else { v with clientPcb := true }

/-- `ota_recv_cb` with no buffer. A pcb that cannot be closed is aborted. -/
def recvFin (closed : Bool) (v : Vars) : Vars :=
  let v := { v with clientPcb := false }
  let v := if closed then v else v.otaErrCb
  if v.state = .receiving then
    if v.expected ≠ 0 ∧ v.expected ≤ v.received then { v with state := .verify }
    else { v with state := .error }
  else v

end Vars

/-- How a pass of the `while` loop ends: it goes on with `data` and `len`, or the callback
returns. -/
inductive Pass
  | again (v : Vars) (data : List Byte) (len : Word)
  | returned (v : Vars)

/-- The branch that fills `ota_stage`. -/
def headerPass (v : Vars) (data : List Byte) (len : Word) : Checked Pass := do
  -- The source subtracts as `int`; a negative difference would make `take` all of `len`.
  let need ← subWord 8 v.received
  let take := if len < need then len else need
  let stage ← copyInto 8 v.stage v.received take data
  let received ← addWord v.received take
  let left ← subWord len take
  let v := { v with stage := stage, received := received }
  if received = 8 then
    if stage.word 0 ≠ otaMagic then pure (.returned { v with state := .error })
    else
      let v := { v with expected := stage.word 4, received := 0, headerParsed := true }
      pure (.again v (data.drop take.toNat) left)
  else pure (.again v (data.drop take.toNat) left)

/-- The branch that fills `ota_buf`. -/
def payloadPass (v : Vars) (data : List Byte) (len : Word) : Checked Pass := do
  let buf ← copyInto otaBufSize v.buf v.received len data
  let received ← addWord v.received len
  pure (.again { v with buf := buf, received := received } (data.drop len.toNat) 0)

/-- The `while (len > 0)` loop, for so many passes; the flag is false if the callback
returns there. -/
def recvWhile : Nat → Vars → List Byte → Word → Checked (Vars × Bool)
  | 0, v, _, len => if len = 0 then .done (v, true) else .unfinished
  | passes + 1, v, data, len =>
    if len = 0 then .done (v, true)
    else do
      match ← (if v.headerParsed then payloadPass v data len else headerPass v data len) with
      | .returned v => pure (v, false)
      | .again v data len => recvWhile passes v data len

/-- One buffer of the chain. -/
def recvBuffer (passes : Nat) (v : Vars) (q : Pbuf) : Checked (Vars × Bool) := do
  let len := BitVec.ofNat 32 q.payload.length
  let total ← addWord v.received len
  if BitVec.ofNat 32 otaBufSize < total then pure ({ v with state := .error }, false)
  else recvWhile passes v q.payload len

/-- `ota_recv_cb` with data: the `for` loop through the chain. -/
def otaRecvCb (passes : Nat) : Vars → List Pbuf → Checked Vars
  | v, [] => pure v
  | v, q :: rest => do
    match ← recvBuffer passes v q with
    | (v, true) => otaRecvCb passes v rest
    | (v, false) => pure v

/-- What happens to the receiver, in any order. The main loop stops it, and otherwise only
writes `ota_state`. -/
inductive Event
  | start (result : StartResult)
  | stop
  | accept
  | data (chain : List Pbuf)
  | fin (closed : Bool)
  | err
  | mainLoop (state : OtaState)

def step (passes : Nat) (v : Vars) : Event → Checked Vars
  | .start result => pure (v.otaServerStart result)
  | .stop => pure v.otaServerStop
  | .accept => pure v.otaAcceptCb
  | .data chain => otaRecvCb passes v chain
  | .fin closed => pure (v.recvFin closed)
  | .err => pure v.otaErrCb
  | .mainLoop state => pure { v with state := state }

/-- A run ends at the first call that faults or does not return. -/
def run (passes : Nat) : Vars → List Event → Checked Vars
  | v, [] => pure v
  | v, event :: rest => do
    let v ← step passes v event
    run passes v rest

/-- The receiver of the model that holds these variables. What they do not say, it has from
`rest`. -/
def Vars.ota (v : Vars) (rest : Ota) : Ota :=
  { rest with
    serverPcb := v.serverPcb
    clientPcb := v.clientPcb
    state := v.state
    headerParsed := v.headerParsed
    expected := v.expected.toNat
    received := v.received.toNat
    stage := v.stage
    buf := v.buf }

/-- Before the header is complete `ota_received` counts its bytes, after that those of the
payload; a complete header that has not been taken has a bad magic. -/
structure Bounded (o : Ota) : Prop where
  header : o.headerParsed = false → o.received < 8 ∨ o.received = 8 ∧ o.stage.word 0 ≠ otaMagic
  payload : o.headerParsed = true → o.received ≤ otaBufSize
  expected : o.expected < 4294967296

theorem Bounded.received {o : Ota} (bounded : Bounded o) : o.received ≤ otaBufSize := by
  cases parsed : o.headerParsed with
  | true => exact bounded.payload parsed
  | false =>
      have short := bounded.header parsed
      simp only [otaBufSize]
      omega

theorem Bounded.staged {o : Ota} (bounded : Bounded o) (parsed : o.headerParsed = false) :
    o.received ≤ 8 := by
  have short := bounded.header parsed
  omega

/-- The payload branch copies and counts all of its data. -/
theorem payloadPass_done {v : Vars} {data : List Byte} {len : Word} (rest : Ota)
    (whole : len.toNat = data.length) (room : v.received.toNat + data.length ≤ otaBufSize) :
    ∃ w : Vars, payloadPass v data len = .done (.again w [] 0) ∧
      w.ota rest = (v.ota rest).append data := by
  have fits : v.received.toNat + len.toNat < 4294967296 := by
    simp only [otaBufSize] at room
    omega
  obtain ⟨received, added, counted⟩ := addWord_done fits
  have inside : v.received.toNat + len.toNat ≤ otaBufSize := by
    rw [whole]
    exact room
  have copied := copyInto_done inside (Nat.le_of_eq whole) v.buf
  refine ⟨{ v with
    buf := v.buf.store v.received.toNat len.toNat fun i => data.getD i 0
    received := received }, ?_, ?_⟩
  · unfold payloadPass
    rw [copied, done_bind, added, done_bind, whole, List.drop_length]
    rfl
  · simp only [Vars.ota, Ota.append, counted, whole]

/-- The header branch copies what is missing of the header, as far as the data goes. -/
theorem headerPass_done {v : Vars} {data : List Byte} {len : Word} (rest : Ota)
    (whole : len.toNat = data.length) (short : v.received.toNat ≤ 8) :
    ∃ (w : Vars) (left : Word), w.ota rest = (v.ota rest).stageHeader data ∧
      left.toNat = data.length - (8 - v.received.toNat) ∧
      headerPass v data len = .done (
        if w.received = 8 then
          if w.stage.word 0 ≠ otaMagic then .returned { w with state := .error }
          else .again { w with expected := w.stage.word 4, received := 0, headerParsed := true }
            (data.drop (min data.length (8 - v.received.toNat))) left
        else .again w (data.drop (min data.length (8 - v.received.toNat))) left) := by
  obtain ⟨need, subtracted, missing⟩ : ∃ need : Word, subWord 8 v.received = .done need ∧
      need.toNat = 8 - v.received.toNat := subWord_done short
  obtain ⟨take, chosen, taken⟩ : ∃ take : Word, (if len < need then len else need) = take ∧
      take.toNat = min data.length (8 - v.received.toNat) := by
    refine ⟨_, rfl, ?_⟩
    rw [← missing, ← whole]
    split
    · rename_i fewer
      rw [BitVec.lt_def] at fewer
      omega
    · rename_i more
      rw [BitVec.lt_def] at more
      omega
  have copied := copyInto_done (show v.received.toNat + take.toNat ≤ 8 by omega)
    (show take.toNat ≤ data.length by omega) v.stage
  obtain ⟨received, added, counted⟩ := addWord_done
    (show v.received.toNat + take.toNat < 4294967296 by omega)
  obtain ⟨left, dropped, remains⟩ := subWord_done (show take.toNat ≤ len.toNat by omega)
  refine ⟨{ v with
    stage := v.stage.store v.received.toNat take.toNat fun i => data.getD i 0
    received := received }, left, ?_, by omega, ?_⟩
  · simp only [Vars.ota, Ota.stageHeader, counted, taken]
  · unfold headerPass
    rw [subtracted, done_bind]
    dsimp only
    rw [chosen, copied, done_bind, added, done_bind, dropped, done_bind, taken]
    by_cases complete : received = 8
    · rw [if_pos complete, if_pos complete]
      split
      · rfl
      · rfl
    · rw [if_neg complete, if_neg complete]
      rfl

theorem recvWhile_over (passes : Nat) (v : Vars) (data : List Byte) :
    recvWhile passes v data 0 = .done (v, true) := by
  cases passes with
  | zero => exact if_pos rfl
  | succ passes => exact if_pos rfl

theorem append_nothing (o : Ota) : o.append [] = o := by
  have same : (o.buf.store o.received 0 fun i => [].getD i 0) = o.buf := by
    funext i
    exact Mem.store_outside _ _ _ _ _ (by omega)
  unfold Ota.append
  rw [List.length_nil, same, Nat.add_zero]

/-- In the payload one pass is enough. -/
theorem recvWhile_payload {v : Vars} {data : List Byte} {len : Word} (rest : Ota)
    (parsed : v.headerParsed = true) (whole : len.toNat = data.length)
    (room : v.received.toNat + data.length ≤ otaBufSize) :
    ∃ w : Vars, (∀ passes, recvWhile (passes + 1) v data len = .done (w, true)) ∧
      w.ota rest = (v.ota rest).append data := by
  by_cases empty : len = 0
  · subst empty
    obtain rfl : data = [] := List.length_eq_zero_iff.mp whole.symm
    exact ⟨v, fun passes => recvWhile_over _ v [], (append_nothing _).symm⟩
  · obtain ⟨w, pass, appended⟩ := payloadPass_done rest whole room
    refine ⟨w, ?_, appended⟩
    intro passes
    rw [recvWhile, if_neg empty, if_pos parsed, pass, done_bind]
    exact recvWhile_over passes w []

/-- What follows a header that is complete and good goes to the start of `ota_buf`. -/
theorem recvWhile_parsed {v : Vars} {data : List Byte} {len : Word} (rest : Ota)
    (whole : len.toNat = data.length) (room : data.length ≤ otaBufSize) :
    ∃ w : Vars, (∀ passes, recvWhile (passes + 1) { v with
        expected := v.stage.word 4, received := 0, headerParsed := true } data len = .done (w, true)) ∧
      w.ota rest = (v.ota rest).parseHeader.append data := by
  apply recvWhile_payload rest rfl whole
  show 0 + data.length ≤ otaBufSize
  omega

theorem recvWhile_returned {v w : Vars} {data : List Byte} {len : Word} (some : ¬ len = 0)
    (parsed : v.headerParsed = false) (pass : headerPass v data len = .done (.returned w))
    (passes : Nat) : recvWhile (passes + 1) v data len = .done (w, false) := by
  rw [recvWhile, if_neg some, if_neg (by rw [parsed]; decide), pass]
  rfl

theorem recvWhile_again {v w : Vars} {data more : List Byte} {len left : Word} (some : ¬ len = 0)
    (parsed : v.headerParsed = false) (pass : headerPass v data len = .done (.again w more left))
    (passes : Nat) : recvWhile (passes + 1) v data len = recvWhile passes w more left := by
  rw [recvWhile, if_neg some, if_neg (by rw [parsed]; decide), pass]
  rfl

/-- In the header two passes are enough: after the first the buffer is used up, or the
callback returns, or what is left belongs to the payload. -/
theorem recvWhile_header {v : Vars} {data : List Byte} {len : Word} (rest : Ota)
    (parsed : v.headerParsed = false) (short : v.received.toNat ≤ 8) (nonempty : data ≠ [])
    (whole : len.toNat = data.length) (room : data.length ≤ otaBufSize) :
    ∃ (w : Vars) (flag : Bool), (∀ passes, recvWhile (passes + 2) v data len = .done (w, flag)) ∧
      (w.ota rest, flag) =
        (let staged := (v.ota rest).stageHeader data
        if staged.received = 8 then
          if staged.stage.word 0 ≠ otaMagic then ({ staged with state := .error }, false)
          else (staged.parseHeader.append (data.drop (8 - v.received.toNat)), true)
        else (staged, true)) := by
  have some : ¬ len = 0 := by
    intro zero
    rw [zero] at whole
    exact nonempty (List.length_eq_zero_iff.mp whole.symm)
  obtain ⟨w, left, staged, remains, pass⟩ := headerPass_done rest whole short
  have counted : w.received.toNat = v.received.toNat + min data.length (8 - v.received.toNat) :=
    congrArg Ota.received staged
  rw [← staged]
  by_cases complete : w.received = 8
  · have eight : w.received.toNat = 8 := by
      rw [complete]
      rfl
    have filled : (w.ota rest).received = 8 := eight
    have taken : min data.length (8 - v.received.toNat) = 8 - v.received.toNat := by omega
    rw [if_pos complete, taken] at pass
    dsimp only
    rw [if_pos filled]
    by_cases bad : (w.ota rest).stage.word 0 ≠ otaMagic
    · have magic : w.stage.word 0 ≠ otaMagic := bad
      rw [if_pos magic] at pass
      rw [if_pos bad]
      exact ⟨{ w with state := .error }, false, fun passes => recvWhile_returned some parsed pass _, rfl⟩
    · have magic : ¬ w.stage.word 0 ≠ otaMagic := bad
      rw [if_neg magic] at pass
      rw [if_neg bad]
      have behind : left.toNat = (data.drop (8 - v.received.toNat)).length := by
        rw [List.length_drop, remains]
      obtain ⟨t, ends, appended⟩ := recvWhile_parsed (v := w) rest behind (by omega)
      refine ⟨t, true, ?_, by rw [appended]⟩
      intro passes
      rw [recvWhile_again some parsed pass, ends]
  · have partly : ¬ (w.ota rest).received = 8 := by
      intro eight
      exact complete (BitVec.eq_of_toNat_eq eight)
    have fewer : data.length < 8 - v.received.toNat := by
      have unfilled : w.received.toNat ≠ 8 := partly
      omega
    have nothing : left = 0 := BitVec.eq_of_toNat_eq (by rw [remains]; show _ = 0; omega)
    rw [if_neg complete, nothing] at pass
    dsimp only
    rw [if_neg partly]
    refine ⟨w, true, ?_, rfl⟩
    intro passes
    rw [recvWhile_again some parsed pass]
    exact recvWhile_over _ w _

theorem payload_len (q : Pbuf) : (BitVec.ofNat 32 q.payload.length).toNat = q.payload.length := by
  have short := q.short
  rw [BitVec.toNat_ofNat]
  show _ % 4294967296 = _
  omega

/-- The test for the end of `ota_buf` does not wrap. -/
theorem recvBuffer_eq {v : Vars} (counter : v.received.toNat ≤ otaBufSize) (passes : Nat)
    (q : Pbuf) :
    recvBuffer passes v q =
      if v.received.toNat + q.payload.length > otaBufSize then .done ({ v with state := .error }, false)
      else recvWhile passes v q.payload (BitVec.ofNat 32 q.payload.length) := by
  have short := q.short
  have whole := payload_len q
  obtain ⟨total, added, sum⟩ := addWord_done
    (show v.received.toNat + (BitVec.ofNat 32 q.payload.length).toNat < 4294967296 by
      simp only [otaBufSize] at counter
      omega)
  have exceeds : BitVec.ofNat 32 otaBufSize < total ↔
      v.received.toNat + q.payload.length > otaBufSize := by
    rw [BitVec.lt_def, sum, whole]
    rfl
  unfold recvBuffer
  dsimp only
  rw [added, done_bind]
  by_cases full : BitVec.ofNat 32 otaBufSize < total
  · rw [if_pos full, if_pos (exceeds.mp full)]
    rfl
  · rw [if_neg full, if_neg (fun more => full (exceeds.mpr more))]

/-- One buffer: the code ends without a fault and does what the model says. -/
theorem recvBuffer_done {v : Vars} {rest : Ota} (bounded : Bounded (v.ota rest)) (q : Pbuf) :
    ∃ (w : Vars) (flag : Bool), (∀ passes, recvBuffer (passes + 2) v q = .done (w, flag)) ∧
      (v.ota rest).takePbuf q.payload = (w.ota rest, flag) := by
  have counter : v.received.toNat ≤ otaBufSize := bounded.received
  have entry := fun passes => recvBuffer_eq counter (passes + 2) q
  have whole := payload_len q
  unfold Ota.takePbuf
  by_cases overflow : (v.ota rest).received + q.payload.length > otaBufSize
  · rw [if_pos overflow]
    refine ⟨{ v with state := .error }, false, ?_, rfl⟩
    intro passes
    rw [entry]
    exact if_pos overflow
  · rw [if_neg overflow]
    have fits : ¬ v.received.toNat + q.payload.length > otaBufSize := overflow
    have loop := fun passes => (entry passes).trans (if_neg fits)
    by_cases empty : q.payload = []
    · rw [if_pos empty]
      refine ⟨v, true, ?_, rfl⟩
      intro passes
      rw [loop, empty]
      exact recvWhile_over _ v []
    · rw [if_neg empty]
      by_cases parsed : (v.ota rest).headerParsed = true
      · rw [if_pos parsed]
        obtain ⟨w, ends, appended⟩ := recvWhile_payload rest parsed whole (Nat.le_of_not_lt fits)
        refine ⟨w, true, ?_, by rw [appended]⟩
        intro passes
        rw [loop]
        exact ends (passes + 1)
      · rw [if_neg parsed]
        have unparsed : (v.ota rest).headerParsed = false := Bool.eq_false_iff.mpr parsed
        obtain ⟨w, flag, ends, same⟩ := recvWhile_header rest unparsed (bounded.staged unparsed)
          empty whole (by omega)
        refine ⟨w, flag, ?_, same.symm⟩
        intro passes
        rw [loop]
        exact ends passes

theorem Bounded.of_same {o t : Ota} (bounded : Bounded o) (parsed : t.headerParsed = o.headerParsed)
    (received : t.received = o.received) (stage : t.stage = o.stage)
    (expected : t.expected = o.expected) : Bounded t := by
  constructor
  · rw [parsed, received, stage]
    exact bounded.header
  · rw [parsed, received]
    exact bounded.payload
  · rw [expected]
    exact bounded.expected

/-- A session that has just begun. -/
theorem bounded_of_fresh {o : Ota} (parsed : o.headerParsed = false) (received : o.received = 0)
    (expected : o.expected = 0) : Bounded o :=
  ⟨fun _ => .inl (by omega), fun wrong => absurd (parsed.symm.trans wrong) (by decide), by omega⟩

/-- The counter stays in the range of the phase. -/
theorem Bounded.takePbuf {o : Ota} (bounded : Bounded o) (data : List Byte) :
    Bounded (o.takePbuf data).1 := by
  unfold Ota.takePbuf
  split
  · exact bounded.of_same rfl rfl rfl rfl
  · rename_i fits
    split
    · exact bounded
    · split
      · rename_i parsed
        refine ⟨fun unparsed => absurd (parsed.symm.trans unparsed) (by decide), fun _ => ?_,
          bounded.expected⟩
        show o.received + data.length ≤ otaBufSize
        omega
      · rename_i notParsed
        have unparsed : o.headerParsed = false := Bool.eq_false_iff.mpr notParsed
        have short := bounded.staged unparsed
        have counted : (o.stageHeader data).received =
            o.received + min data.length (8 - o.received) := rfl
        dsimp only
        split
        · rename_i complete
          split
          · rename_i bad
            refine ⟨fun _ => .inr ⟨complete, bad⟩, fun parsed => ?_, bounded.expected⟩
            exact absurd (unparsed.symm.trans parsed) (by decide)
          · refine ⟨fun wrong => Bool.noConfusion wrong, fun _ => ?_,
              ((o.stageHeader data).stage.word 4).isLt⟩
            show 0 + (data.drop (8 - o.received)).length ≤ otaBufSize
            rw [List.length_drop]
            omega
        · rename_i partly
          have fewer : (o.stageHeader data).received < 8 := by omega
          refine ⟨fun _ => .inl fewer, fun parsed => ?_, bounded.expected⟩
          exact absurd (unparsed.symm.trans parsed) (by decide)

/-- The whole chain. -/
theorem otaRecvCb_done (chain : List Pbuf) : ∀ {v : Vars} {rest : Ota}, Bounded (v.ota rest) →
    ∃ w : Vars, (∀ passes, otaRecvCb (passes + 2) v chain = .done w) ∧
      (v.ota rest).recvData chain = w.ota rest ∧ Bounded (w.ota rest) := by
  induction chain with
  | nil =>
      intro v rest bounded
      exact ⟨v, fun _ => rfl, rfl, bounded⟩
  | cons q chain ih =>
      intro v rest bounded
      obtain ⟨w, flag, ends, taken⟩ := recvBuffer_done bounded q
      have kept : Bounded (w.ota rest) := by
        have next := bounded.takePbuf q.payload
        rw [taken] at next
        exact next
      cases flag with
      | false =>
          refine ⟨w, ?_, ?_, kept⟩
          · intro passes
            rw [otaRecvCb, ends, done_bind]
            rfl
          · rw [Ota.recvData, taken]
      | true =>
          obtain ⟨t, runs, received, safe⟩ := ih kept
          refine ⟨t, ?_, ?_, safe⟩
          · intro passes
            rw [otaRecvCb, ends, done_bind]
            exact runs passes
          · rw [Ota.recvData, taken]
            exact received

/-- The same events on the receiver of the model. -/
def otaStep (o : Ota) : Event → Ota
  | .start result => (o.serverStart result).1
  | .stop => o.serverStop
  | .accept => o.acceptCb
  | .data chain => o.recvData chain
  | .fin closed => o.recvFin closed
  | .err => o.errCb
  | .mainLoop state => { o with state := state }

theorem otaServerStop_ota (v : Vars) (rest : Ota) :
    ∃ rest', (v.ota rest).serverStop = v.otaServerStop.ota rest' := by
  refine ⟨{ rest with connected := (v.ota rest).left }, ?_⟩
  rw [Ota.serverStop_eq]
  unfold Vars.otaServerStop
  cases client : v.clientPcb <;> rfl

theorem otaServerStart_ota (result : StartResult) (v : Vars) (rest : Ota) :
    ∃ rest', ((v.ota rest).serverStart result).1 = (v.otaServerStart result).ota rest' := by
  obtain ⟨stopped, same⟩ := otaServerStop_ota v rest
  unfold Ota.serverStart
  rw [same]
  cases result <;> exact ⟨stopped, rfl⟩

theorem otaAcceptCb_ota (v : Vars) (rest : Ota) :
    ∃ rest', (v.ota rest).acceptCb = v.otaAcceptCb.ota rest' := by
  unfold Ota.acceptCb Vars.otaAcceptCb
  cases client : v.clientPcb with
  | true => exact ⟨rest, if_pos client⟩
  | false =>
      have none : (v.ota rest).clientPcb = false := client
      rw [none]
      exact ⟨{ rest with connected := rest.connected + 1 }, rfl⟩

theorem recvFin_ota (closed : Bool) (v : Vars) (rest : Ota) :
    ∃ rest', (v.ota rest).recvFin closed = (v.recvFin closed).ota rest' := by
  have complete : (v.ota rest).expected ≠ 0 ∧ (v.ota rest).expected ≤ (v.ota rest).received ↔
      v.expected ≠ 0 ∧ v.expected ≤ v.received := by
    have zero : v.expected = 0 ↔ v.expected.toNat = 0 := BitVec.toNat_inj.symm
    exact and_congr (not_congr zero.symm) Iff.rfl
  unfold Ota.recvFin Vars.recvFin
  by_cases receiving : v.state = .receiving
  · cases closed with
    | false =>
        refine ⟨{ rest with connected := rest.connected - 1 }, ?_⟩
        simp [Ota.fail, Ota.errCb, Vars.otaErrCb, Vars.ota, receiving]
    | true =>
        refine ⟨{ rest with connected := rest.connected - 1, closing := rest.closing + 1 }, ?_⟩
        have state : (v.ota rest).state = .receiving := receiving
        simp only [↓reduceIte, state, receiving]
        by_cases enough : v.expected ≠ 0 ∧ v.expected ≤ v.received
        · rw [if_pos (complete.mpr enough), if_pos enough]
          rfl
        · rw [if_neg (fun all => enough (complete.mp all)), if_neg enough]
          rfl
  · cases closed with
    | false =>
        refine ⟨{ rest with connected := rest.connected - 1 }, ?_⟩
        simp [Ota.fail, Ota.errCb, Vars.otaErrCb, Vars.ota, receiving]
    | true =>
        refine ⟨{ rest with connected := rest.connected - 1, closing := rest.closing + 1 }, ?_⟩
        have state : ¬ (v.ota rest).state = .receiving := receiving
        simp only [↓reduceIte, state, receiving]
        rfl

theorem Bounded.serverStop {o : Ota} (bounded : Bounded o) : Bounded o.serverStop := by
  rw [Ota.serverStop_eq]
  exact bounded.of_same rfl rfl rfl rfl

theorem serverStart_bounded (o : Ota) (result : StartResult) : Bounded (o.serverStart result).1 := by
  rw [Ota.serverStart_eq]
  cases result <;> exact bounded_of_fresh rfl rfl rfl

theorem Bounded.acceptCb {o : Ota} (bounded : Bounded o) : Bounded o.acceptCb := by
  unfold Ota.acceptCb
  split
  · exact bounded
  · exact bounded.of_same rfl rfl rfl rfl

theorem Bounded.recvFin {o : Ota} (bounded : Bounded o) (closed : Bool) :
    Bounded (o.recvFin closed) := by
  obtain ⟨left, held, state, same, -⟩ := o.recvFin_eq closed
  rw [same]
  exact bounded.of_same rfl rfl rfl rfl

/-- Every event ends without a fault and does what it does in the model. -/
theorem step_done {v : Vars} {rest : Ota} (bounded : Bounded (v.ota rest)) (event : Event) :
    ∃ (w : Vars) (rest' : Ota), (∀ passes, step (passes + 2) v event = .done w) ∧
      otaStep (v.ota rest) event = w.ota rest' ∧ Bounded (w.ota rest') := by
  cases event with
  | start result =>
      obtain ⟨rest', same⟩ := otaServerStart_ota result v rest
      refine ⟨_, rest', fun _ => rfl, same, ?_⟩
      rw [← same]
      exact serverStart_bounded _ result
  | stop =>
      obtain ⟨rest', same⟩ := otaServerStop_ota v rest
      refine ⟨_, rest', fun _ => rfl, same, ?_⟩
      rw [← same]
      exact bounded.serverStop
  | accept =>
      obtain ⟨rest', same⟩ := otaAcceptCb_ota v rest
      refine ⟨_, rest', fun _ => rfl, same, ?_⟩
      rw [← same]
      exact bounded.acceptCb
  | data chain =>
      obtain ⟨w, runs, same, safe⟩ := otaRecvCb_done chain bounded
      exact ⟨w, rest, runs, same, safe⟩
  | fin closed =>
      obtain ⟨rest', same⟩ := recvFin_ota closed v rest
      refine ⟨_, rest', fun _ => rfl, same, ?_⟩
      rw [← same]
      exact bounded.recvFin closed
  | err => exact ⟨_, rest, fun _ => rfl, rfl, bounded.of_same rfl rfl rfl rfl⟩
  | mainLoop state => exact ⟨_, rest, fun _ => rfl, rfl, bounded.of_same rfl rfl rfl rfl⟩

theorem run_done (events : List Event) : ∀ {v : Vars} {rest : Ota}, Bounded (v.ota rest) →
    ∃ (w : Vars) (rest' : Ota), (∀ passes, run (passes + 2) v events = .done w) ∧
      Run.after otaStep (v.ota rest) events = w.ota rest' ∧ Bounded (w.ota rest') := by
  induction events with
  | nil =>
      intro v rest bounded
      exact ⟨v, rest, fun _ => rfl, rfl, bounded⟩
  | cons event events ih =>
      intro v rest bounded
      obtain ⟨t, other, stepped, same, safe⟩ := step_done bounded event
      obtain ⟨w, rest', runs, after, final⟩ := ih safe
      refine ⟨w, rest', ?_, ?_, final⟩
      · intro passes
        rw [run, stepped, done_bind, runs]
      · rw [Run.after_cons, same, after]

/-- Whatever happens to the receiver in whatever order, every call of `ota_recv_cb` returns
after at most two passes for each buffer, no copy leaves `ota_stage` or `ota_buf`, no
counter wraps, and the variables are those of the model. -/
theorem otaRecvCb_safe (buf : Mem) (events : List Event) :
    ∃ (v : Vars) (rest : Ota),
      (∀ passes, run (passes + 2) (Vars.initial buf) events = .done v) ∧
      Run.after otaStep (Ota.initial buf) events = v.ota rest := by
  have start : (Vars.initial buf).ota (Ota.initial buf) = Ota.initial buf := rfl
  have bounded : Bounded ((Vars.initial buf).ota (Ota.initial buf)) := bounded_of_fresh rfl rfl rfl
  obtain ⟨v, rest, runs, after, -⟩ := run_done events bounded
  rw [start] at after
  exact ⟨v, rest, runs, after⟩

-- A counter past the header, which no run reaches, would be a fault.
example : otaRecvCb 2 { Vars.initial (fun _ => 0) with received := 9 } [⟨[0], by decide⟩] =
    .fault .wrap := rfl

/-- A receiver within its bounds is one of 32-bit counters. -/
theorem Bounded.vars {o : Ota} (bounded : Bounded o) : ∃ v : Vars, v.ota o = o := by
  have counter := bounded.received
  have expected : (BitVec.ofNat 32 o.expected).toNat = o.expected := by
    rw [BitVec.toNat_ofNat]
    exact Nat.mod_eq_of_lt bounded.expected
  have received : (BitVec.ofNat 32 o.received).toNat = o.received := by
    rw [BitVec.toNat_ofNat]
    show _ % 4294967296 = _
    simp only [otaBufSize] at counter
    omega
  refine ⟨⟨o.serverPcb, o.clientPcb, o.state, o.headerParsed, BitVec.ofNat 32 o.expected,
    BitVec.ofNat 32 o.received, o.stage, o.buf⟩, ?_⟩
  unfold Vars.ota
  rw [expected, received]

/-- The callback in a receiver within its bounds. -/
theorem Bounded.recvData {o : Ota} (bounded : Bounded o) (chain : List Pbuf) :
    ∃ v w : Vars, v.ota o = o ∧ (∀ passes, otaRecvCb (passes + 2) v chain = .done w) ∧
      o.recvData chain = w.ota o ∧ Bounded (o.recvData chain) := by
  obtain ⟨v, same⟩ := bounded.vars
  obtain ⟨w, runs, received, safe⟩ := otaRecvCb_done chain (show Bounded (v.ota o) by rwa [same])
  rw [same] at received
  exact ⟨v, w, same, runs, received, by rwa [received]⟩

/-- The bounds hold whatever the whole bootloader does. -/
theorem step_bounded (s : Machine) (bounded : Bounded s.ota) (input : Input) :
    Bounded (s.step input).ota := by
  have move := s.step_ota input
  generalize (s.step input).ota = t at move
  cases move with
  | keep => exact bounded
  | reset boot key1 qspi found => exact bounded_of_fresh rfl rfl rfl
  | accept => exact bounded.acceptCb
  | data chain found connected =>
      obtain ⟨_, _, _, _, _, safe⟩ := bounded.recvData chain
      exact safe
  | fin closed found => exact bounded.recvFin closed
  | err closing =>
      obtain ⟨left, held, same⟩ := s.ota.fail_eq closing
      rw [same]
      exact bounded.of_same rfl rfl rfl rfl
  | polled faults found state nor run board => exact bounded.of_same rfl rfl rfl rfl
  | written => exact bounded.of_same rfl rfl rfl rfl
  | stopped => exact bounded.serverStop
  | started starts crc prompt listening connected => exact bounded_of_fresh rfl rfl rfl
  | refused starts crc connected => exact bounded_of_fresh rfl rfl rfl

/-- In every state that the bootloader reaches from reset, the callback as it is written
computes what the model of the bootloader takes it to compute. -/
theorem machine_recvData (board : Board) (buf : Mem) (inputs : List Input) (chain : List Pbuf) :
    let o := (Run.after Machine.step (.powerOff board buf) inputs).ota
    ∃ v w : Vars, v.ota o = o ∧ (∀ passes, otaRecvCb (passes + 2) v chain = .done w) ∧
      o.recvData chain = w.ota o := by
  intro o
  have bounded : Bounded o := Run.invariant_always (I := fun s : Machine => Bounded s.ota)
    (fun s input held => step_bounded s held input) inputs (.powerOff board buf)
    (bounded_of_fresh rfl rfl rfl)
  obtain ⟨v, w, same, runs, received, -⟩ := bounded.recvData chain
  exact ⟨v, w, same, runs, received⟩

end OtaBoot.OtaC
