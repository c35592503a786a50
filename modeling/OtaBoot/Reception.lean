import OtaBoot.ReceivedImage
import Mathlib.Data.List.GetD

set_option autoImplicit false

namespace OtaBoot

open Mem

/-- The bytes that receive callbacks deliver, in order. -/
def streamOf (chains : List (List Pbuf)) : List Byte := chains.flatten.flatMap Pbuf.payload

/-- A byte stream laid out from address 0. -/
def streamMem (s : List Byte) : Mem := fun i => s.getD i 0

theorem streamMem_front (s more : List Byte) (i : Nat) (inside : i < s.length) :
    streamMem (s ++ more) i = streamMem s i := by
  unfold streamMem
  rw [List.getD_append _ _ _ _ inside]

theorem streamMem_back (s more : List Byte) (i : Nat) (past : s.length ≤ i) :
    streamMem (s ++ more) i = streamMem more (i - s.length) := by
  unfold streamMem
  rw [List.getD_append_right _ _ _ _ past]

theorem streamMem_word (s more : List Byte) (address : Nat) (inside : address + 4 ≤ s.length) :
    (streamMem (s ++ more)).word address = (streamMem s).word address := by
  apply word_congr
  intro i below
  exact streamMem_front s more (address + i) (by omega)

theorem streamMem_bytes (s : List Byte) (front : Nat) (inside : front ≤ s.length) :
    (streamMem s).bytes front (s.length - front) = s.drop front := by
  apply List.ext_getElem
  · simp only [bytes, List.length_map, List.length_range, List.length_drop]
  · intro i _ below
    rw [List.length_drop] at below
    simp only [bytes, List.getElem_map, List.getElem_range, List.getElem_drop, streamMem]
    exact List.getD_eq_getElem _ _ (by omega)

/-- The header magic and length of a stream of at least eight bytes. -/
def streamMagic (s : List Byte) : Word := (streamMem s).word 0

def streamLength (s : List Byte) : Word := (streamMem s).word 4

/-- A wrong magic, or more payload than the buffer holds. -/
def Rejected (s : List Byte) : Prop :=
  8 ≤ s.length ∧ (streamMagic s ≠ otaMagic ∨ otaBufSize < s.length - 8)

theorem Rejected.append {s : List Byte} (rejected : Rejected s) (more : List Byte) :
    Rejected (s ++ more) := by
  obtain ⟨header, reason⟩ := rejected
  have magic : streamMagic (s ++ more) = streamMagic s := streamMem_word s more 0 (by omega)
  rw [Rejected, magic, List.length_append]
  refine ⟨by omega, ?_⟩
  rcases reason with wrong | long
  · exact .inl wrong
  · exact .inr (by omega)

/-- The receiver after the bytes `s`, however they were cut. -/
inductive Reads (s : List Byte) (o : Ota) : Prop
  | header (short : s.length < 8) (state : o.state = .receiving) (parsed : o.headerParsed = false)
      (expected : o.expected = 0) (received : o.received = s.length)
      (stage : ∀ i < s.length, o.stage i = streamMem s i)
  | payload (long : 8 ≤ s.length) (magic : streamMagic s = otaMagic)
      (state : o.state = .receiving) (parsed : o.headerParsed = true)
      (expected : o.expected = (streamLength s).toNat) (received : o.received = s.length - 8)
      (fits : o.received ≤ otaBufSize) (buf : ∀ i < o.received, o.buf i = streamMem s (8 + i))
  | rejected (state : o.state = .error) (reason : Rejected s)

/-- Payload bytes extend the buffer. -/
theorem Reads.append {s : List Byte} {o : Ota} (long : 8 ≤ s.length)
    (magic : streamMagic s = otaMagic) (state : o.state = .receiving)
    (parsed : o.headerParsed = true) (expected : o.expected = (streamLength s).toNat)
    (received : o.received = s.length - 8) (buf : ∀ i < o.received, o.buf i = streamMem s (8 + i))
    (data : List Byte) (fits : o.received + data.length ≤ otaBufSize) :
    Reads (s ++ data) (o.append data) := by
  have size : (o.append data).received = o.received + data.length := rfl
  apply Reads.payload
  · rw [List.length_append]
    omega
  · exact (streamMem_word s data 0 (by omega)).trans magic
  · exact state
  · exact parsed
  · rw [show (o.append data).expected = o.expected from rfl, expected]
    exact congrArg BitVec.toNat (streamMem_word s data 4 (by omega)).symm
  · rw [size, List.length_append]
    omega
  · omega
  · intro i inside
    show o.buf.store o.received data.length (fun i => data.getD i 0) i = _
    by_cases old : i < o.received
    · rw [store_outside _ _ _ _ _ (by omega), buf i old, streamMem_front _ _ _ (by omega)]
    · rw [store_inside _ _ _ _ _ (by omega) (by omega), streamMem_back _ _ _ (by omega)]
      unfold streamMem
      congr 1
      omega

/-- The staged header bytes are the first bytes of the stream. -/
theorem stageHeader_stage {s : List Byte} {o : Ota} (received : o.received = s.length)
    (short : s.length < 8) (stage : ∀ i < s.length, o.stage i = streamMem s i) (data : List Byte)
    (i : Nat) (inside : i < min (s.length + data.length) 8) :
    (o.stageHeader data).stage i = streamMem (s ++ data) i := by
  show o.stage.store o.received (min data.length (8 - o.received)) (fun i => data.getD i 0) i = _
  by_cases old : i < s.length
  · rw [store_outside _ _ _ _ _ (by omega), stage i old, streamMem_front _ _ _ old]
  · rw [store_inside _ _ _ _ _ (by omega) (by omega), streamMem_back _ _ _ (by omega)]
    unfold streamMem
    rw [received]

theorem stageHeader_word {s : List Byte} {o : Ota} (received : o.received = s.length)
    (short : s.length < 8) (stage : ∀ i < s.length, o.stage i = streamMem s i) (data : List Byte)
    (address : Nat) (inside : address + 4 ≤ min (s.length + data.length) 8) :
    (o.stageHeader data).stage.word address = (streamMem (s ++ data)).word address := by
  apply word_congr
  intro i below
  exact stageHeader_stage received short stage data (address + i) (by omega)

theorem stageHeader_received (o : Ota) (data : List Byte) :
    (o.stageHeader data).received = o.received + min data.length (8 - o.received) := rfl

/-- A buffer that does not complete the header. -/
theorem Reads.staged {s : List Byte} {o : Ota} (state : o.state = .receiving)
    (parsed : o.headerParsed = false) (expected : o.expected = 0) (received : o.received = s.length)
    (stage : ∀ i < s.length, o.stage i = streamMem s i) (data : List Byte)
    (partly : s.length + data.length < 8) : Reads (s ++ data) (o.stageHeader data) := by
  refine .header ?_ state parsed expected ?_ ?_
  · rw [List.length_append]
    exact partly
  · rw [stageHeader_received, List.length_append]
    omega
  · intro i inside
    rw [List.length_append] at inside
    exact stageHeader_stage received (by omega) stage data i (by omega)

theorem takePbuf_staged (o : Ota) (parsed : o.headerParsed = false) (data : List Byte)
    (some : data ≠ []) (room : o.received + data.length ≤ otaBufSize) :
    o.takePbuf data =
      if (o.stageHeader data).received = 8 then
        if (o.stageHeader data).stage.word 0 ≠ otaMagic then
          ({ o.stageHeader data with state := .error }, false)
        else ((o.stageHeader data).parseHeader.append (data.drop (8 - o.received)), true)
      else (o.stageHeader data, true) := by
  unfold Ota.takePbuf
  rw [if_neg (by omega), if_neg some, parsed]
  rfl

/-- A buffer that completes the header. -/
theorem Reads.parse {s : List Byte} {o : Ota} (short : s.length < 8)
    (state : o.state = .receiving) (received : o.received = s.length)
    (stage : ∀ i < s.length, o.stage i = streamMem s i) (data : List Byte)
    (whole : 8 ≤ s.length + data.length) (bounded : data.length < 65536)
    (magic : streamMagic (s ++ data) = otaMagic) :
    Reads (s ++ data) ((o.stageHeader data).parseHeader.append (data.drop (8 - o.received))) := by
  have parts : s ++ data = (s ++ data.take (8 - s.length)) ++ data.drop (8 - s.length) := by
    rw [List.append_assoc, List.take_append_drop]
  have front : (s ++ data.take (8 - s.length)).length = 8 := by
    rw [List.length_append, List.length_take]
    omega
  have wordAt : ∀ address, address + 4 ≤ 8 →
      (streamMem (s ++ data)).word address =
        (streamMem (s ++ data.take (8 - s.length))).word address := by
    intro address inside
    rw [parts]
    exact streamMem_word _ _ address (by omega)
  rw [received, parts]
  apply Reads.append
  · omega
  · exact (wordAt 0 (by omega)).symm.trans magic
  · exact state
  · rfl
  · show ((o.stageHeader data).stage.word 4).toNat = _
    rw [stageHeader_word received short stage data 4 (by omega), wordAt 4 (by omega)]
    rfl
  · rw [front]
    rfl
  · intro i none
    exact absurd none (Nat.not_lt_zero i)
  · show 0 + _ ≤ _
    rw [List.length_drop]
    simp only [otaBufSize]
    omega

theorem takePbuf_reads {s : List Byte} {o : Ota} (reads : Reads s o) (data : List Byte)
    (bounded : data.length < 65536) :
    Reads (s ++ data) (o.takePbuf data).1 ∧
      ((o.takePbuf data).2 = false → (o.takePbuf data).1.state = .error ∧ Rejected (s ++ data)) := by
  cases reads with
  | rejected state reason =>
      have kept : (o.takePbuf data).1.state = .error := by
        rcases (o.takePbuf_state data).2 with same | failed
        · rw [same, state]
        · exact failed
      exact ⟨.rejected kept (reason.append data), fun _ => ⟨kept, reason.append data⟩⟩
  | payload long magic state parsed expected received fits buf =>
      by_cases full : o.received + data.length > otaBufSize
      · have reason : Rejected (s ++ data) := by
          rw [Rejected, List.length_append]
          exact ⟨by omega, .inr (by omega)⟩
        rw [o.takePbuf_overflow data full]
        exact ⟨.rejected rfl reason, fun _ => ⟨rfl, reason⟩⟩
      · by_cases none : data = []
        · subst none
          rw [o.takePbuf_nil fits, List.append_nil]
          exact ⟨.payload long magic state parsed expected received fits buf, by simp⟩
        · rw [o.takePbuf_append parsed data (by omega) none]
          exact ⟨Reads.append long magic state parsed expected received buf data (by omega), by simp⟩
  | header short state parsed expected received stage =>
      have room : o.received + data.length ≤ otaBufSize := by
        simp only [otaBufSize]
        omega
      by_cases none : data = []
      · subst none
        rw [o.takePbuf_nil (by omega), List.append_nil]
        exact ⟨.header short state parsed expected received stage, by simp⟩
      · rw [takePbuf_staged o parsed data none room]
        have size := stageHeader_received o data
        by_cases whole : 8 ≤ s.length + data.length
        · have magic : (o.stageHeader data).stage.word 0 = streamMagic (s ++ data) :=
            stageHeader_word received short stage data 0 (by omega)
          rw [if_pos (by omega), magic]
          by_cases right : streamMagic (s ++ data) = otaMagic
          · rw [if_neg (not_not.mpr right)]
            exact ⟨Reads.parse short state received stage data whole bounded right, by simp⟩
          · rw [if_pos right]
            have reason : Rejected (s ++ data) := by
              rw [Rejected, List.length_append]
              exact ⟨whole, .inl right⟩
            exact ⟨.rejected rfl reason, fun _ => ⟨rfl, reason⟩⟩
        · rw [if_neg (by omega)]
          exact ⟨Reads.staged state parsed expected received stage data (by omega), by simp⟩

/-- One callback reads its whole chain, also when it returns early. -/
theorem recvData_reads (chain : List Pbuf) : ∀ (s : List Byte) (o : Ota), Reads s o →
    Reads (s ++ chain.flatMap Pbuf.payload) (o.recvData chain) := by
  induction chain with
  | nil =>
      intro s o reads
      rw [List.flatMap_nil, List.append_nil]
      exact reads
  | cons p rest ih =>
      intro s o reads
      have one := takePbuf_reads reads p.payload p.short
      rw [List.flatMap_cons, ← List.append_assoc]
      unfold Ota.recvData
      generalize o.takePbuf p.payload = result at one
      obtain ⟨next, more⟩ := result
      cases more with
      | true => exact ih _ next one.1
      | false =>
          obtain ⟨failed, reason⟩ := one.2 rfl
          exact .rejected failed (reason.append _)

theorem session_reads (chains : List (List Pbuf)) : ∀ (s : List Byte) (o : Ota), Reads s o →
    Reads (s ++ streamOf chains) (chains.foldl Ota.recvData o) := by
  induction chains with
  | nil =>
      intro s o reads
      rw [show streamOf [] = [] from rfl, List.append_nil]
      exact reads
  | cons chain rest ih =>
      intro s o reads
      have split : streamOf (chain :: rest) = chain.flatMap Pbuf.payload ++ streamOf rest := by
        unfold streamOf
        rw [List.flatten_cons, List.flatMap_append]
      rw [split, ← List.append_assoc, List.foldl_cons]
      exact ih _ _ (recvData_reads chain s o reads)

theorem serverStart_reads (o : Ota) : Reads [] (o.serverStart .listening).1.acceptCb := by
  have fresh : (o.serverStart .listening).1.acceptCb.state = .receiving ∧
      (o.serverStart .listening).1.acceptCb.headerParsed = false ∧
      (o.serverStart .listening).1.acceptCb.expected = 0 ∧
      (o.serverStart .listening).1.acceptCb.received = 0 := ⟨rfl, rfl, rfl, rfl⟩
  exact .header (by decide) fresh.1 fresh.2.1 fresh.2.2.1 fresh.2.2.2
    fun i none => absurd none (Nat.not_lt_zero i)

/-- A session of one client, from the start of the server to the client's close: lwIP's
`tcp_close` of a connection whose peer has closed returns `ERR_OK` also when it has to put
off the FIN. -/
def Ota.session (o : Ota) (chains : List (List Pbuf)) : Ota :=
  (chains.foldl Ota.recvData (o.serverStart .listening).1.acceptCb).recvFin true

theorem recvFin_closed (o : Ota) :
    (o.recvFin true).state =
        (if o.state = .receiving then
          if o.expected ≠ 0 ∧ o.expected ≤ o.received then .verify else .error
        else o.state) ∧
      (o.recvFin true).expected = o.expected ∧ (o.recvFin true).received = o.received ∧
      (o.recvFin true).buf = o.buf := by
  unfold Ota.recvFin
  by_cases receiving : o.state = .receiving
  · by_cases complete : o.expected ≠ 0 ∧ o.expected ≤ o.received
    · simp only [↓reduceIte, receiving, complete.1, complete.2, ne_eq, not_false_eq_true, and_self]
    · simp only [↓reduceIte, receiving, complete, and_self]
  · simp only [↓reduceIte, receiving, and_self]

/-- What the stream alone decides. -/
def Incomplete (s : List Byte) : Prop :=
  s.length < 8 ∨ streamMagic s ≠ otaMagic ∨ otaBufSize < s.length - 8 ∨
    streamLength s = 0 ∨ s.length - 8 < (streamLength s).toNat

theorem reads_incomplete {s : List Byte} {o : Ota} (reads : Reads s o)
    (incomplete : Incomplete s) : (o.recvFin true).state = .error := by
  rw [(recvFin_closed o).1]
  cases reads with
  | rejected state reason =>
      rw [if_neg (by rw [state]; decide)]
      exact state
  | header short state parsed expected received stage =>
      rw [if_pos state, if_neg (fun complete => complete.1 expected)]
  | payload long magic state parsed expected received fits buf =>
      rw [if_pos state, if_neg]
      rintro ⟨nonzero, enough⟩
      rcases incomplete with short | wrong | large | zero | less
      · omega
      · exact wrong magic
      · omega
      · rw [zero] at expected
        exact nonzero expected
      · omega

theorem reads_complete {s : List Byte} {o : Ota} (reads : Reads s o)
    (complete : ¬ Incomplete s) :
    (o.recvFin true).state = .verify ∧
      (o.recvFin true).expected = (streamLength s).toNat ∧
      (o.recvFin true).received = s.length - 8 ∧
      (o.recvFin true).buf.bytes 0 (o.recvFin true).received = s.drop 8 := by
  unfold Incomplete at complete
  push Not at complete
  obtain ⟨long, magic, bounded, nonzero, enough⟩ := complete
  cases reads with
  | rejected state reason =>
      rcases reason.2 with wrong | large
      · exact absurd magic wrong
      · omega
  | header short state parsed expected received stage => omega
  | payload _ _ state parsed expected received fits buf =>
      obtain ⟨verdict, sameExpected, sameReceived, sameBuf⟩ := recvFin_closed o
      have positive : (streamLength s).toNat ≠ 0 := by
        intro zero
        exact nonzero (BitVec.eq_of_toNat_eq zero)
      rw [if_pos state, if_pos (by omega)] at verdict
      refine ⟨verdict, by rw [sameExpected, expected], by rw [sameReceived, received], ?_⟩
      rw [sameBuf, sameReceived, ← streamMem_bytes s 8 long, received]
      apply bytes_congr
      intro i inside
      rw [Nat.zero_add]
      exact buf i (by omega)

/-- Segmentation does not matter: the end of a session depends only on the bytes that
were sent, not on how they were cut into callbacks and buffers. -/
theorem session_decided_by_stream (o : Ota) (chains : List (List Pbuf)) :
    (Incomplete (streamOf chains) → (o.session chains).state = .error) ∧
    (¬ Incomplete (streamOf chains) →
      (o.session chains).state = .verify ∧
        (o.session chains).expected = (streamLength (streamOf chains)).toNat ∧
        (o.session chains).received = (streamOf chains).length - 8 ∧
        (o.session chains).buf.bytes 0 (o.session chains).received = (streamOf chains).drop 8) := by
  have reads := session_reads chains [] _ (serverStart_reads o)
  rw [List.nil_append] at reads
  exact ⟨reads_incomplete reads, reads_complete reads⟩

/-- The header of a one-byte image cut in the middle of its magic, an empty buffer, and
the rest together with the image. -/
def segmented : List (List Pbuf) :=
  [[⟨[0x4F, 0x54], by decide⟩, ⟨[], by decide⟩],
    [⟨[0x41, 0x00, 0x01, 0x00, 0x00, 0x00, 0x22], by decide⟩]]

theorem session_decided_by_stream_segmented :
    ((Ota.initial fun _ => 0).session segmented).state = .verify ∧
      ((Ota.initial fun _ => 0).session segmented).received = 1 ∧
      ((Ota.initial fun _ => 0).session segmented).buf 0 = 0x22 := by
  have whole : ¬ Incomplete (streamOf segmented) := by
    unfold Incomplete
    decide
  obtain ⟨state, -, received, buf⟩ :=
    (session_decided_by_stream (Ota.initial fun _ => 0) segmented).2 whole
  have length : (streamOf segmented).length - 8 = 1 := by decide
  have image : (streamOf segmented).drop 8 = [0x22] := by decide
  rw [length] at received
  rw [received, image] at buf
  exact ⟨state, received, List.head_eq_of_cons_eq buf⟩

end OtaBoot
