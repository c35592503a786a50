import OtaBoot.FlashGate

set_option autoImplicit false

namespace OtaBoot

open Mem

/-- With the header parsed, received data is stored if its first non-empty buffer fits. -/
def Ota.Stores (o : Ota) : List Pbuf → Prop
  | [] => False
  | p :: rest =>
    if p.payload = [] then o.Stores rest else o.received + p.payload.length ≤ otaBufSize

theorem Ota.Stores.room {o : Ota} {chain : List Pbuf} (stores : o.Stores chain) :
    o.received ≤ otaBufSize := by
  induction chain with
  | nil => exact stores.elim
  | cons p rest ih =>
      unfold Ota.Stores at stores
      split at stores
      · exact ih stores
      · omega

theorem Ota.takePbuf_overflow (o : Ota) (data : List Byte)
    (full : o.received + data.length > otaBufSize) :
    o.takePbuf data = ({ o with state := .error }, false) := by
  unfold Ota.takePbuf
  rw [if_pos full]

theorem Ota.takePbuf_append (o : Ota) (parsed : o.headerParsed = true) (data : List Byte)
    (fits : o.received + data.length ≤ otaBufSize) (some : data ≠ []) :
    o.takePbuf data = (o.append data, true) := by
  unfold Ota.takePbuf
  rw [if_neg (by omega), if_neg some, if_pos parsed]

theorem Ota.takePbuf_nil (o : Ota) (fits : o.received ≤ otaBufSize) :
    o.takePbuf [] = (o, true) := by
  unfold Ota.takePbuf
  rw [List.length_nil, if_neg (by omega), if_pos rfl]

/-- Data after the header never shortens the image. -/
theorem Ota.recvData_grows (chain : List Pbuf) : ∀ o : Ota, o.headerParsed = true →
    (o.recvData chain).headerParsed = true ∧ o.received ≤ (o.recvData chain).received := by
  induction chain with
  | nil =>
      intro o parsed
      exact ⟨parsed, Nat.le_refl _⟩
  | cons p rest ih =>
      intro o parsed
      unfold Ota.recvData
      by_cases fits : o.received + p.payload.length ≤ otaBufSize
      · by_cases none : p.payload = []
        · rw [none, o.takePbuf_nil (by omega)]
          exact ih o parsed
        · rw [o.takePbuf_append parsed p.payload fits none]
          obtain ⟨still, more⟩ := ih (o.append p.payload) parsed
          have longer : (o.append p.payload).received = o.received + p.payload.length := rfl
          refine ⟨still, ?_⟩
          show o.received ≤ ((o.append p.payload).recvData rest).received
          omega
      · rw [o.takePbuf_overflow p.payload (by omega)]
        exact ⟨parsed, Nat.le_refl _⟩

theorem Ota.recvData_stores (chain : List Pbuf) (o : Ota) (parsed : o.headerParsed = true)
    (stores : o.Stores chain) : o.received < (o.recvData chain).received := by
  induction chain with
  | nil => exact stores.elim
  | cons p rest ih =>
      have room := stores.room
      unfold Ota.Stores at stores
      unfold Ota.recvData
      by_cases none : p.payload = []
      · rw [if_pos none] at stores
        rw [none, o.takePbuf_nil room]
        exact ih stores
      · rw [if_neg none] at stores
        rw [o.takePbuf_append parsed p.payload stores none]
        have more := (Ota.recvData_grows rest (o.append p.payload) parsed).2
        have longer : (o.append p.payload).received = o.received + p.payload.length := rfl
        have positive := List.length_pos_iff.mpr none
        show o.received < ((o.append p.payload).recvData rest).received
        omega

theorem Ota.recvData_keeps (chain : List Pbuf) (o : Ota) (parsed : o.headerParsed = true)
    (refuses : ¬ o.Stores chain) : (o.recvData chain).headerParsed = true ∧
      (o.recvData chain).received = o.received ∧ (o.recvData chain).buf = o.buf := by
  induction chain with
  | nil => exact ⟨parsed, rfl, rfl⟩
  | cons p rest ih =>
      unfold Ota.Stores at refuses
      unfold Ota.recvData
      by_cases full : o.received + p.payload.length > otaBufSize
      · rw [o.takePbuf_overflow p.payload full]
        exact ⟨parsed, rfl, rfl⟩
      · by_cases none : p.payload = []
        · rw [if_pos none] at refuses
          rw [none, o.takePbuf_nil (by omega)]
          exact ih refuses
        · rw [if_neg none] at refuses
          exact absurd (by omega) refuses

/- The header is parsed from VERIFY on. -/
section Parsed

/-- Nothing is expected before the header, and VERIFY comes after it. -/
structure Ota.Header (o : Ota) : Prop where
  expected : o.expected ≠ 0 → o.headerParsed = true
  verify : o.state = .verify → o.headerParsed = true

theorem Ota.takePbuf_header (o : Ota) (held : o.expected ≠ 0 → o.headerParsed = true)
    (data : List Byte) :
    ((o.takePbuf data).1.expected ≠ 0 → (o.takePbuf data).1.headerParsed = true) ∧
      (o.headerParsed = true → (o.takePbuf data).1.headerParsed = true) := by
  unfold Ota.takePbuf
  split
  · exact ⟨held, id⟩
  · split
    · exact ⟨held, id⟩
    · split
      · exact ⟨held, id⟩
      · dsimp only
        split
        · split
          · exact ⟨held, id⟩
          · exact ⟨fun _ => rfl, fun _ => rfl⟩
        · exact ⟨held, id⟩

theorem Ota.recvData_header (chain : List Pbuf) : ∀ o : Ota,
    (o.expected ≠ 0 → o.headerParsed = true) →
    ((o.recvData chain).expected ≠ 0 → (o.recvData chain).headerParsed = true) ∧
      (o.headerParsed = true → (o.recvData chain).headerParsed = true) := by
  induction chain with
  | nil =>
      intro o held
      exact ⟨held, id⟩
  | cons p rest ih =>
      intro o held
      have one := o.takePbuf_header held p.payload
      unfold Ota.recvData
      generalize o.takePbuf p.payload = result at one ⊢
      obtain ⟨next, more⟩ := result
      cases more with
      | false => exact one
      | true =>
          obtain ⟨expected, parsed⟩ := ih next one.1
          exact ⟨expected, fun was => parsed (one.2 was)⟩

theorem Ota.header_of_empty {o : Ota} (none : o.expected = 0) (state : o.state ≠ .verify) :
    o.Header := ⟨fun some => absurd none some, fun verify => absurd verify state⟩

theorem Machine.step_header (s : Machine) (held : s.ota.Header) (input : Input) :
    (s.step input).ota.Header := by
  have move := s.step_ota input
  generalize (s.step input).ota = o at move
  cases move with
  | keep => exact held
  | reset => exact Ota.header_of_empty rfl (by simp [Ota.initial])
  | accept =>
      unfold Ota.acceptCb
      split
      · exact held
      · exact ⟨held.expected, held.verify⟩
  | data chain =>
      obtain ⟨expected, parsed⟩ := Ota.recvData_header chain s.ota held.expected
      refine ⟨expected, ?_⟩
      intro verify
      rcases (Ota.recvData_state chain s.ota).2 with same | failed
      · rw [same] at verify
        exact parsed (held.verify verify)
      · rw [failed] at verify
        cases verify
  | fin closed =>
      obtain ⟨_, _, state, fin, cause⟩ := Ota.recvFin_eq closed s.ota
      rw [fin]
      refine ⟨held.expected, ?_⟩
      intro verify
      have now : state = .verify := verify
      rcases cause with same | failed | complete
      · exact held.verify (same.symm.trans now)
      · rw [failed] at now
        cases now
      · exact held.expected complete.2.2.1
  | err closing =>
      obtain ⟨_, _, failed⟩ := Ota.fail_eq closing s.ota
      rw [failed]
      refine ⟨held.expected, ?_⟩
      intro verify
      dsimp only at verify
      split at verify
      · cases verify
      · exact held.verify verify
  | polled faults found state nor run board =>
      refine ⟨held.expected, ?_⟩
      intro verify
      have now : state = .verify := verify
      rcases otaPoll_cases faults s.ota s.board.nor nor state run with
        ⟨_, same⟩ | ⟨was, _⟩
      · exact held.verify (same.symm.trans now)
      · exact held.verify was
  | written =>
      refine ⟨held.expected, ?_⟩
      intro verify
      cases verify
  | stopped =>
      rw [Ota.serverStop_eq]
      refine ⟨held.expected, ?_⟩
      intro verify
      cases verify
  | started => exact Ota.header_of_empty rfl (by simp)
  | refused => exact Ota.header_of_empty rfl (by simp)

end Parsed

/-- This input makes `ota_recv_cb` store payload. -/
def Machine.Stores (s : Machine) (input : Input) : Prop :=
  ∃ chain, input = .receive chain ∧ s.listens = true ∧ 0 < s.ota.connected ∧
    s.ota.Stores chain

/-- Neither a reset nor `OTA_Server_Start`. -/
def Machine.SameSession (s : Machine) (input : Input) : Prop :=
  ¬ s.Starts input ∧ ∀ boot key1 qspi, input ≠ .reset boot key1 qspi

def Input.staysInSession : Input → Bool
  | .reset .. | .updateKey .. => false
  | _ => true

theorem sameSession_along (inputs : List Input) (stays : inputs.all Input.staysInSession = true)
    (s : Machine) : Run.Along Machine.step Machine.SameSession s inputs := by
  apply Run.along_of_forall
  intro input member t
  have inside := List.all_eq_true.mp stays input member
  constructor
  · rintro ⟨crc, key, result, prompt, rfl, yes⟩
    cases inside
  · rintro boot key1 qspi rfl
    cases inside

theorem Machine.step_stores (s : Machine) (parsed : s.ota.headerParsed = true) (input : Input)
    (stores : s.Stores input) :
    (s.step input).ota.headerParsed = true ∧ s.ota.received < (s.step input).ota.received := by
  obtain ⟨chain, rfl, listens, connected, inside⟩ := stores
  have step : (s.step (.receive chain)).ota = s.ota.recvData chain := by
    unfold Machine.step
    dsimp only
    rw [if_pos ⟨listens, connected⟩]
    rfl
  rw [step]
  exact ⟨(Ota.recvData_grows chain s.ota parsed).1, s.ota.recvData_stores chain parsed inside⟩

/-- Everything else in a session leaves the image alone. -/
theorem Machine.step_keeps (s : Machine) (parsed : s.ota.headerParsed = true) (input : Input)
    (session : s.SameSession input) (quiet : ¬ s.Stores input) :
    (s.step input).ota.headerParsed = true ∧
      (s.step input).ota.received = s.ota.received ∧ (s.step input).ota.buf = s.ota.buf := by
  have move := s.step_ota input
  generalize (s.step input).ota = o at move
  cases move with
  | keep | polled | written => exact ⟨parsed, rfl, rfl⟩
  | err closing =>
      obtain ⟨_, _, failed⟩ := Ota.fail_eq closing s.ota
      rw [failed]
      exact ⟨parsed, rfl, rfl⟩
  | reset boot key1 qspi found => exact absurd found (session.2 boot key1 qspi)
  | accept =>
      unfold Ota.acceptCb
      split
      · exact ⟨parsed, rfl, rfl⟩
      · exact ⟨parsed, rfl, rfl⟩
  | data chain found connected =>
      apply s.ota.recvData_keeps chain parsed
      intro stores
      exact quiet ⟨chain, found, connected.1, connected.2, stores⟩
  | fin closed =>
      obtain ⟨_, _, state, fin, _⟩ := Ota.recvFin_eq closed s.ota
      rw [fin]
      exact ⟨parsed, rfl, rfl⟩
  | stopped =>
      rw [Ota.serverStop_eq]
      exact ⟨parsed, rfl, rfl⟩
  | started starts => exact absurd starts session.1
  | refused starts => exact absurd starts session.1

/-- The image received in `s` is still the one in `t`. -/
structure Machine.SameImage (s t : Machine) : Prop where
  received : t.ota.received = s.ota.received
  content : ∀ i < s.ota.received, t.ota.buf i = s.ota.buf i

theorem Machine.sameImage_iff (s : Machine) (inputs : List Input) : ∀ t : Machine,
    s.SameImage t → t.ota.headerParsed = true →
    Run.Along Machine.step Machine.SameSession t inputs →
    (Run.Within Machine.step s.SameImage t inputs ↔
      Run.Along Machine.step (fun u input => ¬ u.Stores input) t inputs) := by
  induction inputs with
  | nil =>
      intro t same _ _
      exact iff_of_true ⟨same, trivial⟩ trivial
  | cons input rest ih =>
      intro t same parsed session
      by_cases stores : t.Stores input
      · have longer := (t.step_stores parsed input stores).2
        constructor
        · intro within
          have length := within.2.1.received
          have before := same.received
          omega
        · intro quiet
          exact absurd stores quiet.1
      · obtain ⟨still, received, buf⟩ := t.step_keeps parsed input session.1 stores
        have next : s.SameImage (t.step input) := by
          constructor
          · rw [received]
            exact same.received
          · rw [buf]
            exact same.content
        have later := ih (t.step input) next still session.2
        constructor
        · intro within
          exact ⟨stores, later.mp ⟨next, within.2.2⟩⟩
        · intro quiet
          exact ⟨same, next, (later.mpr quiet.2).2⟩

/-- What was verified is what is flashed: the image stays the same in every state, and a
write takes the length that the poll checked. -/
def Machine.FlashesVerified (s : Machine) (inputs : List Input) : Prop :=
  Run.Within Machine.step s.SameImage s inputs ∧
  ∀ before faults between input rest,
    inputs = before ++ .poll faults :: (between ++ input :: rest) →
    (Run.after Machine.step s before).ota.state = .verify →
    (Run.after Machine.step s (before ++ [.poll faults])).ota.state = .confirm →
    (Run.after Machine.step s (before ++ .poll faults :: between)).FlashWrites input →
    (Run.after Machine.step s (before ++ .poll faults :: between)).update.received =
      (Run.after Machine.step s before).ota.received

/-- From VERIFY on, exactly the sessions in which no client sends more data flash what
was verified. -/
theorem flashes_verified_iff (board : Board) (buf : Mem) (prior inputs : List Input)
    (verify : (Run.after Machine.step (.powerOff board buf) prior).ota.state = .verify)
    (session : Run.Along Machine.step Machine.SameSession
      (Run.after Machine.step (.powerOff board buf) prior) inputs) :
    (Run.after Machine.step (.powerOff board buf) prior).FlashesVerified inputs ↔
      Run.Along Machine.step (fun t input => ¬ t.Stores input)
        (Run.after Machine.step (.powerOff board buf) prior) inputs := by
  have header := Run.invariant_always (I := fun s : Machine => s.ota.Header)
    (fun s input held => s.step_header held input) prior (.powerOff board buf)
    (Ota.header_of_empty rfl (by simp [Machine.powerOff, Ota.initial]))
  generalize Run.after Machine.step (.powerOff board buf) prior = s at verify session header
  have frozen := s.sameImage_iff inputs s ⟨rfl, fun _ _ => rfl⟩ (header.verify verify) session
  constructor
  · intro flashes
    exact frozen.mp flashes.1
  · intro quiet
    have within := frozen.mpr quiet
    refine ⟨within, ?_⟩
    intro before faults between input rest split _ _ _
    have polled : (Run.after Machine.step s before).ota.received = s.ota.received := by
      rw [split] at within
      exact within.front.received
    have written : (Run.after Machine.step s (before ++ .poll faults :: between)).ota.received =
        s.ota.received := by
      have list : inputs = (before ++ .poll faults :: between) ++ input :: rest := by
        rw [split, List.append_assoc, List.cons_append]
      rw [list] at within
      exact within.front.received
    exact written.trans polled.symm

theorem flashes_verified_session :
    (Run.after Machine.step (.powerOff confirmedBoard fun _ => 0) receivedSession).FlashesVerified
      [.poll .clean, .confirmKey 121 .clean] := by
  apply (flashes_verified_iff confirmedBoard (fun _ => 0) receivedSession _ (by decide +kernel)
    (sameSession_along _ rfl _)).mpr
  refine ⟨?_, ?_, trivial⟩
  · rintro ⟨_, found, _⟩
    cases found
  · rintro ⟨_, found, _⟩
    cases found

/-- The prompt is left by another key, and a second client sends one more byte before
the answer. -/
def lateData : List Input :=
  [.confirmKey 0 .clean, .menuKey 0 .clean, .accept, .receive [⟨[0x33], by decide⟩],
    .poll .clean]

/-- One byte was verified, two are flashed. -/
theorem late_data_flashed :
    (Run.after Machine.step (.powerOff confirmedBoard fun _ => 0) receivedSession).ota.state =
      .verify ∧
    Run.Along Machine.step Machine.SameSession
      (Run.after Machine.step (.powerOff confirmedBoard fun _ => 0) receivedSession)
      (.poll .clean :: (lateData ++ [.confirmKey 121 .clean])) ∧
    ¬ (Run.after Machine.step (.powerOff confirmedBoard fun _ => 0) receivedSession).FlashesVerified
      (.poll .clean :: (lateData ++ [.confirmKey 121 .clean])) := by
  refine ⟨by decide +kernel, sameSession_along _ rfl _, ?_⟩
  intro flashes
  have same := flashes.2 [] .clean lateData (.confirmKey 121 .clean) [] rfl (by decide +kernel)
    (by decide +kernel) ⟨by decide +kernel, 121, .clean, rfl, by decide⟩
  revert same
  decide +kernel

end OtaBoot
