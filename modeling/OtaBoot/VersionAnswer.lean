import OtaBoot.VersionFinal

set_option autoImplicit false

namespace OtaBoot

open CString (Token)

abbrev carriageReturn : Byte := 0x0D

/-- The texts of the three fields after `RESP`. -/
structure Offer where
  version : List Byte
  length : List Byte
  crc : List Byte

/-- `RESP|version|length|crc`. -/
def Offer.text (offer : Offer) : List Byte :=
  respTag ++ (offer.version ++ fieldSeparator :: (offer.length ++ fieldSeparator :: offer.crc))

def LineEnd (eol : List Byte) : Prop := eol = [lineFeed] ∨ eol = [carriageReturn, lineFeed]

/-- One line with three fields, none of them empty. A CR before the LF belongs to the end
of the line. -/
structure Offers (line : List Byte) (offer : Offer) : Prop where
  line : ∃ eol, LineEnd eol ∧ line = offer.text ++ eol
  version : Token fieldSeparator offer.version
  length : Token fieldSeparator offer.length
  crc : Token fieldSeparator offer.crc
  single : lineFeed ∉ offer.text
  stripped : offer.crc.getLast? ≠ some carriageReturn

/-- The variables hold the values of the fields. -/
structure VersionCheck.Holds (v : VersionCheck) (offer : Offer) : Prop where
  version : v.version = offer.version.take 15
  length : v.length = CString.strtoul 10 offer.length
  crc : v.crc = CString.strtoul 16 offer.crc

theorem LineEnd.spaces {eol : List Byte} (ends : LineEnd eol) :
    ∀ b ∈ eol, CString.isSpace b = true := by
  rcases ends with rfl | rfl
  · decide
  · decide

theorem LineEnd.last {eol : List Byte} (ends : LineEnd eol) (text : List Byte) :
    (text ++ eol).getLast? = some lineFeed := by
  rcases ends with rfl | rfl
  · rw [List.getLast?_append]
    rfl
  · rw [List.getLast?_append]
    rfl

/-- The last field is taken together with the end of the line. -/
theorem LineEnd.token {eol field : List Byte} (ends : LineEnd eol)
    (good : Token fieldSeparator field) : Token fieldSeparator (field ++ eol) := by
  refine ⟨List.append_ne_nil_of_left_ne_nil good.nonempty eol, ?_⟩
  intro b found
  rcases List.mem_append.mp found with inField | atEnd
  · exact good.plain b inField
  · have plain : ∀ c ∈ eol, c ≠ fieldSeparator ∧ c ≠ 0 := by
      rcases ends with rfl | rfl
      · decide
      · decide
    exact plain b atEnd

namespace VersionCheck

/-- Before the end of a line that begins with `RESP|` the buffer is split at its
separators. -/
theorem parse_offers {v : VersionCheck} {offer : Offer} (offers : Offers v.resp offer) :
    v.parse.Holds offer := by
  obtain ⟨eol, ends, line⟩ := offers.line
  have visible : fieldSeparator ≠ 0 := by decide
  have tag : Token fieldSeparator [0x52, 0x45, 0x53, 0x50] := ⟨by decide, by decide⟩
  have buffer : v.resp = [] ++ ([0x52, 0x45, 0x53, 0x50] ++ fieldSeparator ::
      (offer.version ++ fieldSeparator :: (offer.length ++ fieldSeparator ::
        (offer.crc ++ eol)))) := by
    rw [line]
    simp [Offer.text]
  have first := CString.strtok_token visible tag [] (offer.version ++ fieldSeparator ::
    (offer.length ++ fieldSeparator :: (offer.crc ++ eol)))
  have second := CString.strtok_token visible offers.version ([] ++ [0x52, 0x45, 0x53, 0x50] ++ [0])
    (offer.length ++ fieldSeparator :: (offer.crc ++ eol))
  have third := CString.strtok_token visible offers.length
    ([] ++ [0x52, 0x45, 0x53, 0x50] ++ [0] ++ offer.version ++ [0]) (offer.crc ++ eol)
  have last := CString.strtok_last (ends.token offers.crc)
    ([] ++ [0x52, 0x45, 0x53, 0x50] ++ [0] ++ offer.version ++ [0] ++ offer.length ++ [0])
  rw [List.length_nil, ← buffer] at first
  unfold parse
  rw [first]
  dsimp only
  rw [second]
  dsimp only
  rw [third]
  dsimp only
  rw [last]
  refine ⟨?_, rfl, ?_⟩
  · exact CString.strncpy_eq (fun b found => (offers.version.plain b found).2) 15
  · exact CString.strtoul_spaces 16 ends.spaces offer.crc

/-- After the split `v_resp` no longer begins with `RESP|`. -/
theorem parse_resp {v : VersionCheck} (tagged : CString.strncmpEq v.resp respTag = true) :
    v.parse.resp.length = v.resp.length ∧ v.parse.resp[4]? = some 0 := by
  have front : v.resp.take 5 = respTag := eq_of_beq tagged
  have tag : Token fieldSeparator [0x52, 0x45, 0x53, 0x50] := ⟨by decide, by decide⟩
  have buffer : v.resp = [] ++ ([0x52, 0x45, 0x53, 0x50] ++ fieldSeparator :: v.resp.drop 5) := by
    conv_lhs => rw [← List.take_append_drop 5 v.resp, front]
    rfl
  have first := CString.strtok_token (show fieldSeparator ≠ 0 by decide) tag [] (v.resp.drop 5)
  rw [List.length_nil, ← buffer] at first
  have nul : (CString.strtok fieldSeparator v.resp 0).2.1[4]? = some 0 := by
    rw [first]
    rfl
  have length := CString.strtok_length fieldSeparator v.resp 0
  unfold parse
  -- The later calls only add NULs.
  generalize CString.strtok fieldSeparator v.resp 0 = result at nul length ⊢
  obtain ⟨tag, buf, offset⟩ := result
  have nul := CString.strtok_nul fieldSeparator offset nul
  have length := (CString.strtok_length fieldSeparator buf offset).trans length
  dsimp only
  generalize CString.strtok fieldSeparator buf offset = result at nul length ⊢
  obtain ⟨version, buf, offset⟩ := result
  have nul := CString.strtok_nul fieldSeparator offset nul
  have length := (CString.strtok_length fieldSeparator buf offset).trans length
  dsimp only
  generalize CString.strtok fieldSeparator buf offset = result at nul length ⊢
  obtain ⟨size, buf, offset⟩ := result
  exact ⟨(CString.strtok_length fieldSeparator buf offset).trans length,
    CString.strtok_nul fieldSeparator offset nul⟩

theorem strncmpEq_nul {buf : List Byte} (nul : buf[4]? = some 0) :
    CString.strncmpEq buf respTag = false := by
  rw [Bool.eq_false_iff]
  intro tagged
  have front : buf.take 5 = respTag := eq_of_beq tagged
  have fifth : (buf.take 5)[4]? = some 0 := by
    rw [List.getElem?_take_of_lt (by decide), nul]
  rw [front] at fifth
  revert fifth
  decide

theorem take_append_take (n : Nat) (front back : List Byte) :
    (front.take n ++ back).take n = (front ++ back).take n := by
  have same : n - min n front.length = n - front.length := by omega
  rw [List.take_append, List.take_append, List.take_take, Nat.min_self, List.length_take, same]

/-- The buffer holds what fits of the bytes. -/
theorem append_resp (chain : List Pbuf) : ∀ v : VersionCheck, v.resp.length ≤ respLimit →
    (v.append chain).resp = (v.resp ++ chain.flatMap Pbuf.payload).take respLimit := by
  induction chain with
  | nil =>
      intro v fits
      rw [List.flatMap_nil, List.append_nil, List.take_of_length_le fits]
      rfl
  | cons p rest ih =>
      intro v fits
      have one : v.resp ++ p.payload.take (respLimit - v.resp.length) =
          (v.resp ++ p.payload).take respLimit := by
        rw [List.take_append, List.take_of_length_le fits]
      have next := ih { v with
        resp := v.resp ++ p.payload.take (respLimit - v.resp.length) }
        (by rw [one]; exact List.length_take_le _ _)
      show (append _ rest).resp = _
      rw [next, one, List.flatMap_cons, ← List.append_assoc, take_append_take]

/-- A line that begins with `RESP|` counts as an offer, whatever its fields. -/
theorem answer_tagged {v : VersionCheck} (tagged : CString.strncmpEq v.resp respTag = true) :
    v.answer.ok = true ∧ v.answer.resp = v.parse.resp := by
  unfold answer
  rw [if_pos tagged]
  generalize v.parse = w
  exact ⟨rfl, rfl⟩

theorem Holds.answer {v : VersionCheck} {offer : Offer}
    (tagged : CString.strncmpEq v.resp respTag = true) (holds : v.parse.Holds offer) :
    v.answer.Holds offer := by
  unfold VersionCheck.answer
  rw [if_pos tagged]
  generalize v.parse = w at holds
  exact ⟨holds.version, holds.length, holds.crc⟩

theorem answer_untagged {v : VersionCheck} (other : CString.strncmpEq v.resp respTag = false) :
    v.answer = { v with ok := false, connected := true, pcb := none, done := true } := by
  unfold answer
  rw [other, if_neg Bool.false_ne_true]

theorem append_sameAnswer (v : VersionCheck) (chain : List Pbuf) :
    v.SameAnswer (v.append chain) := by
  obtain ⟨resp, same⟩ := v.append_eq chain
  rw [same]
  exact ⟨rfl, rfl, rfl, rfl⟩

end VersionCheck

/-- The bytes of a received chain. -/
def chainBytes (chain : List Pbuf) : List Byte := chain.flatMap Pbuf.payload

/-- The version check together with what its callbacks were given: the data since the last
start that opened a connection or failed to, each with its connection, up to the moment
when `v_resp` is split into fields. -/
structure VersionLog where
  net : VersionNet
  received : List (Nat × List Byte)
  tokenised : Bool

namespace VersionLog

def initial : VersionLog := ⟨.initial, [], false⟩

/-- The bytes in the order in which they came. -/
def stream (s : VersionLog) : List Byte := s.received.flatMap Prod.snd

instance (s : VersionNet) (id : Nat) : Decidable (s.Live id) :=
  inferInstanceAs (Decidable (_ ∨ _))

def step (s : VersionLog) (event : VersionEvent) : VersionLog :=
  match event with
  | .start _ _ =>
    if s.net.check.pcb.isSome then { s with net := s.net.step event }
    else ⟨s.net.step event, [], false⟩
  | .data id chain =>
    if s.net.Live id ∧ s.tokenised = false then
      let resp := (s.net.check.append chain).resp
      ⟨s.net.step event, s.received ++ [(id, chainBytes chain)],
        decide (resp.getLast? = some lineFeed) && CString.strncmpEq resp respTag⟩
    else { s with net := s.net.step event }
  | _ => { s with net := s.net.step event }

theorem step_net (s : VersionLog) (event : VersionEvent) :
    (s.step event).net = s.net.step event := by
  cases event with
  | start result aborted =>
      simp only [step]
      split <;> rfl
  | data id chain =>
      simp only [step]
      split <;> rfl
  | connected id => rfl
  | fin id => rfl
  | lost id => rfl

/-- All that one event can do to the answer, to the buffer and to the log. -/
inductive Move (s : VersionLog) : VersionEvent → VersionLog → Prop
  | quiet (event : VersionEvent) (net : VersionNet) (same : s.net.check.SameAnswer net.check)
      (resp : net.check.resp = s.net.check.resp) (started : net.started = s.net.started) :
      Move s event { s with net := net }
  | dropped (event : VersionEvent) (net : VersionNet) (ok : net.check.ok = false)
      (resp : net.check.resp = s.net.check.resp) : Move s event { s with net := net }
  | restarted (event : VersionEvent) (net : VersionNet) (ok : net.check.ok = false)
      (resp : net.check.resp = []) : Move s event ⟨net, [], false⟩
  | more (id : Nat) (chain : List Pbuf) (net : VersionNet) (live : s.net.Live id)
      (fresh : s.tokenised = false) (check : net.check = s.net.check.append chain)
      (last : (s.net.check.append chain).resp.getLast? ≠ some lineFeed)
      (started : net.started = s.net.started) :
      Move s (.data id chain) ⟨net, s.received ++ [(id, chainBytes chain)], false⟩
  | line (id : Nat) (chain : List Pbuf) (net : VersionNet) (live : s.net.Live id)
      (fresh : s.tokenised = false) (check : net.check = (s.net.check.append chain).answer)
      (last : (s.net.check.append chain).resp.getLast? = some lineFeed)
      (started : net.started = s.net.started) :
      Move s (.data id chain) ⟨net, s.received ++ [(id, chainBytes chain)],
        CString.strncmpEq (s.net.check.append chain).resp respTag⟩
  | late (id : Nat) (chain : List Pbuf) (net : VersionNet) (spent : s.tokenised = true)
      (check : net.check = s.net.check.append chain ∨
        net.check = (s.net.check.append chain).answer)
      (started : net.started = s.net.started) : Move s (.data id chain) { s with net := net }

theorem recvData_eq (v : VersionCheck) (chain : List Pbuf) :
    ((v.recvData chain).2 = false → (v.append chain).resp.getLast? ≠ some lineFeed ∧
      (v.recvData chain).1 = v.append chain) ∧
    ((v.recvData chain).2 = true → (v.append chain).resp.getLast? = some lineFeed ∧
      (v.recvData chain).1 = (v.append chain).answer) := by
  unfold VersionCheck.recvData
  dsimp only
  by_cases last : (v.append chain).resp.getLast? = some lineFeed
  · rw [if_pos last]
    exact ⟨fun more => Bool.noConfusion more, fun _ => ⟨last, rfl⟩⟩
  · rw [if_neg last]
    exact ⟨fun _ => ⟨last, rfl⟩, fun whole => Bool.noConfusion whole⟩

theorem step_move (s : VersionLog) (event : VersionEvent) : s.Move event (s.step event) := by
  have move := s.net.step_move event
  cases event with
  | start result aborted =>
      simp only [step]
      generalize s.net.step (.start result aborted) = net at move
      cases move with
      | held id pcb =>
          rw [pcb, Option.isSome_some, if_pos rfl]
          exact .quiet _ _ ⟨rfl, rfl, rfl, rfl⟩ rfl rfl
      | started idle _ _ t cleared =>
          rw [idle, if_neg (by decide)]
          have check : (t.attempt result).check.ok = t.check.ok ∧
              (t.attempt result).check.resp = t.check.resp := by
            cases result <;> exact ⟨rfl, rfl⟩
          have fresh : t.check.ok = false ∧ t.check.resp = [] := by
            rcases cleared.check with ⟨-, same⟩ | ⟨-, same⟩
            · rw [same]
              exact ⟨rfl, rfl⟩
            · rw [same]
              exact ⟨rfl, rfl⟩
          exact .restarted _ _ (check.1.trans fresh.1) (check.2.trans fresh.2)
  | connected id =>
      show s.Move _ { s with net := s.net.step (.connected id) }
      generalize s.net.step (.connected id) = net at move
      cases move with
      | connected => exact .quiet _ _ ⟨rfl, rfl, rfl, rfl⟩ rfl rfl
      | notConnected => exact .quiet _ _ ⟨rfl, rfl, rfl, rfl⟩ rfl rfl
  | fin id =>
      show s.Move _ { s with net := s.net.step (.fin id) }
      generalize s.net.step (.fin id) = net at move
      cases move with
      | fin => exact .quiet _ _ ⟨rfl, rfl, rfl, rfl⟩ rfl rfl
      | lateFin => exact .quiet _ _ ⟨rfl, rfl, rfl, rfl⟩ rfl rfl
      | notFin => exact .quiet _ _ ⟨rfl, rfl, rfl, rfl⟩ rfl rfl
  | lost id =>
      show s.Move _ { s with net := s.net.step (.lost id) }
      generalize s.net.step (.lost id) = net at move
      cases move with
      | failed => exact .dropped _ _ rfl rfl
      | refused => exact .quiet _ _ ⟨rfl, rfl, rfl, rfl⟩ rfl rfl
      | notLost => exact .quiet _ _ ⟨rfl, rfl, rfl, rfl⟩ rfl rfl
  | data id chain =>
      simp only [step]
      generalize s.net.step (.data id chain) = net at move
      cases move with
      | part _ _ live more =>
          obtain ⟨last, check⟩ := (recvData_eq s.net.check chain).1 more
          by_cases fresh : s.tokenised = false
          · rw [if_pos ⟨live, fresh⟩, decide_eq_false last, Bool.false_and]
            exact .more id chain _ live fresh check last rfl
          · rw [if_neg (fun both => fresh both.2)]
            exact .late id chain _ (Bool.of_not_eq_false fresh) (.inl check) rfl
      | line _ _ live whole =>
          obtain ⟨last, check⟩ := (recvData_eq s.net.check chain).2 whole
          by_cases fresh : s.tokenised = false
          · rw [if_pos ⟨live, fresh⟩, decide_eq_true last, Bool.true_and]
            exact .line id chain _ live fresh check last rfl
          · rw [if_neg (fun both => fresh both.2)]
            exact .late id chain _ (Bool.of_not_eq_false fresh) (.inr check) rfl
      | lateData _ _ closing =>
          rw [if_neg (fun both => both.1.not_closing closing)]
          exact .dropped _ _ rfl rfl
      | notData _ _ deaf =>
          rw [if_neg (fun both => deaf ((s.net.registered_iff id).mpr (.inl both.1)))]
          exact .quiet _ _ ⟨rfl, rfl, rfl, rfl⟩ rfl rfl

theorem stream_received (s : VersionLog) (id : Nat) (data : List Byte) :
    (s.received ++ [(id, data)]).flatMap Prod.snd = s.stream ++ data := by
  rw [List.flatMap_append, List.flatMap_singleton]
  rfl

/-- `v_resp` is as much of the stream as it can hold, until it is split. -/
structure Follows (s : VersionLog) : Prop where
  bounded : s.net.check.resp.length ≤ respLimit
  fresh : s.tokenised = false → s.net.check.resp = s.stream.take respLimit
  spent : s.tokenised = true → s.net.check.resp[4]? = some 0
  ok : s.net.check.ok = true → s.tokenised = true

theorem Follows.append {s : VersionLog} (follows : s.Follows) (fresh : s.tokenised = false)
    (chain : List Pbuf) :
    (s.net.check.append chain).resp = (s.stream ++ chainBytes chain).take respLimit := by
  rw [VersionCheck.append_resp chain _ follows.bounded, follows.fresh fresh,
    VersionCheck.take_append_take]
  rfl

theorem Follows.spent_append {s : VersionLog} (follows : s.Follows) (spent : s.tokenised = true)
    (chain : List Pbuf) : (s.net.check.append chain).resp[4]? = some 0 := by
  have nul := follows.spent spent
  have inside : 4 < s.net.check.resp.length := (List.getElem?_eq_some_iff.mp nul).1
  rw [VersionCheck.append_resp chain _ follows.bounded, List.getElem?_take_of_lt (by decide),
    List.getElem?_append_left inside, nul]

theorem append_bounded {v : VersionCheck} (bounded : v.resp.length ≤ respLimit)
    (chain : List Pbuf) : (v.append chain).resp.length ≤ respLimit := by
  rw [VersionCheck.append_resp chain v bounded]
  exact List.length_take_le _ _

/-- Nothing has been offered as long as the buffer has not been split. -/
theorem Follows.append_ok {s : VersionLog} (follows : s.Follows) (fresh : s.tokenised = false)
    (chain : List Pbuf) : (s.net.check.append chain).ok = false := by
  rw [(s.net.check.append_sameAnswer chain).ok, Bool.eq_false_iff]
  intro ok
  exact Bool.false_ne_true (fresh.symm.trans (follows.ok ok))

/-- The buffer stays as it is. -/
theorem Follows.keep {s : VersionLog} (follows : s.Follows) {net : VersionNet}
    (resp : net.check.resp = s.net.check.resp) (ok : net.check.ok = true → s.tokenised = true) :
    Follows { s with net := net } := by
  refine ⟨by rw [resp]; exact follows.bounded, ?_, ?_, ok⟩
  · intro fresh
    exact resp.trans (follows.fresh fresh)
  · intro spent
    rw [resp]
    exact follows.spent spent

/-- More of the stream is in the buffer, and it has not been split. -/
theorem Follows.more {s : VersionLog} (follows : s.Follows) (fresh : s.tokenised = false) (id : Nat)
    (chain : List Pbuf) {net : VersionNet}
    (resp : net.check.resp = (s.net.check.append chain).resp) (ok : net.check.ok = false) :
    Follows ⟨net, s.received ++ [(id, chainBytes chain)], false⟩ := by
  have bounded := append_bounded follows.bounded chain
  refine ⟨by rw [resp]; exact bounded, ?_, fun spent => Bool.noConfusion spent, ?_⟩
  · intro _
    show net.check.resp = (List.flatMap Prod.snd _).take respLimit
    rw [resp, follows.append fresh chain, stream_received]
  · intro given
    exact absurd (ok.symm.trans given) Bool.false_ne_true

theorem Follows.step {s : VersionLog} (follows : s.Follows) (event : VersionEvent) :
    (s.step event).Follows := by
  have move := s.step_move event
  generalize s.step event = t at move
  cases move with
  | quiet _ net same resp started =>
      exact follows.keep resp fun ok => follows.ok (same.ok.symm.trans ok)
  | dropped _ net ok resp =>
      exact follows.keep resp fun given => absurd (ok.symm.trans given) Bool.false_ne_true
  | restarted _ net ok resp =>
      refine ⟨by rw [resp]; exact Nat.zero_le _, fun _ => resp, fun spent => Bool.noConfusion spent, ?_⟩
      intro given
      exact absurd (ok.symm.trans given) Bool.false_ne_true
  | more id chain net live fresh check last started =>
      apply follows.more fresh id chain
      · rw [check]
      · rw [check]
        exact follows.append_ok fresh chain
  | line id chain net live fresh check last started =>
      cases tagged : CString.strncmpEq (s.net.check.append chain).resp respTag with
      | true =>
          obtain ⟨length, nul⟩ := VersionCheck.parse_resp tagged
          have resp := (VersionCheck.answer_tagged tagged).2
          refine ⟨?_, fun fresh => Bool.noConfusion fresh, ?_, fun _ => rfl⟩
          · rw [check, resp, length]
            exact append_bounded follows.bounded chain
          · intro _
            rw [check, resp]
            exact nul
      | false =>
          rw [VersionCheck.answer_untagged tagged] at check
          apply follows.more fresh id chain
          · rw [check]
          · rw [check]
  | late id chain net spent check started =>
      have bounded := append_bounded follows.bounded chain
      have nul := follows.spent_append spent chain
      have resp : net.check.resp = (s.net.check.append chain).resp := by
        rcases check with check | check
        · rw [check]
        · rw [check, VersionCheck.answer_untagged (VersionCheck.strncmpEq_nul nul)]
      refine ⟨by rw [resp]; exact bounded, ?_, ?_, fun _ => spent⟩
      · intro fresh
        exact absurd (fresh.symm.trans spent) Bool.false_ne_true
      · intro _
        rw [resp]
        exact nul

/-- All of it came on the connection of the last attempt. -/
def Own (s : VersionLog) (received : List (Nat × List Byte)) : Prop :=
  ∀ entry ∈ received, entry.1 + 1 = s.net.started

/-- An update that is offered is described by the answer of the attempt itself. -/
def Described (s : VersionLog) : Prop :=
  s.net.check.ok = true → s.Own s.received ∧
    ∃ offer, Offers (s.stream.take respLimit) offer ∧ s.net.check.Holds offer

/-- A line that the event completes and that begins with `RESP|` was sent by the server of
this attempt, and has the three fields. -/
def WellAnswered (s : VersionLog) (event : VersionEvent) : Prop :=
  match event with
  | .data id chain =>
    let line := (s.stream ++ chainBytes chain).take respLimit
    s.net.Live id → s.tokenised = false → line.getLast? = some lineFeed →
      CString.strncmpEq line respTag = true →
        s.Own (s.received ++ [(id, chainBytes chain)]) ∧ ∃ offer, Offers line offer
  | _ => True

theorem described_of_refused {s : VersionLog} (ok : s.net.check.ok = false) : s.Described := by
  intro given
  exact absurd (ok.symm.trans given) Bool.false_ne_true

/-- The log and the fields stay as they are. -/
theorem Described.keep {s : VersionLog} (described : s.Described) {net : VersionNet}
    (same : s.net.check.SameAnswer net.check) (started : net.started = s.net.started) :
    Described { s with net := net } := by
  intro ok
  obtain ⟨own, offer, offers, holds⟩ := described (same.ok.symm.trans ok)
  refine ⟨?_, offer, offers, ?_⟩
  · intro entry found
    exact (own entry found).trans started.symm
  · exact ⟨same.version.trans holds.version, same.length.trans holds.length,
      same.crc.trans holds.crc⟩

theorem Described.step {s : VersionLog} (follows : s.Follows) (described : s.Described)
    (event : VersionEvent) (well : s.WellAnswered event) : (s.step event).Described := by
  have move := s.step_move event
  generalize s.step event = t at move
  cases move with
  | quiet _ net same resp started => exact described.keep same started
  | dropped _ net ok resp => exact described_of_refused ok
  | restarted _ net ok resp => exact described_of_refused ok
  | more id chain net live fresh check last started =>
      apply described_of_refused
      show net.check.ok = false
      rw [check]
      exact follows.append_ok fresh chain
  | line id chain net live fresh check last started =>
      have line := follows.append fresh chain
      cases tagged : CString.strncmpEq (s.net.check.append chain).resp respTag with
      | false =>
          apply described_of_refused
          show net.check.ok = false
          rw [check, VersionCheck.answer_untagged tagged]
      | true =>
          intro _
          obtain ⟨own, offer, offers⟩ :=
            well live fresh (by rw [← line]; exact last) (by rw [← line]; exact tagged)
          refine ⟨?_, offer, ?_, ?_⟩
          · intro entry found
            exact (own entry found).trans started.symm
          · show Offers ((List.flatMap Prod.snd _).take respLimit) offer
            rw [stream_received]
            exact offers
          · show net.check.Holds offer
            rw [check]
            rw [← line] at offers
            exact (VersionCheck.parse_offers offers).answer tagged
  | late id chain net spent check started =>
      rcases check with check | check
      · apply described.keep _ started
        rw [check]
        exact s.net.check.append_sameAnswer chain
      · apply described_of_refused
        have nul := follows.spent_append spent chain
        show net.check.ok = false
        rw [check, VersionCheck.answer_untagged (VersionCheck.strncmpEq_nul nul)]

/-- Data that completes a line. -/
theorem data_line {s : VersionNet} {id : Nat} {chain : List Pbuf} (live : s.Live id)
    (last : (s.check.append chain).resp.getLast? = some lineFeed) :
    (s.data id chain).check = (s.check.append chain).answer ∧
      (s.data id chain).started = s.started := by
  have whole : s.check.recvData chain = ((s.check.append chain).answer, true) := by
    unfold VersionCheck.recvData
    dsimp only
    rw [if_pos last]
  rcases live with found | found
  · simp only [VersionNet.data, found, whole]
    exact ⟨trivial, rfl⟩
  · simp only [VersionNet.data, found, whole]
    exact ⟨trivial, rfl⟩

/-- An offer that is described was a whole one. -/
theorem Follows.wellAnswered {s : VersionLog} (follows : s.Follows) (event : VersionEvent)
    (described : (s.step event).Described) : s.WellAnswered event := by
  cases event with
  | start result aborted => trivial
  | connected id => trivial
  | fin id => trivial
  | lost id => trivial
  | data id chain =>
      intro live fresh last tagged
      have resp := follows.append fresh chain
      rw [← resp] at last tagged ⊢
      obtain ⟨check, started⟩ := data_line live last
      have stepped : s.step (.data id chain) = ⟨s.net.step (.data id chain),
          s.received ++ [(id, chainBytes chain)], true⟩ := by
        show (if s.net.Live id ∧ s.tokenised = false then _ else _) = _
        rw [if_pos ⟨live, fresh⟩, decide_eq_true last, tagged]
        rfl
      rw [stepped] at described
      have ok : (s.net.step (.data id chain)).check.ok = true := by
        show (s.net.data id chain).check.ok = true
        rw [check]
        exact (VersionCheck.answer_tagged tagged).1
      obtain ⟨own, offer, offers, -⟩ := described ok
      refine ⟨?_, offer, ?_⟩
      · intro entry found
        exact (own entry found).trans started
      · rw [resp, ← stream_received s id]
        exact offers

theorem initial_follows : initial.Follows :=
  ⟨Nat.zero_le _, fun _ => rfl, fun spent => Bool.noConfusion spent, fun ok => Bool.noConfusion ok⟩

/-- Offers are described by their own answers exactly as long as the server sends nothing
but whole ones: the fields are not checked. -/
theorem described_run_iff (events : List VersionEvent) :
    Run.Along VersionLog.step (fun s event => (s.step event).Described) initial events ↔
      Run.Along VersionLog.step WellAnswered initial events := by
  refine Run.along_congr (I := fun s => s.Follows ∧ s.Described) ?_ ?_ events initial
    ⟨initial_follows, described_of_refused rfl⟩
  · rintro s event ⟨follows, described⟩ well
    exact ⟨follows.step event, described.step follows event well⟩
  · rintro s event ⟨follows, described⟩
    exact ⟨follows.wellAnswered event, described.step follows event⟩

/-- An offer and, at the next attempt, a line that has only its version. -/
def keptFields : List VersionEvent :=
  [.start .connecting [], .connected 0,
    .data 0 [⟨[0x52, 0x45, 0x53, 0x50, 0x7C, 0x31, 0x2E, 0x32, 0x7C, 0x38, 0x7C, 0x46, 0x46, 0x0A],
      by decide⟩],
    .start .connecting [], .connected 1]

def versionOnly : VersionEvent := .data 1 [⟨[0x52, 0x45, 0x53, 0x50, 0x7C, 0x39, 0x0A], by decide⟩]

/-- An attempt whose answer has an empty version. -/
def shiftedFields : List VersionEvent := [.start .connecting [], .connected 0]

def noVersion : VersionEvent :=
  .data 0 [⟨[0x52, 0x45, 0x53, 0x50, 0x7C, 0x7C, 0x38, 0x7C, 0x46, 0x46, 0x0A], by decide⟩]

theorem offers_separators {answer : List Byte} {offer : Offer} (offers : Offers answer offer) :
    answer.count fieldSeparator = 3 ∧ answer[5]? ≠ some fieldSeparator := by
  obtain ⟨eol, ends, rfl⟩ := offers.line
  have absent : ∀ {field : List Byte}, Token fieldSeparator field →
      field.count fieldSeparator = 0 := by
    intro field good
    exact List.count_eq_zero.mpr fun found => (good.plain _ found).1 rfl
  have last := absent (ends.token offers.crc)
  constructor
  · have tag : respTag.count fieldSeparator = 1 := by decide
    rw [List.count_append] at last
    rw [Offer.text, List.count_append, List.count_append, tag, List.count_append,
      List.count_cons_self, List.count_append, List.count_cons_self, absent offers.version,
      absent offers.length]
    omega
  · obtain ⟨b, rest, version⟩ := List.exists_cons_of_ne_nil offers.version.nonempty
    have other := (offers.version.plain b (by rw [version]; exact List.mem_cons_self)).1
    rw [Offer.text, version]
    simpa using other

/-- The second offer keeps the length and the CRC of the first; an empty version shifts the
fields. -/
theorem described_fails :
    let s := Run.after VersionLog.step initial (keptFields ++ [versionOnly])
    let t := Run.after VersionLog.step initial (shiftedFields ++ [noVersion])
    s.net.check.ok = true ∧ s.net.check.get = ([0x39, 0x0A], 8, 0xFF) ∧
      t.net.check.ok = true ∧ t.net.check.get = ([0x38], 0, 0) ∧
      ¬ Run.Along VersionLog.step (fun s event => (s.step event).Described) initial
        (keptFields ++ [versionOnly]) ∧
      ¬ Run.Along VersionLog.step (fun s event => (s.step event).Described) initial
        (shiftedFields ++ [noVersion]) := by
  intro s t
  have given : s.net.check.ok = true := by decide
  have givenToo : t.net.check.ok = true := by decide
  refine ⟨given, by decide, givenToo, by decide, ?_, ?_⟩
  · intro along
    obtain ⟨-, offer, offers, -⟩ := ((Run.along_append _ _ _ _).mp along).2.1 given
    exact absurd (offers_separators offers).1 (by decide)
  · intro along
    obtain ⟨-, offer, offers, -⟩ := ((Run.along_append _ _ _ _).mp along).2.1 givenToo
    exact (offers_separators offers).2 (by decide)

end VersionLog

end OtaBoot
