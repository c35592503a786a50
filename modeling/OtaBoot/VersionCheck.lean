import OtaBoot.Ota
import OtaBoot.Lib.CString
import Mathlib.Logic.Function.Basic

set_option autoImplicit false

namespace OtaBoot

/-- `sizeof(v_resp) - 1`. -/
abbrev respLimit : Nat := 127
/-- The `|` between the fields of a response. -/
abbrev fieldSeparator : Byte := 0x7C
abbrev lineFeed : Byte := 0x0A
/-- `"RESP|"`. -/
abbrev respTag : List Byte := [0x52, 0x45, 0x53, 0x50, 0x7C]

/-- The variables of `version_check.c`. `pcb` tells the connections apart by the attempt
that opened them; `resp` is `v_resp` up to `v_resp_len`, and `version` the string in
`v_version`. -/
structure VersionCheck where
  pcb : Option Nat
  done : Bool
  ok : Bool
  connected : Bool
  resp : List Byte
  version : List Byte
  length : Word
  crc : Word

namespace VersionCheck

def initial : VersionCheck := ⟨none, false, false, false, [], [], 0, 0⟩

/-- The first statements of `Version_Check_Start`. -/
def clear (v : VersionCheck) : VersionCheck :=
  { v with done := false, ok := false, connected := false, resp := [] }

/-- The copy loop of `v_recv_cb`: what does not fit is dropped. -/
def append (v : VersionCheck) (chain : List Pbuf) : VersionCheck :=
  chain.foldl (fun v p =>
    { v with resp := v.resp ++ p.payload.take (respLimit - v.resp.length) }) v

/-- The fields after `RESP`. A field that is missing leaves its variable alone. -/
def parse (v : VersionCheck) : VersionCheck :=
  let (_, resp, offset) := CString.strtok fieldSeparator v.resp 0
  let (version, resp, offset) := CString.strtok fieldSeparator resp offset
  let (length, resp, offset) := CString.strtok fieldSeparator resp offset
  let (crc, resp, _) := CString.strtok fieldSeparator resp offset
  { v with
    resp := resp
    version := (version.map (CString.strncpy · 15)).getD v.version
    length := (length.map (CString.strtoul 10)).getD v.length
    crc := (crc.map (CString.strtoul 16)).getD v.crc }

/-- A line is complete. -/
def answer (v : VersionCheck) : VersionCheck :=
  let w := if CString.strncmpEq v.resp respTag then { v.parse with ok := true }
    else { v with ok := false }
  { w with connected := true, pcb := none, done := true }

/-- `v_recv_cb` with data, and whether it closes the connection. -/
def recvData (v : VersionCheck) (chain : List Pbuf) : VersionCheck × Bool :=
  let w := v.append chain
  if w.resp.getLast? = some lineFeed then (w.answer, true) else (w, false)

/-- `v_recv_cb` without data: the peer has closed. -/
def recvFin (v : VersionCheck) : VersionCheck := { v with done := true }

/-- `v_err_cb`. -/
def errCb (v : VersionCheck) : VersionCheck := { v with pcb := none, done := true, ok := false }

/-- `v_connect_cb`. If it gets no error it registers the other two callbacks. -/
def connectCb (v : VersionCheck) (error : Bool) : VersionCheck :=
  if error then { v with done := true } else v

/-- `Version_Check_Get`. -/
def get (v : VersionCheck) : List Byte × Word × Word :=
  (if v.version = [] then [0x30, 0x2E, 0x30, 0x2E, 0x30] else v.version, v.length, v.crc)

theorem append_eq (chain : List Pbuf) : ∀ v : VersionCheck,
    ∃ resp, v.append chain = { v with resp := resp } := by
  induction chain with
  | nil =>
      intro v
      exact ⟨v.resp, rfl⟩
  | cons p rest ih =>
      intro v
      obtain ⟨resp, same⟩ := ih { v with
        resp := v.resp ++ p.payload.take (respLimit - v.resp.length) }
      exact ⟨resp, same⟩

/-- Without a complete line only `v_resp` changes. -/
theorem recvData_part {v : VersionCheck} {chain : List Pbuf}
    (more : (v.recvData chain).2 = false) :
    ∃ resp, (v.recvData chain).1 = { v with resp := resp } := by
  revert more
  unfold recvData
  dsimp only
  split
  · intro whole
    cases whole
  · intro _
    exact v.append_eq chain

theorem recvData_line {v : VersionCheck} {chain : List Pbuf}
    (whole : (v.recvData chain).2 = true) :
    (v.recvData chain).1.pcb = none ∧ (v.recvData chain).1.done = true := by
  revert whole
  unfold recvData
  dsimp only
  split
  · intro _
    exact ⟨rfl, rfl⟩
  · intro more
    cases more

end VersionCheck

/-- Whether `tcp_new` and `tcp_connect` work. -/
inductive ConnectResult
  | newFails
  | connectFails
  | connecting

/-- A pcb of the version check: before `v_connect_cb` it has no other callbacks; after the
peer's FIN the program keeps it; after `tcp_close` lwIP does, with its callbacks. -/
inductive Phase
  | connecting
  | established
  | peerClosed
  | closing
  deriving DecidableEq

/-- `v_recv_cb` and `v_err_cb` are registered. -/
def Phase.registered : Phase → Bool
  | .connecting => false
  | .established | .peerClosed | .closing => true

/-- What lwIP does with the connection of an attempt. `lost` is every way in which it
frees a pcb: refused, reset, timed out or aborted. -/
inductive VersionEvent
  | start (result : ConnectResult) (aborted : List Nat)
  | connected (id : Nat)
  | data (id : Nat) (chain : List Pbuf)
  | fin (id : Nat)
  | lost (id : Nat)

/-- The version check and the connections of all its attempts, numbered as they start.
`answered` are those whose response has set `v_ok` since the last start. -/
structure VersionNet where
  check : VersionCheck
  started : Nat
  phase : Nat → Option Phase
  answered : List Nat

namespace VersionNet

def initial : VersionNet := ⟨.initial, 0, fun _ => none, []⟩

def setPhase (s : VersionNet) (id : Nat) (phase : Option Phase) : VersionNet :=
  { s with phase := Function.update s.phase id phase }

/-- lwIP frees the pcb and calls its error callback, if it has one. -/
def lose (s : VersionNet) (id : Nat) : VersionNet :=
  match s.phase id with
  | none => s
  | some .connecting => s.setPhase id none
  | some .established | some .peerClosed | some .closing =>
    { s.setPhase id none with check := s.check.errCb }

/-- The results of `tcp_new` and `tcp_connect` in `Version_Check_Start`. -/
def attempt (s : VersionNet) : ConnectResult → VersionNet
  | .newFails | .connectFails =>
    { s with check := { s.check with pcb := none, done := true }, started := s.started + 1 }
  | .connecting =>
    { s.setPhase s.started (some .connecting) with
      check := { s.check with pcb := some s.started }
      started := s.started + 1 }

/-- `Version_Check_Start`. To get memory for the pcb, `tcp_new` may abort connections. -/
def start (s : VersionNet) (result : ConnectResult) (aborted : List Nat) : VersionNet :=
  if s.check.pcb.isSome then s
  else
    (aborted.foldl lose { s with check := s.check.clear, answered := [] }).attempt result

def connect (s : VersionNet) (id : Nat) : VersionNet :=
  match s.phase id with
  | some .connecting =>
    { s.setPhase id (some .established) with check := s.check.connectCb false }
  | _ => s

/-- Data for a pcb that was closed makes lwIP abort it. -/
def data (s : VersionNet) (id : Nat) (chain : List Pbuf) : VersionNet :=
  match s.phase id with
  | some .established | some .peerClosed =>
    match s.check.recvData chain with
    | (check, false) => { s with check := check }
    | (check, true) =>
      { s.setPhase id (some .closing) with
        check := check
        answered := if check.ok then id :: s.answered else s.answered }
  | some .closing => s.lose id
  | some .connecting | none => s

/-- A closed connection still gets the peer's FIN. -/
def fin (s : VersionNet) (id : Nat) : VersionNet :=
  match s.phase id with
  | some .established | some .peerClosed =>
    { s.setPhase id (some .peerClosed) with check := s.check.recvFin }
  | some .closing => { s with check := s.check.recvFin }
  | some .connecting | none => s

def step (s : VersionNet) : VersionEvent → VersionNet
  | .start result aborted => s.start result aborted
  | .connected id => s.connect id
  | .data id chain => s.data id chain
  | .fin id => s.fin id
  | .lost id => s.lose id

/-- `v_recv_cb` and `v_err_cb` are registered for the connection. -/
def Registered (s : VersionNet) (id : Nat) : Prop := ∃ p, s.phase id = some p ∧ p.registered = true

/-- The program has not closed the connection. -/
def Live (s : VersionNet) (id : Nat) : Prop :=
  s.phase id = some .established ∨ s.phase id = some .peerClosed

theorem registered_iff (s : VersionNet) (id : Nat) :
    s.Registered id ↔ s.Live id ∨ s.phase id = some .closing := by
  unfold Registered Live
  cases s.phase id with
  | none => simp
  | some p => cases p <;> simp [Phase.registered]

theorem Live.not_closing {s : VersionNet} {id : Nat} (live : s.Live id) :
    s.phase id ≠ some .closing := by
  rcases live with found | found <;> rw [found] <;> decide

theorem setPhase_same (s : VersionNet) (id : Nat) (phase : Option Phase) :
    (s.setPhase id phase).phase id = phase :=
  Function.update_self ..

theorem setPhase_other (s : VersionNet) {id other : Nat} (phase : Option Phase)
    (different : other ≠ id) : (s.setPhase id phase).phase other = s.phase other :=
  Function.update_of_ne different ..

/-- lwIP frees a pcb whose error callback is registered. -/
def fail (s : VersionNet) (id : Nat) : VersionNet :=
  { s.setPhase id none with check := s.check.errCb }

theorem lose_registered {s : VersionNet} {id : Nat} (registered : s.Registered id) :
    s.lose id = s.fail id := by
  rcases (s.registered_iff id).mp registered with (found | found) | found <;>
    simp only [lose, found, fail]

theorem lose_check {s : VersionNet} {id : Nat} (deaf : ¬ s.Registered id) :
    (s.lose id).check = s.check := by
  unfold lose
  cases found : s.phase id with
  | none => rfl
  | some p =>
      cases p with
      | connecting => rfl
      | established => exact absurd ⟨_, found, rfl⟩ deaf
      | peerClosed => exact absurd ⟨_, found, rfl⟩ deaf
      | closing => exact absurd ⟨_, found, rfl⟩ deaf

theorem lose_same (s : VersionNet) (id : Nat) : (s.lose id).phase id = none ∧
    (s.lose id).started = s.started ∧ (s.lose id).answered = s.answered := by
  unfold lose
  cases found : s.phase id with
  | none => exact ⟨found, rfl, rfl⟩
  | some p => cases p <;> exact ⟨s.setPhase_same id none, rfl, rfl⟩

theorem lose_other (s : VersionNet) {id other : Nat} (different : other ≠ id) :
    (s.lose id).phase other = s.phase other := by
  unfold lose
  cases s.phase id with
  | none => rfl
  | some p => cases p <;> exact s.setPhase_other none different

/-- What the connections that `tcp_new` aborts leave behind. -/
structure Aborted (s : VersionNet) (aborted : List Nat) (t : VersionNet) : Prop where
  started : t.started = s.started
  answered : t.answered = s.answered
  phase : ∀ id, t.phase id = s.phase id ∨ t.phase id = none
  check : (∀ id ∈ aborted, ¬ s.Registered id) ∧ t.check = s.check ∨
    (∃ id ∈ aborted, s.Registered id) ∧ t.check = s.check.errCb

theorem aborted_foldl (aborted : List Nat) : ∀ s : VersionNet,
    Aborted s aborted (aborted.foldl lose s) := by
  induction aborted with
  | nil =>
      intro s
      exact ⟨rfl, rfl, fun _ => .inl rfl, .inl ⟨by simp, rfl⟩⟩
  | cons id rest ih =>
      intro s
      obtain ⟨gone, started, answered⟩ := s.lose_same id
      have others := ih (s.lose id)
      have shrinks : ∀ other, (s.lose id).phase other = s.phase other ∨
          (s.lose id).phase other = none := by
        intro other
        by_cases same : other = id
        · exact .inr (same ▸ gone)
        · exact .inl (s.lose_other same)
      have still : ∀ other, (s.lose id).Registered other ↔ s.Registered other ∧ other ≠ id := by
        intro other
        unfold Registered
        by_cases same : other = id
        · subst same
          simp [gone]
        · simp [s.lose_other same, same]
      refine ⟨others.started.trans started, others.answered.trans answered, ?_, ?_⟩
      · intro other
        rcases others.phase other with same | none
        · rw [List.foldl_cons, same]
          exact shrinks other
        · exact .inr none
      · rw [List.foldl_cons]
        by_cases registered : s.Registered id
        · refine .inr ⟨⟨id, List.mem_cons_self, registered⟩, ?_⟩
          have failed : (s.lose id).check = s.check.errCb := by rw [lose_registered registered]; rfl
          rcases others.check with ⟨-, same⟩ | ⟨-, same⟩
          · rw [same, failed]
          · rw [same, failed]
            rfl
        · have kept := lose_check registered
          rcases others.check with ⟨deaf, same⟩ | ⟨⟨other, found, hears⟩, same⟩
          · refine .inl ⟨?_, same.trans kept⟩
            intro other found
            rcases List.mem_cons.mp found with rfl | found
            · exact registered
            · intro hears
              by_cases again : other = id
              · exact registered (again ▸ hears)
              · exact deaf other found ((still other).mpr ⟨hears, again⟩)
          · refine .inr ⟨⟨other, List.mem_cons_of_mem _ found, ((still other).mp hears).1⟩, ?_⟩
            rw [same, kept]

/-- The state in which `tcp_new` has aborted its connections. -/
def Cleared (s : VersionNet) (aborted : List Nat) (t : VersionNet) : Prop :=
  Aborted { s with check := s.check.clear, answered := [] } aborted t

/-- All that one event can do. -/
inductive Move (s : VersionNet) : VersionEvent → VersionNet → Prop
  | held (id : Nat) (pcb : s.check.pcb = some id) (result : ConnectResult) (aborted : List Nat) :
      Move s (.start result aborted) s
  | started (idle : s.check.pcb = none) (result : ConnectResult) (aborted : List Nat)
      (t : VersionNet) (cleared : s.Cleared aborted t) :
      Move s (.start result aborted) (t.attempt result)
  | connected (id : Nat) (found : s.phase id = some .connecting) :
      Move s (.connected id) (s.setPhase id (some .established))
  | notConnected (id : Nat) : Move s (.connected id) s
  | part (id : Nat) (chain : List Pbuf) (live : s.Live id)
      (more : (s.check.recvData chain).2 = false) :
      Move s (.data id chain) { s with check := (s.check.recvData chain).1 }
  | line (id : Nat) (chain : List Pbuf) (live : s.Live id)
      (whole : (s.check.recvData chain).2 = true) :
      Move s (.data id chain)
        { s.setPhase id (some .closing) with
          check := (s.check.recvData chain).1
          answered := if (s.check.recvData chain).1.ok then id :: s.answered else s.answered }
  | lateData (id : Nat) (chain : List Pbuf) (closing : s.phase id = some .closing) :
      Move s (.data id chain) (s.fail id)
  | notData (id : Nat) (chain : List Pbuf) (deaf : ¬ s.Registered id) : Move s (.data id chain) s
  | fin (id : Nat) (live : s.Live id) :
      Move s (.fin id) { s.setPhase id (some .peerClosed) with check := s.check.recvFin }
  | lateFin (id : Nat) (closing : s.phase id = some .closing) :
      Move s (.fin id) { s with check := s.check.recvFin }
  | notFin (id : Nat) (deaf : ¬ s.Registered id) : Move s (.fin id) s
  | failed (id : Nat) (registered : s.Registered id) : Move s (.lost id) (s.fail id)
  | refused (id : Nat) (connecting : s.phase id = some .connecting) :
      Move s (.lost id) (s.setPhase id none)
  | notLost (id : Nat) (absent : s.phase id = none) : Move s (.lost id) s

theorem step_move (s : VersionNet) (event : VersionEvent) : s.Move event (s.step event) := by
  cases event with
  | start result aborted =>
      show s.Move _ (s.start result aborted)
      unfold start
      cases pcb : s.check.pcb with
      | some id => exact .held id pcb result aborted
      | none => exact .started pcb result aborted _ (aborted_foldl aborted _)
  | connected id =>
      show s.Move _ (s.connect id)
      unfold connect
      split
      · rename_i found
        exact .connected id found
      · exact .notConnected id
  | data id chain =>
      show s.Move _ (s.data id chain)
      have live (alive : s.Live id) : s.Move (.data id chain)
          (match s.check.recvData chain with
          | (check, false) => { s with check := check }
          | (check, true) =>
            { s.setPhase id (some .closing) with
              check := check
              answered := if check.ok then id :: s.answered else s.answered }) := by
        have part := Move.part (s := s) id chain alive
        have line := Move.line (s := s) id chain alive
        generalize s.check.recvData chain = result at part line
        obtain ⟨check, closes⟩ := result
        cases closes with
        | false => exact part rfl
        | true => exact line rfl
      unfold data
      cases found : s.phase id with
      | none => exact .notData id chain (by simp [Registered, found])
      | some p =>
          cases p with
          | connecting => exact .notData id chain (by simp [Registered, found, Phase.registered])
          | established => exact live (.inl found)
          | peerClosed => exact live (.inr found)
          | closing =>
              rw [lose_registered ((s.registered_iff id).mpr (.inr found))]
              exact .lateData id chain found
  | fin id =>
      show s.Move _ (s.fin id)
      unfold fin
      cases found : s.phase id with
      | none => exact .notFin id (by simp [Registered, found])
      | some p =>
          cases p with
          | connecting => exact .notFin id (by simp [Registered, found, Phase.registered])
          | established => exact .fin id (.inl found)
          | peerClosed => exact .fin id (.inr found)
          | closing => exact .lateFin id found
  | lost id =>
      show s.Move _ (s.lose id)
      by_cases registered : s.Registered id
      · rw [lose_registered registered]
        exact .failed id registered
      · unfold lose
        cases found : s.phase id with
        | none => exact .notLost id found
        | some p =>
            cases p with
            | connecting => exact .refused id found
            | established => exact absurd ⟨_, found, rfl⟩ registered
            | peerClosed => exact absurd ⟨_, found, rfl⟩ registered
            | closing => exact absurd ⟨_, found, rfl⟩ registered

end VersionNet

end OtaBoot
