import OtaBoot.ReceivedImage

set_option autoImplicit false

namespace OtaBoot

/-- What the TCP connections do. Those that get callbacks are numbered as they come. -/
inductive NetEvent
  | accept
  | data (id : Nat) (chain : List Pbuf)
  | fin (id : Nat) (closed : Bool)
  | err (id : Nat)

/-- The receiver with the identities that its own variables do not keep: which connection
`ota_client_pcb` points to, how many there have been, which of them still deliver data
(`live`) or can only fail (`closing`), and who sent the bytes that `ota_received` counts. -/
structure Connections where
  ota : Ota
  client : Option Nat
  accepted : Nat
  live : List Nat
  closing : List Nat
  senders : List Nat

namespace Connections

def initial (buf : Mem) : Connections := ⟨Ota.initial buf, none, 0, [], [], []⟩

/-- The connection in `ota_client_pcb` is aborted. -/
def dropClient (s : Connections) : List Nat :=
  match s.client with
  | none => s.live
  | some id => s.live.erase id

def start (s : Connections) (result : StartResult) : Connections where
  ota := (s.ota.serverStart result).1
  client := none
  accepted := s.accepted
  live := s.dropClient
  closing := s.closing
  senders := []

def stop (s : Connections) : Connections :=
  { s with ota := s.ota.serverStop, client := none, live := s.dropClient }

/-- A second client is aborted before it has callbacks. -/
def accept (s : Connections) : Connections :=
  match s.client with
  | some _ => s
  | none =>
    { s with
      ota := s.ota.acceptCb
      client := some s.accepted
      accepted := s.accepted + 1
      live := s.accepted :: s.live }

/-- The counted bytes start afresh when the callback completes the header. -/
def data (s : Connections) (id : Nat) (chain : List Pbuf) : Connections :=
  let next := s.ota.recvData chain
  { s with
    ota := next
    senders :=
      if s.ota.headerParsed = next.headerParsed then
        s.senders ++ List.replicate (next.received - s.ota.received) id
      else List.replicate next.received id }

def fin (s : Connections) (id : Nat) (closed : Bool) : Connections :=
  { s with
    ota := s.ota.recvFin closed
    client := none
    live := s.live.erase id
    closing := if closed then id :: s.closing else s.closing }

/-- `ota_err_cb` is not told which connection failed. -/
def err (s : Connections) (id : Nat) : Connections :=
  if id ∈ s.closing then
    { s with ota := s.ota.fail true, client := none, closing := s.closing.erase id }
  else { s with ota := s.ota.fail false, client := none, live := s.live.erase id }

/-- Only accepted connections have callbacks, and of those a closed one can only fail. -/
def net (s : Connections) : NetEvent → Connections
  | .accept => if s.ota.serverPcb then s.accept else s
  | .data id chain => if id ∈ s.live then s.data id chain else s
  | .fin id closed => if id ∈ s.live then s.fin id closed else s
  | .err id => if id ∈ s.closing ∨ id ∈ s.live then s.err id else s

end Connections

/-- The TCP events and the two calls that the menu makes. -/
inductive ServerEvent
  | net (event : NetEvent)
  | start (result : StartResult)
  | stop

def Connections.step (s : Connections) : ServerEvent → Connections
  | .net event => s.net event
  | .start result => s.start result
  | .stop => s.stop

/-- The receiver's variables of the session, `ota_client_pcb` apart. -/
structure Ota.SameSession (o t : Ota) : Prop where
  state : t.state = o.state
  received : t.received = o.received
  expected : t.expected = o.expected
  headerParsed : t.headerParsed = o.headerParsed
  stage : t.stage = o.stage
  buf : t.buf = o.buf

theorem Ota.SameSession.refl (o : Ota) : o.SameSession o := ⟨rfl, rfl, rfl, rfl, rfl, rfl⟩

theorem Ota.acceptCb_same (o : Ota) : o.SameSession o.acceptCb := by
  unfold Ota.acceptCb
  split
  · exact .refl o
  · exact ⟨rfl, rfl, rfl, rfl, rfl, rfl⟩

namespace Connections

/-- Nothing of the session changes. -/
def Kept (s t : Connections) : Prop := t.client = s.client ∧ s.ota.SameSession t.ota

/-- No closing connection fails while there is a client or a session is receiving. -/
def Harmless (s : Connections) (event : ServerEvent) : Prop :=
  match event with
  | .net (.err id) => id ∈ s.closing → s.client = none ∧ s.ota.state ≠ .receiving
  | _ => True

/-- The identities agree with what the receiver and lwIP count. -/
structure Counted (s : Connections) : Prop where
  pcb : s.ota.clientPcb = s.client.isSome
  connected : s.ota.connected = s.live.length
  closing : s.ota.closing = s.closing.length
  client : ∀ id, s.client = some id → id ∈ s.live
  known : ∀ id, id ∈ s.live ∨ id ∈ s.closing → id < s.accepted
  nodup : s.live.Nodup
  apart : ∀ id ∈ s.live, id ∉ s.closing
  senders : s.senders.length = s.ota.received

end Connections

/-- Before the header is complete, and after, the count only grows. -/
theorem Ota.takePbuf_grows (o : Ota) (data : List Byte) :
    (o.headerParsed = true → (o.takePbuf data).1.headerParsed = true) ∧
      ((o.takePbuf data).1.headerParsed = o.headerParsed →
        o.received ≤ (o.takePbuf data).1.received) := by
  unfold Ota.takePbuf
  split
  · exact ⟨id, fun _ => Nat.le_refl _⟩
  · split
    · exact ⟨id, fun _ => Nat.le_refl _⟩
    · split
      · exact ⟨id, fun _ => Nat.le_add_right _ _⟩
      · rename_i unparsed
        dsimp only
        split
        · split
          · exact ⟨id, fun _ => Nat.le_add_right _ _⟩
          · exact ⟨fun _ => rfl, fun same => absurd same.symm unparsed⟩
        · exact ⟨id, fun _ => Nat.le_add_right _ _⟩

theorem Ota.recvData_counts (chain : List Pbuf) : ∀ o : Ota,
    (o.headerParsed = true → (o.recvData chain).headerParsed = true) ∧
      ((o.recvData chain).headerParsed = o.headerParsed →
        o.received ≤ (o.recvData chain).received) := by
  induction chain with
  | nil =>
      intro o
      exact ⟨id, fun _ => Nat.le_refl _⟩
  | cons p rest ih =>
      intro o
      have one := o.takePbuf_grows p.payload
      unfold Ota.recvData
      generalize o.takePbuf p.payload = result at one
      obtain ⟨next, more⟩ := result
      cases more with
      | false => exact one
      | true =>
          obtain ⟨keeps, grows⟩ := ih next
          refine ⟨fun parsed => keeps (one.1 parsed), ?_⟩
          intro same
          have between : next.headerParsed = o.headerParsed := by
            cases parsed : o.headerParsed with
            | true => exact one.1 parsed
            | false =>
                rw [parsed] at same
                cases after : next.headerParsed with
                | false => rfl
                | true => exact absurd ((keeps after).symm.trans same) (by decide)
          exact (one.2 between).trans (grows (same.trans between.symm))

theorem Ota.recvData_pcbs (chain : List Pbuf) : ∀ o : Ota,
    (o.recvData chain).clientPcb = o.clientPcb ∧ (o.recvData chain).connected = o.connected ∧
      (o.recvData chain).closing = o.closing := by
  have one : ∀ (o : Ota) data, (o.takePbuf data).1.clientPcb = o.clientPcb ∧
      (o.takePbuf data).1.connected = o.connected ∧
      (o.takePbuf data).1.closing = o.closing := by
    intro o data
    unfold Ota.takePbuf
    dsimp only
    split_ifs <;> exact ⟨rfl, rfl, rfl⟩
  induction chain with
  | nil =>
      intro o
      exact ⟨rfl, rfl, rfl⟩
  | cons p rest ih =>
      intro o
      have first := one o p.payload
      unfold Ota.recvData
      generalize o.takePbuf p.payload = result at first
      obtain ⟨next, more⟩ := result
      cases more with
      | false => exact first
      | true =>
          obtain ⟨pcb, connected, closing⟩ := ih next
          exact ⟨pcb.trans first.1, connected.trans first.2.1, closing.trans first.2.2⟩

theorem Ota.recvFin_counts (closed : Bool) (o : Ota) :
    (o.recvFin closed).clientPcb = false ∧ (o.recvFin closed).connected = o.connected - 1 ∧
      (o.recvFin closed).closing = (if closed then o.closing + 1 else o.closing) ∧
      (o.recvFin closed).received = o.received := by
  unfold Ota.recvFin Ota.fail Ota.errCb
  cases closed with
  | false =>
      simp only [Bool.false_eq_true, ↓reduceIte]
      split_ifs <;> exact ⟨rfl, rfl, rfl, rfl⟩
  | true =>
      simp only [↓reduceIte]
      split_ifs <;> exact ⟨rfl, rfl, rfl, rfl⟩

namespace Connections

theorem initial_counted (buf : Mem) : (initial buf).Counted where
  pcb := rfl
  connected := rfl
  closing := rfl
  client := by intro id none; cases none
  known := by intro id none; rcases none with none | none <;> cases none
  nodup := List.nodup_nil
  apart := by intro id none; cases none
  senders := rfl

/-- What remains of the connections once the client is dropped. -/
theorem Counted.dropClient {s : Connections} (counted : s.Counted) :
    s.dropClient.length = s.ota.left ∧ s.dropClient.Nodup ∧ ∀ id ∈ s.dropClient, id ∈ s.live := by
  unfold Connections.dropClient Ota.left
  rw [counted.pcb, counted.connected]
  cases client : s.client with
  | none => exact ⟨rfl, counted.nodup, fun _ found => found⟩
  | some id =>
      exact ⟨List.length_erase_of_mem (counted.client id client), counted.nodup.erase id,
        fun _ found => List.mem_of_mem_erase found⟩

theorem Counted.start {s : Connections} (counted : s.Counted) (result : StartResult) :
    (s.start result).Counted := by
  obtain ⟨length, nodup, still⟩ := counted.dropClient
  have ota := s.ota.serverStart_eq result
  constructor
  · show (s.ota.serverStart result).1.clientPcb = false
    rw [ota]
    cases result <;> rfl
  · show (s.ota.serverStart result).1.connected = s.dropClient.length
    rw [ota, length]
    cases result <;> rfl
  · show (s.ota.serverStart result).1.closing = s.closing.length
    rw [ota, ← counted.closing]
    cases result <;> rfl
  · intro id none
    cases none
  · intro id found
    exact counted.known id (found.imp_left (still id))
  · exact nodup
  · intro id found
    exact counted.apart id (still id found)
  · show 0 = (s.ota.serverStart result).1.received
    rw [ota]
    cases result <;> rfl

theorem Counted.stop {s : Connections} (counted : s.Counted) : s.stop.Counted := by
  obtain ⟨length, nodup, still⟩ := counted.dropClient
  have ota := s.ota.serverStop_eq
  constructor
  · show s.ota.serverStop.clientPcb = false
    rw [ota]
  · show s.ota.serverStop.connected = s.dropClient.length
    rw [ota, length]
  · show s.ota.serverStop.closing = s.closing.length
    rw [ota, ← counted.closing]
  · intro id none
    cases none
  · intro id found
    exact counted.known id (found.imp_left (still id))
  · exact nodup
  · intro id found
    exact counted.apart id (still id found)
  · show s.senders.length = s.ota.serverStop.received
    rw [ota, ← counted.senders]

theorem Counted.accept {s : Connections} (counted : s.Counted) : s.accept.Counted := by
  unfold Connections.accept
  cases client : s.client with
  | some other => exact counted
  | none =>
      have idle : s.ota.clientPcb = false := by
        rw [counted.pcb, client]
        rfl
      have ota : s.ota.acceptCb =
          { s.ota with clientPcb := true, connected := s.ota.connected + 1 } := by
        unfold Ota.acceptCb
        rw [idle]
        rfl
      constructor
      · show s.ota.acceptCb.clientPcb = true
        rw [ota]
      · show s.ota.acceptCb.connected = s.live.length + 1
        rw [ota, ← counted.connected]
      · show s.ota.acceptCb.closing = s.closing.length
        rw [ota, ← counted.closing]
      · intro id found
        cases found
        exact List.mem_cons_self
      · intro id found
        show id < s.accepted + 1
        rcases found with found | found
        · rcases List.mem_cons.mp found with rfl | found
          · omega
          · have below := counted.known id (.inl found)
            omega
        · have below := counted.known id (.inr found)
          omega
      · refine List.nodup_cons.mpr ⟨?_, counted.nodup⟩
        intro found
        exact Nat.lt_irrefl _ (counted.known s.accepted (.inl found))
      · intro id found
        rcases List.mem_cons.mp found with rfl | found
        · intro held
          exact Nat.lt_irrefl _ (counted.known s.accepted (.inr held))
        · exact counted.apart id found
      · show s.senders.length = s.ota.acceptCb.received
        rw [ota, ← counted.senders]

theorem data_senders (s : Connections) (id : Nat) (chain : List Pbuf)
    (held : s.senders.length = s.ota.received) :
    (s.data id chain).senders.length = (s.data id chain).ota.received := by
  show (if s.ota.headerParsed = (s.ota.recvData chain).headerParsed then _ else _ : List Nat).length =
    (s.ota.recvData chain).received
  split
  · rename_i same
    have grows := (Ota.recvData_counts chain s.ota).2 same.symm
    rw [List.length_append, List.length_replicate, held]
    omega
  · exact List.length_replicate

theorem Counted.data {s : Connections} (counted : s.Counted) (id : Nat) (chain : List Pbuf) :
    (s.data id chain).Counted := by
  obtain ⟨pcb, connected, closing⟩ := Ota.recvData_pcbs chain s.ota
  exact ⟨pcb.trans counted.pcb, connected.trans counted.connected,
    closing.trans counted.closing, counted.client, counted.known, counted.nodup, counted.apart,
    s.data_senders id chain counted.senders⟩

theorem Counted.fin {s : Connections} (counted : s.Counted) (id : Nat) (closed : Bool)
    (found : id ∈ s.live) : (s.fin id closed).Counted := by
  obtain ⟨pcb, connected, closing, received⟩ := Ota.recvFin_counts closed s.ota
  constructor
  · exact pcb
  · show (s.ota.recvFin closed).connected = (s.live.erase id).length
    rw [connected, counted.connected, List.length_erase_of_mem found]
  · show (s.ota.recvFin closed).closing = (if closed then id :: s.closing else s.closing).length
    rw [closing, counted.closing]
    cases closed <;> rfl
  · intro other none
    cases none
  · intro other left
    apply counted.known other
    rcases left with left | held
    · exact .inl (List.mem_of_mem_erase left)
    · change other ∈ (if closed then id :: s.closing else s.closing) at held
      split at held
      · rcases List.mem_cons.mp held with rfl | held
        · exact .inl found
        · exact .inr held
      · exact .inr held
  · exact counted.nodup.erase id
  · intro other left
    have still := List.mem_of_mem_erase left
    show other ∉ (if closed then id :: s.closing else s.closing)
    split
    · intro held
      rcases List.mem_cons.mp held with rfl | held
      · exact counted.nodup.not_mem_erase left
      · exact counted.apart other still held
    · exact counted.apart other still
  · exact counted.senders.trans received.symm

theorem Counted.err {s : Connections} (counted : s.Counted) (id : Nat)
    (found : id ∈ s.closing ∨ id ∈ s.live) : (s.err id).Counted := by
  unfold Connections.err
  split
  · rename_i closing
    constructor
    · rfl
    · exact counted.connected
    · show s.ota.closing - 1 = (s.closing.erase id).length
      rw [counted.closing, List.length_erase_of_mem closing]
    · intro other none
      cases none
    · intro other held
      exact counted.known other (held.imp_right List.mem_of_mem_erase)
    · exact counted.nodup
    · intro other live held
      exact counted.apart other live (List.mem_of_mem_erase held)
    · exact counted.senders
  · rename_i notClosing
    have live : id ∈ s.live := found.resolve_left notClosing
    constructor
    · rfl
    · show s.ota.connected - 1 = (s.live.erase id).length
      rw [counted.connected, List.length_erase_of_mem live]
    · exact counted.closing
    · intro other none
      cases none
    · intro other held
      exact counted.known other (held.imp_left List.mem_of_mem_erase)
    · exact counted.nodup.erase id
    · intro other left
      exact counted.apart other (List.mem_of_mem_erase left)
    · exact counted.senders

theorem Counted.net {s : Connections} (counted : s.Counted) (event : NetEvent) :
    (s.net event).Counted := by
  cases event with
  | accept =>
      simp only [Connections.net]
      split
      · exact counted.accept
      · exact counted
  | data id chain =>
      simp only [Connections.net]
      split
      · exact counted.data id chain
      · exact counted
  | fin id closed =>
      simp only [Connections.net]
      split
      · rename_i found
        exact counted.fin id closed found
      · exact counted
  | err id =>
      simp only [Connections.net]
      split
      · rename_i found
        exact counted.err id found
      · exact counted

/-- The identities stay in step with the counters over every event. -/
theorem Counted.step {s : Connections} (counted : s.Counted) (event : ServerEvent) :
    (s.step event).Counted := by
  cases event with
  | net event => exact counted.net event
  | start result => exact counted.start result
  | stop => exact counted.stop

/-- Each event of a connection is an input of the machine while it processes network
input, or none if lwIP would not deliver it. -/
theorem Counted.simulates {s : Connections} (counted : s.Counted) (m : Machine)
    (listens : m.listens = true) (same : m.ota = s.ota) (event : NetEvent) :
    ∃ inputs, Run.after Machine.step m inputs = m.onOta fun _ => (s.net event).ota := by
  have idle : m.onOta (fun _ => s.ota) = m := by
    unfold Machine.onOta
    rw [← same]
  have live : ∀ id ∈ s.live, 0 < m.ota.connected := by
    intro id found
    rw [same, counted.connected]
    exact List.length_pos_of_mem found
  have stays : ∃ inputs, Run.after Machine.step m inputs = m.onOta fun _ => s.ota :=
    ⟨[], idle.symm⟩
  have handled : ∀ (input : Input) (f : Ota → Ota) {guard : Prop} [Decidable guard],
      m.step input = (if guard then m.onOta f else m) → guard →
      ∃ inputs, Run.after Machine.step m inputs = m.onOta fun _ => f s.ota := by
    intro input f guard _ steps holds
    refine ⟨[input], ?_⟩
    rw [← same]
    exact steps.trans (if_pos holds)
  cases event with
  | accept =>
      simp only [Connections.net]
      split
      · rename_i listening
        have accepted : s.accept.ota = s.ota.acceptCb := by
          unfold Connections.accept Ota.acceptCb
          rw [counted.pcb]
          cases s.client <;> rfl
        have pcb : m.ota.serverPcb = true := by
          rw [same]
          exact listening
        rw [accepted]
        exact handled .accept Ota.acceptCb rfl ⟨listens, pcb⟩
      · exact stays
  | data id chain =>
      simp only [Connections.net]
      split
      · rename_i found
        exact handled (.receive chain) (fun o => o.recvData chain) rfl ⟨listens, live id found⟩
      · exact stays
  | fin id closed =>
      simp only [Connections.net]
      split
      · rename_i found
        exact handled (.fin closed) (Ota.recvFin closed) rfl ⟨listens, live id found⟩
      · exact stays
  | err id =>
      simp only [Connections.net]
      split
      · rename_i found
        by_cases closing : id ∈ s.closing
        · have held : 0 < m.ota.closing := by
            rw [same, counted.closing]
            exact List.length_pos_of_mem closing
          rw [Connections.err, if_pos closing]
          exact handled (.err true) (Ota.fail true) rfl ⟨listens, held⟩
        · have held := live id (found.resolve_left closing)
          rw [Connections.err, if_neg closing]
          exact handled (.err false) (Ota.fail false) rfl ⟨listens, held⟩
      · exact stays

/-- The client is the only connection that delivers data. -/
structure Settled (s : Connections) : Prop where
  counted : s.Counted
  live : s.live = s.client.toList

theorem Settled.dropClient {s : Connections} (settled : s.Settled) : s.dropClient = [] := by
  unfold Connections.dropClient
  rw [settled.live]
  cases s.client with
  | none => rfl
  | some id => exact List.erase_cons_head id []

theorem Settled.client {s : Connections} (settled : s.Settled) {id : Nat} (found : id ∈ s.live) :
    s.client = some id := by
  rw [settled.live] at found
  exact Option.mem_toList.mp found

theorem Settled.erase {s : Connections} (settled : s.Settled) {id : Nat} (found : id ∈ s.live) :
    s.live.erase id = [] := by
  rw [settled.live, settled.client found]
  exact List.erase_cons_head id []

theorem Settled.step {s : Connections} (settled : s.Settled) (event : ServerEvent)
    (harmless : s.Harmless event) : (s.step event).Settled := by
  refine ⟨settled.counted.step event, ?_⟩
  cases event with
  | start result => exact settled.dropClient
  | stop => exact settled.dropClient
  | net event =>
      cases event with
      | accept =>
          simp only [Connections.step, Connections.net]
          split
          · unfold Connections.accept
            cases client : s.client with
            | some other =>
                simp only
                rw [settled.live]
            | none =>
                simp only
                rw [settled.live, client]
                rfl
          · exact settled.live
      | data id chain =>
          simp only [Connections.step, Connections.net]
          split
          · exact settled.live
          · exact settled.live
      | fin id closed =>
          simp only [Connections.step, Connections.net]
          split
          · rename_i found
            exact settled.erase found
          · exact settled.live
      | err id =>
          simp only [Connections.step, Connections.net]
          split
          · rename_i found
            by_cases closing : id ∈ s.closing
            · have none := (harmless closing).1
              rw [Connections.err, if_pos closing]
              show s.live = []
              rw [settled.live, none]
              rfl
            · rw [Connections.err, if_neg closing]
              exact settled.erase (found.resolve_left closing)
          · exact settled.live

theorem Kept.refl (s : Connections) : s.Kept s := ⟨rfl, .refl _⟩

end Connections

end OtaBoot
