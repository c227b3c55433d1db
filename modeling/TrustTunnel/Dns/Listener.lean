import TrustTunnel.Core.Wire
import TrustTunnel.Lib.Map
import TrustTunnel.Lib.System

/-!
# Dns.Listener

The client side of the DNS handler (`DnsHandlerClientListenerBase` in `core/src/dns_handler.cpp`): the
listener connections it opens for the DNS requests of its upstream connections.

As in `Dns.Upstream`, a handler may call back: what a function has left to do when it raises an event is
part of the state (`stack` and `loop`), and `resume result` is the return of the innermost handler, with
the result it put into the event.
-/

namespace TrustTunnel.Dns

open Lib List Option

def connMaxBuffered : Nat := 128 * 1024

def maxUdpQueueSize : Nat := 10

/-- `write_dns_message_to`: the size is a `uint16_t`. -/
def writeDnsMessageTo (out message : Bytes) : Bytes :=
  out ++ Wire.putU16 message.length.toUInt16 ++ message.take (message.length % 65536)

structure ConnectionInfo where
  upstreamConnId : Nat
  proto : IpProto
  addrs : TunnelAddressPair

inductive ClientConnectResult where
  | pass
  | drop
  | reject
  | unreach
  deriving DecidableEq

namespace DnsHandlerClientListenerBase

structure Connection where
  upstreamConnId : Nat
  proto : IpProto
  readEnabled : Bool
  sndBuf : Bytes
  udpPending : List Bytes

inductive Output where
  | connectRequest (id : Nat) (proto : IpProto) (addrs : TunnelAddressPair) (bypass : Bool)
  | connectionAccepted (id : Nat)
  | connectionClosed (id : Nat)
  | read (id : Nat) (data : Bytes)
  deriving DecidableEq

inductive Frame where
  /-- `send_as_listener` keeps the message of a new connection. -/
  | requested (id : Nat) (message : Bytes)
  /-- `complete_connect_request` raises what is pending. -/
  | accepted (id : Nat)
  | readUdp (id : Nat)
  /-- `raise_read` drops what was taken; its caller closes the connection if it failed. -/
  | readTcp (id : Nat) (async : Bool)

/-- Where `on_async_task` is: what is left of `to_close`, or of `to_send`. -/
inductive Loop where
  | idle
  | closing (rest : List Nat)
  | sending (rest : List Nat)
  deriving DecidableEq

end DnsHandlerClientListenerBase

open DnsHandlerClientListenerBase in
structure DnsHandlerClientListenerBase where
  nextId : Nat
  connections : Map Nat Connection
  connIdByUpstreamConnId : Map Nat Nat
  closedConnections : List Nat
  connectionsToSend : List Nat
  task : Bool
  stack : List Frame
  loop : Loop

variable (s : DnsHandlerClientListenerBase)

namespace DnsHandlerClientListenerBase

abbrev Part := DnsHandlerClientListenerBase × List Output

def initial : DnsHandlerClientListenerBase := ⟨1, ∅, ∅, [], [], false, [], .idle⟩

def setConn (id : Nat) (f : Connection → Connection) : DnsHandlerClientListenerBase :=
  { s with connections := s.connections.modify id f }

def push (f : Frame) : DnsHandlerClientListenerBase :=
  { s with stack := f :: s.stack }

def closeConnection (id : Nat) (async : Bool) : Part :=
  match s.connections.lookup id, async with
  | none, _ => (s, [])
  | some _, false => (s, [.connectionClosed id])
  | some _, true =>
    ({ s with closedConnections := s.closedConnections ++ [id], task := true }, [])

/-- One turn of the loop of `raise_read` over the pending messages. -/
def raiseUdp (id : Nat) : Part :=
  match (s.connections.lookup id).map Connection.udpPending with
  | some (message :: _) => (s.push (.readUdp id), [.read id message])
  | _ => (s, [])

/-- `raise_read`, up to its first event; `async` is how its caller closes the connection. -/
def raiseRead (id : Nat) (async : Bool) : Part :=
  match s.connections.lookup id with
  | none => (s, [])
  | some conn =>
    if !conn.readEnabled then (s, [])
    else
      match conn.proto with
      | .udp => s.raiseUdp id
      | .tcp =>
        if conn.sndBuf = [] then (s, [])
        else (s.push (.readTcp id async), [.read id conn.sndBuf])

def pendUdp (message : Bytes) (conn : Connection) : Connection :=
  { conn with udpPending := conn.udpPending ++ [message] }

def bufferTcp (message : Bytes) (conn : Connection) : Connection :=
  { conn with sndBuf := writeDnsMessageTo conn.sndBuf message }

def pend (message : Bytes) (conn : Connection) : Connection :=
  match conn.proto with
  | .udp => pendUdp message conn
  | .tcp => bufferTcp message conn

def sendAsListener (info : ConnectionInfo) (message : Bytes) (forceBypass : Bool) : Part :=
  match s.connIdByUpstreamConnId.lookup info.upstreamConnId with
  | none =>
    (({ s with
        nextId := s.nextId + 1
        connections := s.connections.emplace s.nextId ⟨info.upstreamConnId, info.proto, false, [], []⟩
        connIdByUpstreamConnId :=
          s.connIdByUpstreamConnId.emplace info.upstreamConnId s.nextId } :
        DnsHandlerClientListenerBase).push (.requested s.nextId message),
      [.connectRequest s.nextId info.proto info.addrs forceBypass])
  | some id =>
    match s.connections.lookup id with
    | none => (s, [])
    | some conn =>
      match conn.proto with
      | .udp =>
        if conn.readEnabled then (s, [.read id message])
        else if conn.udpPending.length < maxUdpQueueSize then (s.setConn id (pendUdp message), [])
        else (s, [])
      | .tcp => (s.setConn id (bufferTcp message)).raiseRead id true

def completeConnectRequest (id : Nat) (result : ClientConnectResult) : Part :=
  match s.connections.lookup id with
  | none => (s, [])
  | some _ =>
    if result ≠ .pass then s.closeConnection id false
    else
      ((s.setConn id fun conn => { conn with readEnabled := true }).push (.accepted id), [.connectionAccepted id])

def closeByUpstreamConnId (upstreamConnId : Nat) : Part :=
  match s.connIdByUpstreamConnId.lookup upstreamConnId with
  | none => (s, [])
  | some id => s.closeConnection id false

def turnRead (id : Nat) (readEnabled : Bool) : DnsHandlerClientListenerBase :=
  match s.connections.lookup id with
  | none => s
  | some conn =>
    let s' := if conn.proto = .tcp ∧ !conn.readEnabled ∧ readEnabled ∧ conn.sndBuf ≠ [] then
        { s with connectionsToSend := s.connectionsToSend ++ [id], task := true }
      else s
    s'.setConn id fun conn => { conn with readEnabled := readEnabled }

def onAsyncTask : DnsHandlerClientListenerBase :=
  { s with task := false, closedConnections := [], loop := .closing s.closedConnections }

def advance : Part :=
  match s.loop with
  | .idle => (s, [])
  | .closing (id :: rest) =>
    ({ s with loop := .closing rest }, if (s.connections.lookup id).isSome then [.connectionClosed id] else [])
  | .closing [] => ({ s with connectionsToSend := [], loop := .sending s.connectionsToSend }, [])
  | .sending (id :: rest) =>
    ({ s with loop := .sending rest } : DnsHandlerClientListenerBase).raiseRead id false
  | .sending [] => ({ s with loop := .idle }, [])

/-- `raise_read` fails for a TCP connection: the handler refused the data, or too much is left. -/
def readFails (conn : Connection) (result : Int) : Bool :=
  result < 0 || connMaxBuffered < conn.sndBuf.length - result.toNat

def dropTaken (id : Nat) (result : Int) : DnsHandlerClientListenerBase :=
  if result < 0 then s
  else s.setConn id fun conn => { conn with sndBuf := conn.sndBuf.drop result.toNat }

def finish (result : Int) : Frame → Part
  | .requested id message => (s.setConn id (pend message), [])
  | .accepted id => s.raiseRead id false
  | .readUdp id =>
    if result ≤ 0 then (s.setConn id fun conn => { conn with udpPending := [] }, [])
    else (s.setConn id fun conn => { conn with udpPending := conn.udpPending.tail }).raiseUdp id
  | .readTcp id async =>
    match s.connections.lookup id with
    | none => (s, [])
    | some conn =>
      if readFails conn result then (s.dropTaken id result).closeConnection id async
      else (s.dropTaken id result, [])

def resume (result : Int) : Part :=
  match s.stack with
  | frame :: stack => finish { s with stack := stack } result frame
  | [] => s.advance

inductive Call where
  | sendAsListener (info : ConnectionInfo) (message : Bytes) (forceBypass : Bool)
  | completeConnectRequest (id : Nat) (result : ClientConnectResult)
  | closeByUpstreamConnId (upstreamConnId : Nat)
  | closeConnection (id : Nat) (async : Bool)
  | turnRead (id : Nat) (readEnabled : Bool)
  | asyncTask
  | resume (result : Int)
  /-- Another listener takes an id from the generator. -/
  | takeId

def step : Call → Part
  | .sendAsListener info message forceBypass => s.sendAsListener info message forceBypass
  | .completeConnectRequest id result => s.completeConnectRequest id result
  | .closeByUpstreamConnId upstreamConnId => s.closeByUpstreamConnId upstreamConnId
  | .closeConnection id async => s.closeConnection id async
  | .turnRead id readEnabled => (s.turnRead id readEnabled, [])
  | .asyncTask => if s.task ∧ s.stack = [] ∧ s.loop = .idle then (s.onAsyncTask, []) else (s, [])
  | .resume result => s.resume result
  | .takeId => ({ s with nextId := s.nextId + 1 }, [])

def listener : System DnsHandlerClientListenerBase Call Output := ⟨initial, step⟩

abbrev History := List (Record DnsHandlerClientListenerBase Call Output)

/-! ## What is wanted -/

/-- The call closes the connection `id`: `close_connection` is called and finds it. -/
def Closes (id : Nat) : Call → Prop
  | .closeConnection i _ => i = id ∧ (s.connections.lookup id).isSome
  | .closeByUpstreamConnId u =>
    s.connIdByUpstreamConnId.lookup u = some id ∧ (s.connections.lookup id).isSome
  | .completeConnectRequest i result => i = id ∧ result ≠ .pass ∧ (s.connections.lookup id).isSome
  | .resume result => ∃ async stack conn, s.stack = .readTcp id async :: stack ∧
      s.connections.lookup id = some conn ∧ readFails conn result
  | _ => False

def Spares (e : Call) : Prop := ∀ id, ¬s.Closes id e

def Closed (h : History) (id : Nat) : Prop := ∃ r ∈ h, r.before.Closes id r.call

def Loop.toClose : Loop → List Nat
  | .closing rest => rest
  | _ => []

def closesDue : List Nat := s.closedConnections ++ s.loop.toClose

open System

/-- `CONNECTION_CLOSED` is raised once for a closed connection, which is in neither map after that, so
that no request is sent on it. -/
structure Kept (h : History) (s : DnsHandlerClientListenerBase) : Prop where
  once : ∀ id, Closed h id → (outputs h).count (.connectionClosed id) + s.closesDue.count id = 1
  gone : ∀ id, .connectionClosed id ∈ outputs h →
    s.connections.lookup id = none ∧ ∀ u, s.connIdByUpstreamConnId.lookup u ≠ some id

/-! ## The maps only grow -/

/-- Every connection is where it was, for the same upstream connection. -/
structure Grown (s t : DnsHandlerClientListenerBase) : Prop where
  connections : ∀ id c, s.connections.lookup id = some c →
    ∃ d, t.connections.lookup id = some d ∧ d.upstreamConnId = c.upstreamConnId
  ids : ∀ u id, s.connIdByUpstreamConnId.lookup u = some id → t.connIdByUpstreamConnId.lookup u = some id

theorem Grown.refl : Grown s s :=
  ⟨fun _ c h => ⟨c, h, rfl⟩, fun _ _ h => h⟩

variable {s t : DnsHandlerClientListenerBase} {id : Nat} {e : Call} {h : History}

theorem Grown.trans {u : DnsHandlerClientListenerBase} (h : Grown s t) (k : Grown t u) : Grown s u := by
  refine ⟨fun id c hc => ?_, fun v id hv => k.ids v id (h.ids v id hv)⟩
  obtain ⟨d, hd, hdc⟩ := h.connections id c hc
  obtain ⟨e, he, hed⟩ := k.connections id d hd
  exact ⟨e, he, hed.trans hdc⟩

/-- The two maps are in step. -/
structure Linked (s : DnsHandlerClientListenerBase) : Prop where
  ids : ∀ id c, s.connections.lookup id = some c → s.connIdByUpstreamConnId.lookup c.upstreamConnId = some id
  fresh : ∀ id c, s.connections.lookup id = some c → id < s.nextId

/-! ## What a call can do -/

structure Tame (s : DnsHandlerClientListenerBase) (r : Part) : Prop where
  grown : Grown s r.1
  linked : s.Linked → r.1.Linked
  closed : r.1.closedConnections = s.closedConnections
  loop : r.1.loop = s.loop
  task : s.task = true → r.1.task = true
  quiet : ∀ id, .connectionClosed id ∉ r.2

theorem Tame.andThen {o : List Output} {r : Part} (h : Tame s (t, o)) (k : Tame t r) : Tame s r where
  grown := h.grown.trans k.grown
  linked := fun hl => k.linked (h.linked hl)
  closed := k.closed.trans h.closed
  loop := k.loop.trans h.loop
  task := fun ht => k.task (h.task ht)
  quiet := k.quiet

section Parts

variable (s : DnsHandlerClientListenerBase)

theorem tame_nothing : Tame s (s, []) :=
  ⟨Grown.refl s, fun h => h, rfl, rfl, fun h => h, by simp⟩

theorem tame_push (f : Frame) {o : List Output} (ho : ∀ id, .connectionClosed id ∉ o) : Tame s (s.push f, o) :=
  ⟨⟨fun _ c h => ⟨c, h, rfl⟩, fun _ _ h => h⟩, fun h => ⟨h.ids, h.fresh⟩, rfl, rfl, fun h => h, ho⟩

theorem tame_setConn (id : Nat) {f : Connection → Connection}
    (hf : ∀ c, (f c).upstreamConnId = c.upstreamConnId) : Tame s (s.setConn id f, []) := by
  have hlookup : ∀ j d, (s.setConn id f).connections.lookup j = some d →
      ∃ c, s.connections.lookup j = some c ∧ d.upstreamConnId = c.upstreamConnId := by
    intro j d hd
    obtain ⟨c, hc, rfl⟩ := Map.of_lookup_modify hd
    refine ⟨c, hc, ?_⟩
    split
    · exact hf c
    · rfl
  refine ⟨⟨fun j c hc => ?_, fun _ _ h => h⟩, fun h => ⟨fun j d hd => ?_, fun j d hd => ?_⟩, rfl, rfl,
    fun h => h, by simp⟩
  · simp only [setConn, Map.lookup_modify_eq]
    split
    · next heq =>
      rw [← heq, hc]
      exact ⟨f c, rfl, hf c⟩
    · exact ⟨c, hc, rfl⟩
  · obtain ⟨c, hc, hup⟩ := hlookup j d hd
    rw [hup]
    exact h.ids j c hc
  · obtain ⟨c, hc, -⟩ := hlookup j d hd
    exact h.fresh j c hc

theorem raiseUdp_cases (id : Nat) :
    s.raiseUdp id = (s, []) ∨ ∃ data, s.raiseUdp id = (s.push (.readUdp id), [.read id data]) := by
  unfold raiseUdp
  split
  · exact .inr ⟨_, rfl⟩
  · exact .inl rfl

theorem raiseRead_cases (id : Nat) (async : Bool) : s.raiseRead id async = (s, []) ∨
      ∃ f data, (f = .readUdp id ∨ f = .readTcp id async) ∧
        s.raiseRead id async = (s.push f, [.read id data]) := by
  unfold raiseRead
  split
  · exact .inl rfl
  split
  · exact .inl rfl
  split
  · rcases s.raiseUdp_cases id with h | ⟨data, h⟩
    · exact .inl h
    · exact .inr ⟨_, data, .inl rfl, h⟩
  · split
    · exact .inl rfl
    · exact .inr ⟨_, _, .inr rfl, rfl⟩

theorem tame_raiseUdp (id : Nat) : Tame s (s.raiseUdp id) := by
  rcases s.raiseUdp_cases id with h | ⟨data, h⟩
  · rw [h]
    exact s.tame_nothing
  · rw [h]
    exact s.tame_push _ (by simp)

theorem tame_raiseRead (id : Nat) (async : Bool) : Tame s (s.raiseRead id async) := by
  rcases s.raiseRead_cases id async with h | ⟨f, data, -, h⟩
  · rw [h]
    exact s.tame_nothing
  · rw [h]
    exact s.tame_push _ (by simp)

theorem pend_upstreamConnId (message : Bytes) (c : Connection) :
    (pend message c).upstreamConnId = c.upstreamConnId := by
  unfold pend
  split <;> rfl

theorem tame_sendAsListener (info : ConnectionInfo) (message : Bytes) (forceBypass : Bool) :
    Tame s (s.sendAsListener info message forceBypass) := by
  unfold sendAsListener
  split
  · next hnone =>
    have hother : ∀ id u, s.connIdByUpstreamConnId.lookup u = some id → u ≠ info.upstreamConnId := by
      rintro id u hu rfl
      rw [hnone] at hu
      cases hu
    refine ⟨⟨fun id c hc => ?_, fun u id hu => ?_⟩, fun h => ⟨fun id c hc => ?_, fun id c hc => ?_⟩, rfl,
      rfl, fun h => h, by simp⟩
    · simp only [push, Map.lookup_emplace_eq]
      split
      · next heq =>
        rw [← heq, hc]
        exact ⟨c, rfl, rfl⟩
      · exact ⟨c, hc, rfl⟩
    · simp only [push, Map.lookup_emplace_eq, if_neg (hother id u hu)]
      exact hu
    -- the new connection is fresh, and so is its entry in the other map
    · have hfresh : s.connections.lookup s.nextId = none := by
        cases hn : s.connections.lookup s.nextId with
        | none => rfl
        | some d => exact absurd (h.fresh _ d hn) (Nat.lt_irrefl _)
      simp only [push, Map.lookup_emplace_eq, hfresh, hnone] at hc ⊢
      split at hc
      · next heq =>
        cases hc
        simp [heq]
      · have hids := h.ids id c hc
        rw [if_neg (hother id _ hids)]
        exact hids
    · simp only [push, Map.lookup_emplace_eq] at hc ⊢
      split at hc
      · next heq =>
        rw [heq]
        exact Nat.lt_succ_self _
      · exact Nat.lt_succ_of_lt (h.fresh id c hc)
  · split
    · exact s.tame_nothing
    split
    · split
      · exact ⟨Grown.refl s, fun h => h, rfl, rfl, fun h => h, by simp⟩
      · split
        · exact s.tame_setConn _ fun _ => rfl
        · exact s.tame_nothing
    · exact Tame.andThen (s.tame_setConn _ (by intro _; rfl)) (tame_raiseRead _ _ _)

theorem tame_dropTaken (id : Nat) (result : Int) : Tame s (s.dropTaken id result, []) := by
  unfold dropTaken
  split
  · exact s.tame_nothing
  · exact s.tame_setConn _ fun _ => rfl

theorem tame_turnRead (id : Nat) (readEnabled : Bool) : Tame s (s.turnRead id readEnabled, []) := by
  unfold turnRead
  split
  · exact s.tame_nothing
  have hsend : ∀ p : Prop, [Decidable p] → Tame s ((if p then
      { s with connectionsToSend := s.connectionsToSend ++ [id], task := true } else s), []) := by
    intro p _
    split
    · exact ⟨⟨fun _ c h => ⟨c, h, rfl⟩, fun _ _ h => h⟩, fun h => ⟨h.ids, h.fresh⟩, rfl,
        rfl, fun _ => rfl, by simp⟩
    · exact s.tame_nothing
  exact (hsend _).andThen (tame_setConn _ _ fun _ => rfl)

end Parts

section

variable (s : DnsHandlerClientListenerBase)

theorem step_cases (e : Call) : Tame s (s.step e) ∨
    (∃ t id async, Tame s (t, []) ∧ s.Closes id e ∧ s.step e = t.closeConnection id async) ∨
    (e = .asyncTask ∧ s.stack = [] ∧ s.loop = .idle ∧ s.step e = (s.onAsyncTask, [])) ∨
    ∃ result, e = .resume result ∧ s.stack = [] ∧ s.step e = s.advance := by
  cases e with
  | sendAsListener info message forceBypass => exact .inl (s.tame_sendAsListener info message forceBypass)
  | completeConnectRequest id result =>
    simp only [step, completeConnectRequest]
    split
    · exact .inl s.tame_nothing
    next c hc =>
    split
    · next hresult =>
      refine .inr (.inl ⟨s, id, false, s.tame_nothing, ⟨rfl, hresult, ?_⟩, rfl⟩)
      rw [hc]
      rfl
    · refine .inl (Tame.andThen (s.tame_setConn _ (by intro _; rfl)) (tame_push _ (.accepted id) ?_))
      simp
  | closeByUpstreamConnId u =>
    simp only [step, closeByUpstreamConnId]
    split
    · exact .inl s.tame_nothing
    next id hid =>
    cases hc : s.connections.lookup id with
    | none =>
      left
      simp only [closeConnection, hc]
      exact s.tame_nothing
    | some c =>
      refine .inr (.inl ⟨s, id, false, s.tame_nothing, ⟨hid, ?_⟩, rfl⟩)
      rw [hc]
      rfl
  | closeConnection id async =>
    cases hc : s.connections.lookup id with
    | none =>
      left
      simp only [step, closeConnection, hc]
      exact s.tame_nothing
    | some c =>
      refine .inr (.inl ⟨s, id, async, s.tame_nothing, ⟨rfl, ?_⟩, rfl⟩)
      rw [hc]
      rfl
  | turnRead id readEnabled => exact .inl (s.tame_turnRead id readEnabled)
  | asyncTask =>
    by_cases h : s.task ∧ s.stack = [] ∧ s.loop = .idle
    · exact .inr (.inr (.inl ⟨rfl, h.2.1, h.2.2, if_pos h⟩))
    · left
      rw [show s.step .asyncTask = (s, []) from if_neg h]
      exact s.tame_nothing
  | resume result =>
    simp only [step, resume]
    split
    · next frame stack hstack =>
      have hpop : Tame s ({ s with stack := stack }, []) :=
        ⟨⟨fun _ c h => ⟨c, h, rfl⟩, fun _ _ h => h⟩, fun h => ⟨h.ids, h.fresh⟩, rfl,
          rfl, fun h => h, by simp⟩
      cases frame with
      | requested id message =>
        exact .inl (hpop.andThen (tame_setConn _ _ (pend_upstreamConnId message)))
      | accepted id => exact .inl (hpop.andThen (tame_raiseRead _ _ _))
      | readUdp id =>
        left
        simp only [finish]
        split
        · exact hpop.andThen (tame_setConn _ _ fun _ => rfl)
        · exact Tame.andThen (hpop.andThen (tame_setConn _ _ (by intro _; rfl))) (tame_raiseUdp _ _)
      | readTcp id async =>
        simp only [finish]
        split
        · exact .inl hpop
        next conn hconn =>
        have htaken := hpop.andThen (tame_dropTaken _ id result)
        split
        · next hfail =>
          exact .inr (.inl ⟨_, id, async, htaken, ⟨async, stack, conn, hstack, hconn, hfail⟩, rfl⟩)
        · exact .inl htaken
    · next hstack => exact .inr (.inr (.inr ⟨result, rfl, hstack, rfl⟩))
  | takeId =>
    left
    exact ⟨⟨fun _ c h => ⟨c, h, rfl⟩, fun _ _ h => h⟩,
      fun h => ⟨h.ids, fun id c hc => Nat.lt_succ_of_lt (h.fresh id c hc)⟩, rfl, rfl, fun h => h,
      fun _ => not_mem_nil⟩

theorem closeConnection_spec {async : Bool} (h : (s.connections.lookup id).isSome) :
    s.closeConnection id async = if async then
        ({ s with closedConnections := s.closedConnections ++ [id], task := true }, [])
      else (s, [.connectionClosed id]) := by
  obtain ⟨c, hc⟩ := isSome_iff_exists.mp h
  cases async <;> simp [closeConnection, hc]

structure Turn (s : DnsHandlerClientListenerBase) (r : Part) : Prop where
  grown : Grown s r.1
  linked : s.Linked → r.1.Linked
  closed : r.1.closedConnections = s.closedConnections
  task : s.task = true → r.1.task = true
  reported : ∀ id, .connectionClosed id ∈ r.2 → id ∈ s.loop.toClose ∧ (s.connections.lookup id).isSome
  left : ∀ id ∈ r.1.loop.toClose, id ∈ s.loop.toClose
  served : ∀ id ∈ s.loop.toClose, (s.connections.lookup id).isSome →
    .connectionClosed id ∈ r.2 ∨ id ∈ r.1.loop.toClose

theorem turn_advance : Turn s s.advance := by
  have hframe : ∀ l c, Grown s { s with loop := l, connectionsToSend := c } ∧
      (s.Linked → Linked { s with loop := l, connectionsToSend := c }) := fun l c =>
    ⟨⟨fun _ c h => ⟨c, h, rfl⟩, fun _ _ h => h⟩, fun h => ⟨h.ids, h.fresh⟩⟩
  unfold advance
  split
  · next hloop =>
    exact ⟨Grown.refl s, fun h => h, rfl, fun h => h, nofun, fun _ h => h, fun id hid _ => .inr hid⟩
  · next id rest hloop =>
    obtain ⟨hgrown, hlinked⟩ := hframe (.closing rest) s.connectionsToSend
    refine ⟨hgrown, hlinked, rfl, fun h => h, fun j hj => ?_, fun j hj => ?_, fun j hj hsome => ?_⟩
    · split at hj
      · next hsome =>
        simp only [mem_singleton, Output.connectionClosed.injEq] at hj
        subst hj
        rw [hloop]
        exact ⟨mem_cons_self, hsome⟩
      · cases hj
    · rw [hloop]
      exact mem_cons_of_mem _ hj
    · rw [hloop] at hj
      rcases mem_cons.mp hj with rfl | hj
      · left
        rw [if_pos hsome]
        exact mem_singleton_self _
      · exact .inr hj
  · next hloop =>
    obtain ⟨hgrown, hlinked⟩ := hframe (.sending s.connectionsToSend) []
    refine ⟨hgrown, hlinked, rfl, fun h => h, nofun, nofun, fun j hj => ?_⟩
    rw [hloop] at hj
    cases hj
  · next id rest hloop =>
    obtain ⟨hgrown, hlinked⟩ := hframe (.sending rest) s.connectionsToSend
    have hread := tame_raiseRead { s with loop := .sending rest } id false
    refine ⟨hgrown.trans hread.grown, fun h => hread.linked (hlinked h), hread.closed, hread.task,
      fun j hj => absurd hj (hread.quiet j), fun j hj => ?_, fun j hj => ?_⟩
    · rw [hread.loop] at hj
      cases hj
    · rw [hloop] at hj
      cases hj
  · next hloop =>
    obtain ⟨hgrown, hlinked⟩ := hframe .idle s.connectionsToSend
    refine ⟨hgrown, hlinked, rfl, fun h => h, nofun, nofun, fun j hj => ?_⟩
    rw [hloop] at hj
    cases hj

end

/-- In every run the maps are in step, and a connection that was reported closed is still there. -/
structure Inv (h : History) (s : DnsHandlerClientListenerBase) : Prop where
  linked : s.Linked
  reported : ∀ id, .connectionClosed id ∈ outputs h → (s.connections.lookup id).isSome

theorem Grown.isSome (h : Grown s t) (hs : (s.connections.lookup id).isSome) : (t.connections.lookup id).isSome := by
  obtain ⟨c, hc⟩ := isSome_iff_exists.mp hs
  obtain ⟨d, hd, -⟩ := h.connections id c hc
  rw [hd]
  rfl

theorem Closes.known (h : s.Closes id e) : (s.connections.lookup id).isSome := by
  cases e with
  | closeConnection i async | closeByUpstreamConnId u => exact h.2
  | completeConnectRequest i result => exact h.2.2
  | resume result =>
    obtain ⟨async, stack, conn, -, hconn, -⟩ := h
    rw [hconn]
    rfl
  | sendAsListener info message forceBypass | turnRead i readEnabled | asyncTask | takeId =>
    exact h.elim

theorem step_keeps (e : Call) : Grown s (s.step e).1 ∧ (s.Linked → (s.step e).1.Linked) ∧
      ∀ id, .connectionClosed id ∈ (s.step e).2 → (s.connections.lookup id).isSome := by
  rcases s.step_cases e with h | ⟨t, id, async, ht, hc, heq⟩ | ⟨-, -, -, heq⟩ | ⟨result, -, -, heq⟩
  · exact ⟨h.grown, h.linked, fun id hid => absurd hid (h.quiet id)⟩
  · have hknown := hc.known
    rw [heq, closeConnection_spec t (ht.grown.isSome hknown)]
    cases async with
    | true =>
      exact ⟨ht.grown.trans ⟨fun _ c h => ⟨c, h, rfl⟩, fun _ _ h => h⟩,
        fun h => ⟨(ht.linked h).ids, (ht.linked h).fresh⟩, nofun⟩
    | false =>
      refine ⟨ht.grown, ht.linked, fun j hj => ?_⟩
      cases mem_singleton.mp hj
      exact hknown
  · rw [heq]
    exact ⟨⟨fun _ c h => ⟨c, h, rfl⟩, fun _ _ h => h⟩, fun h => ⟨h.ids, h.fresh⟩, nofun⟩
  · rw [heq]
    have hturn := s.turn_advance
    exact ⟨hturn.grown, hturn.linked, fun id hid => (hturn.reported id hid).2⟩

theorem inv_of_run (es : List Call) : Inv (listener.trace initial es) (listener.exec initial es) := by
  refine listener.inv_run (J := Inv) ⟨⟨?_, ?_⟩, nofun⟩ (fun h s e hi _ => ?_) es (listener.meets_true _ _)
  · intro id c hc
    cases hc
  · intro id c hc
    cases hc
  obtain ⟨hgrown, hlinked, hreport⟩ := s.step_keeps e
  refine ⟨hlinked hi.linked, fun id hid => hgrown.isSome ?_⟩
  rw [outputs_append, outputs_record, mem_append] at hid
  exact hid.elim (hi.reported id) (hreport id)

/-! ## Runs that close nothing -/

structure Untouched (h : History) (s : DnsHandlerClientListenerBase) : Prop where
  none : ∀ id, ¬Closed h id
  quiet : ∀ id, .connectionClosed id ∉ outputs h
  due : s.closesDue = []

theorem Untouched.kept (hu : Untouched h s) : Kept h s :=
  ⟨fun id hid => absurd hid (hu.none id), fun id hid => absurd hid (hu.quiet id)⟩

theorem Untouched.step (hu : Untouched h s) (he : s.Spares e) :
    Untouched (h ++ [listener.record s e]) (s.step e).1 := by
  have hdue := append_eq_nil_iff.mp hu.due
  have hstep : (∀ id, .connectionClosed id ∉ (s.step e).2) ∧ (s.step e).1.closesDue = [] := by
    rcases s.step_cases e with ht | ⟨t, id, async, -, hc, -⟩ | ⟨-, -, hloop, heq⟩ | ⟨result, -, -, heq⟩
    · refine ⟨ht.quiet, ?_⟩
      rw [closesDue, ht.closed, ht.loop]
      exact hu.due
    · exact absurd hc (he id)
    · rw [heq]
      refine ⟨nofun, ?_⟩
      simp [closesDue, onAsyncTask, Loop.toClose, hdue.1]
    rw [heq]
    have hturn := s.turn_advance
    refine ⟨fun id hid => ?_, ?_⟩
    · have hmem := (hturn.reported id hid).1
      rw [hdue.2] at hmem
      cases hmem
    · rw [closesDue, hturn.closed, hdue.1]
      refine eq_nil_iff_forall_not_mem.mpr fun id hid => ?_
      have hmem := hturn.left id hid
      rw [hdue.2] at hmem
      cases hmem
  refine ⟨fun id hid => ?_, fun id hid => ?_, hstep.2⟩
  · obtain ⟨r, hr, hc⟩ := hid
    rcases mem_append.mp hr with hr | hr
    · exact hu.none id ⟨r, hr, hc⟩
    · cases mem_singleton.mp hr
      exact he id hc
  · rw [outputs_append, outputs_record, mem_append] at hid
    exact hid.elim (hu.quiet id) (hstep.1 id)

theorem untouched_of_run {es : List Call} (hm : listener.Meets Spares initial es) :
    Untouched (listener.trace initial es) (listener.exec initial es) := by
  refine listener.inv_run ⟨?_, nofun, rfl⟩ (fun h s e hu he => hu.step he) es hm
  rintro id ⟨r, hr, -⟩
  cases hr

/-! ## A queued close comes through -/

def Frame.weight : Frame → Nat
  | .accepted _ => 2
  | _ => 1

def load (s : DnsHandlerClientListenerBase) : Nat :=
  (s.stack.map Frame.weight).sum + match s.loop with
    | .idle => 0
    | .closing rest => rest.length + 2 * s.connectionsToSend.length + 2
    | .sending rest => 2 * rest.length + 1

theorem load_raiseRead (s : DnsHandlerClientListenerBase) (id : Nat) (async : Bool) :
    (s.raiseRead id async).1.load ≤ s.load + 1 := by
  rcases s.raiseRead_cases id async with h | ⟨f, data, hf, h⟩
  · rw [h]
    exact Nat.le_succ _
  have hweight : f.weight = 1 := by rcases hf with rfl | rfl <;> rfl
  rw [h]
  simp only [push, load, map_cons, sum_cons]
  omega

theorem load_closeConnection (async : Bool) : (s.closeConnection id async).1.load = s.load := by
  unfold closeConnection
  split <;> rfl

theorem load_resume (h : ¬(s.stack = [] ∧ s.loop = .idle)) : (s.resume 0).1.load < s.load := by
  unfold resume
  split
  · next frame stack hstack =>
    have hpop : ({ s with stack := stack }).load + frame.weight = s.load := by
      simp only [load, hstack, map_cons, sum_cons]
      omega
    cases frame with
    | requested id message | readUdp id =>
      show ({ s with stack := stack }).load < _
      simp only [Frame.weight] at hpop
      omega
    | accepted id =>
      have hread := load_raiseRead { s with stack := stack } id false
      simp only [Frame.weight] at hpop
      simp only [finish]
      omega
    | readTcp id async =>
      simp only [Frame.weight] at hpop
      simp only [finish]
      split
      · show ({ s with stack := stack }).load < _
        omega
      split
      · rw [load_closeConnection]
        show ({ s with stack := stack }).load < _
        omega
      · show ({ s with stack := stack }).load < _
        omega
  · next hstack =>
    unfold advance
    split
    · next hloop => exact absurd ⟨hstack, hloop⟩ h
    · next id rest hloop =>
      simp only [load, hloop, length_cons]
      omega
    · next hloop =>
      simp only [load, hloop]
      omega
    · next id rest hloop =>
      have hread := load_raiseRead { s with loop := .sending rest } id false
      simp only [load, hloop, length_cons] at hread ⊢
      omega
    · next hloop =>
      simp only [load, hloop]
      omega

def resumes (n : Nat) : List Call := List.replicate n (.resume 0)

theorem returns (s : DnsHandlerClientListenerBase) :
    ∃ n, (listener.exec s (resumes n)).stack = [] ∧ (listener.exec s (resumes n)).loop = .idle := by
  induction hn : s.load using Nat.strongRecOn generalizing s with
  | ind k ih =>
    by_cases hdone : s.stack = [] ∧ s.loop = .idle
    · exact ⟨0, hdone.1, hdone.2⟩
    · obtain ⟨n, hstack, hloop⟩ := ih _ (hn ▸ load_resume hdone) (s.resume 0).1 rfl
      exact ⟨n + 1, hstack, hloop⟩

structure Queued (s : DnsHandlerClientListenerBase) (id : Nat) : Prop where
  mem : id ∈ s.closedConnections
  task : s.task = true
  known : (s.connections.lookup id).isSome

theorem Queued.resume (h : s.Queued id) (result : Int) : (s.step (.resume result)).1.Queued id := by
  have hknown := (s.step_keeps (.resume result)).1.isSome h.known
  rcases s.step_cases (.resume result) with ht | ⟨t, j, async, ht, hc, heq⟩ | ⟨h, -⟩ | ⟨r, -, -, heq⟩
  · exact ⟨ht.closed ▸ h.mem, ht.task h.task, hknown⟩
  · rw [heq, closeConnection_spec t (ht.grown.isSome hc.known)] at hknown ⊢
    have hmem : id ∈ t.closedConnections := ht.closed ▸ h.mem
    cases async with
    | true => exact ⟨mem_append_left _ hmem, rfl, hknown⟩
    | false => exact ⟨hmem, ht.task h.task, hknown⟩
  · cases h
  · rw [heq] at hknown ⊢
    have hturn := s.turn_advance
    exact ⟨hturn.closed ▸ h.mem, hturn.task h.task, hknown⟩

theorem Queued.resumes (h : s.Queued id) (n : Nat) : (listener.exec s (resumes n)).Queued id := by
  induction n generalizing s with
  | zero => exact h
  | succ n ih => exact ih (h.resume 0)

theorem reported_or_left (h : id ∈ s.loop.toClose) (hk : (s.connections.lookup id).isSome) (n : Nat) :
    .connectionClosed id ∈ outputs (listener.trace s (resumes n)) ∨
      id ∈ (listener.exec s (resumes n)).loop.toClose := by
  induction n generalizing s with
  | zero => exact .inr h
  | succ n ih =>
    have hknown := (s.step_keeps (.resume 0)).1.isSome hk
    have hstep : .connectionClosed id ∈ (s.step (.resume 0)).2 ∨ id ∈ (s.step (.resume 0)).1.loop.toClose := by
      rcases s.step_cases (.resume 0) with ht | ⟨t, j, async, ht, hc, heq⟩ | ⟨h, -⟩ | ⟨r, -, -, heq⟩
      · exact .inr (ht.loop ▸ h)
      · rw [heq, closeConnection_spec t (ht.grown.isSome hc.known)]
        have hmem : id ∈ t.loop.toClose := ht.loop ▸ h
        cases async <;> exact .inr hmem
      · cases h
      · rw [heq]
        exact s.turn_advance.served id h hk
    rcases hstep with hout | hleft
    · refine .inl (mem_flatMap.mpr ⟨_, mem_cons_self, hout⟩)
    rcases ih hleft hknown with hout | hleft
    · left
      obtain ⟨r, hr, hout⟩ := mem_flatMap.mp hout
      exact mem_flatMap.mpr ⟨r, mem_cons_of_mem _ hr, hout⟩
    · exact .inr hleft

def Call.internal (e : Call) : Prop := e = .asyncTask ∨ ∃ result, e = .resume result

open DnsHandlerClientListenerBase

theorem reaches_closed (h : s.Queued id) : ∃ fs, (∀ e ∈ fs, e.internal) ∧
      .connectionClosed id ∈ outputs (listener.trace s fs) := by
  obtain ⟨n, hstack, hloop⟩ := returns s
  have hq := h.resumes n
  generalize ht : listener.exec s (resumes n) = t at hstack hloop hq
  have hrun : t.step .asyncTask = (t.onAsyncTask, []) := if_pos ⟨hq.task, hstack, hloop⟩
  obtain ⟨m, -, hidle⟩ := returns t.onAsyncTask
  have hout : .connectionClosed id ∈ outputs (listener.trace t.onAsyncTask (resumes m)) := by
    refine (reported_or_left (s := t.onAsyncTask) hq.mem hq.known m).resolve_right fun hleft => ?_
    rw [hidle] at hleft
    cases hleft
  refine ⟨resumes n ++ .asyncTask :: resumes m, fun e he => ?_, ?_⟩
  · rcases mem_append.mp he with he | he
    · exact .inr ⟨0, eq_of_mem_replicate he⟩
    · rcases mem_cons.mp he with rfl | he
      · exact .inl rfl
      · exact .inr ⟨0, eq_of_mem_replicate he⟩
  · rw [trace_append, ht, outputs_append, mem_append]
    right
    show _ ∈ (t.step .asyncTask).2 ++ outputs (listener.trace (t.step .asyncTask).1 (resumes m))
    rw [hrun]
    exact hout

theorem closed_or_queued (async : Bool) (h : (s.connections.lookup id).isSome) :
    .connectionClosed id ∈ (s.closeConnection id async).2 ∨ (s.closeConnection id async).1.Queued id := by
  rw [closeConnection_spec s h]
  cases async with
  | true => exact .inr ⟨mem_append_right _ (mem_singleton_self _), rfl, h⟩
  | false => exact .inl (mem_singleton_self _)

theorem Closes.leads (h : s.Closes id e) : .connectionClosed id ∈ (s.step e).2 ∨ (s.step e).1.Queued id := by
  have hknown := h.known
  cases e with
  | closeConnection i async =>
    obtain ⟨rfl, -⟩ := h
    exact closed_or_queued async hknown
  | closeByUpstreamConnId u =>
    simp only [step, closeByUpstreamConnId, h.1]
    exact closed_or_queued false hknown
  | completeConnectRequest i result =>
    obtain ⟨rfl, hresult, -⟩ := h
    obtain ⟨c, hc⟩ := isSome_iff_exists.mp hknown
    simp only [step, completeConnectRequest, hc, if_pos hresult]
    exact closed_or_queued false hknown
  | resume result =>
    obtain ⟨async, stack, conn, hstack, hconn, hfail⟩ := h
    simp only [step, resume, hstack, finish, hconn, hfail]
    exact closed_or_queued async ((tame_dropTaken _ id result).grown.isSome hknown)
  | sendAsListener info message forceBypass | turnRead i readEnabled | asyncTask | takeId =>
    exact h.elim

/-! ## Runs -/

theorem Inv.not_kept (hi : Inv h s) (hid : .connectionClosed id ∈ outputs h) : ¬Kept h s := by
  intro hk
  have hsome := hi.reported id hid
  rw [(hk.gone id hid).1] at hsome
  cases hsome

theorem sendAsListener_known {info : ConnectionInfo}
    (h : s.connIdByUpstreamConnId.lookup info.upstreamConnId = some id) (message : Bytes) (forceBypass : Bool)
    (i : Nat) (p : IpProto) (a : TunnelAddressPair) (b : Bool) :
    .connectRequest i p a b ∉ (s.sendAsListener info message forceBypass).2 := by
  unfold sendAsListener
  split
  · next hnone =>
    rw [hnone] at h
    cases h
  next j _ =>
  split
  · simp
  split
  · split
    · simp
    · split <;> simp
  · rcases raiseRead_cases (s.setConn j (bufferTcp message)) j true with heq | ⟨f, data, -, heq⟩
    · simp [heq]
    · simp [heq]

/-- As long as no call closes a connection that is there, what is wanted of closed connections holds; it
is lost when a call does, at once or when the task has run. In every run, a connection that was reported
closed is in both maps, and a request of its upstream connection opens no other. -/
theorem listener_closes (es : List Call) : (listener.Meets Spares initial es →
      Kept (listener.trace initial es) (listener.exec initial es) ∧
      ∀ e, ¬(listener.exec initial es).Spares e → ∃ fs, (∀ f ∈ fs, f.internal) ∧
        ¬Kept (listener.trace initial (es ++ e :: fs)) (listener.exec initial (es ++ e :: fs))) ∧
    ∀ id, .connectionClosed id ∈ outputs (listener.trace initial es) →
      ∃ c, (listener.exec initial es).connections.lookup id = some c ∧
        (listener.exec initial es).connIdByUpstreamConnId.lookup c.upstreamConnId = some id ∧
        ∀ info message forceBypass, info.upstreamConnId = c.upstreamConnId → ∀ i p a b,
          .connectRequest i p a b ∉ ((listener.exec initial es).sendAsListener info message forceBypass).2 := by
  refine ⟨fun hm => ⟨(untouched_of_run hm).kept, fun e he => ?_⟩, fun id hid => ?_⟩
  · simp only [Spares, not_forall, not_not] at he
    obtain ⟨id, hc⟩ := he
    have hlost : ∀ fs, .connectionClosed id ∈ outputs (listener.trace initial (es ++ e :: fs)) →
        ¬Kept (listener.trace initial (es ++ e :: fs)) (listener.exec initial (es ++ e :: fs)) :=
      fun fs => (inv_of_run (es ++ e :: fs)).not_kept
    have htrace : ∀ fs, outputs (listener.trace initial (es ++ e :: fs)) =
        outputs (listener.trace initial es) ++ (((listener.exec initial es).step e).2 ++
          outputs (listener.trace ((listener.exec initial es).step e).1 fs)) := by
      intro fs
      rw [trace_append, outputs_append]
      rfl
    rcases hc.leads with hout | hq
    · refine ⟨[], nofun, hlost [] ?_⟩
      rw [htrace]
      exact mem_append_right _ (mem_append_left _ hout)
    · obtain ⟨fs, hfs, hout⟩ := reaches_closed hq
      refine ⟨fs, hfs, hlost fs ?_⟩
      rw [htrace]
      exact mem_append_right _ (mem_append_right _ hout)
  · have hi := inv_of_run es
    obtain ⟨c, hc⟩ := isSome_iff_exists.mp (hi.reported id hid)
    have hids := hi.linked.ids id c hc
    refine ⟨c, hc, hids, fun info message forceBypass hup => ?_⟩
    rw [← hup] at hids
    exact sendAsListener_known hids message forceBypass

/-- A request is opened, rejected, and closed from the upstream side as well. -/
def rejectedRun : List Call :=
  [.sendAsListener ⟨7, .udp, ⟨.empty, .sock .empty⟩⟩ [0] false, .resume 0,
    .completeConnectRequest 1 .reject, .closeByUpstreamConnId 7]

/-- The connection is reported closed twice, is still in both maps, and the next request of the same
upstream connection is put on it. -/
theorem rejected_stays : outputs (listener.trace initial rejectedRun) =
      [.connectRequest 1 .udp ⟨.empty, .sock .empty⟩ false, .connectionClosed 1, .connectionClosed 1] ∧
    ((listener.exec initial rejectedRun).connections.lookup 1).isSome ∧
    (listener.exec initial rejectedRun).connIdByUpstreamConnId.lookup 7 = some 1 ∧
    ((listener.exec initial rejectedRun).sendAsListener ⟨7, .udp, ⟨.empty, .sock .empty⟩⟩ [1] false).2 = [] ∧
    (((listener.exec initial rejectedRun).sendAsListener ⟨7, .udp, ⟨.empty, .sock .empty⟩⟩ [1]
      false).1.connections.lookup 1).map Connection.udpPending = some [[0], [1]] := by
  decide

end DnsHandlerClientListenerBase

end TrustTunnel.Dns
