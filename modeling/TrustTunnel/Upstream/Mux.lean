import TrustTunnel.Core.Types
import TrustTunnel.Lib.Map
import TrustTunnel.Lib.System

/-!
# Upstream.Mux

`UpstreamMultiplexer`: a pool of child upstreams that share the connections of one session.

A child answers synchronously whether it opens its session or a connection, and when its session is
closed it reports each of its connections. These answers are the `Replies` of a call. Everything
else a child does arrives as an event. The parent's handler does not call back into the multiplexer
while an event is raised. The iteration order of a hash map is arbitrary: `reorderPool` and
`reorderPending` may change it between any two calls.
-/

namespace TrustTunnel.Upstream

open Lib

inductive UpstreamState where
  | openingSession
  | sessionOpened
  deriving DecidableEq

structure UpstreamInfo where
  state : UpstreamState
  connections : List ConnId

structure Request where
  addr : TunnelAddressPair
  proto : Nat
  appName : Bytes
  deriving DecidableEq

structure PendingConnection where
  upstreamId : Nat
  request : Request
  deriving DecidableEq

inductive ChildCall where
  | openSession (timeout : Option Nat)
  | closeSession
  | openConnection (id : ConnId) (request : Request)
  | closeConnection (id : ConnId) (graceful async : Bool)
  deriving DecidableEq

inductive Output where
  | raised (e : ServerEvent)
  | asked (upstream : Nat) (call : ChildCall)
  | opened (ok : Bool)
  | returned (id : ConnId)
  deriving DecidableEq

structure Replies where
  openSession : Bool
  openConnection : ConnId → Bool
  /-- the answer of the second child that is asked to open a connection -/
  fallback : ConnId → Bool
  /-- how a closing child reports a connection: with an error, or as closed -/
  fault : ConnId → Option VpnError

structure Mux where
  maxUpstreamsNum : Nat
  pool : Map Nat UpstreamInfo
  connections : Map ConnId Nat
  pending : Map ConnId PendingConnection
  pendingError : Option VpnError
  sessionOpen : Bool
  /-- the counter that all multiplexers take upstream ids from -/
  nextUpstreamId : Nat
  nextConnId : ConnId

def defaultUpstreamsNum : Nat := 8

def newUpstreamConnectionsNumThreshold : Nat := 5

abbrev Part := Mux × List Output

variable (m : Mux)

namespace Mux

def init (upstreamsNum : Nat) : Mux where
  maxUpstreamsNum := if upstreamsNum = 0 then defaultUpstreamsNum else upstreamsNum
  pool := ∅
  connections := ∅
  pending := ∅
  pendingError := none
  sessionOpen := false
  nextUpstreamId := 0
  nextConnId := 1

/-! ## Choosing an upstream -/

def childConnectionsNum (u : Nat) : Nat :=
  ((m.pool.lookup u).map (·.connections.length)).getD 0

def connectionsNumByUpstream (u : Nat) : Nat :=
  m.childConnectionsNum u + m.pending.entries.countP fun e => e.2.upstreamId == u

def lighter (best : Option Nat) (u : Nat) : Option Nat :=
  match best with
  | none => some u
  | some b => if m.childConnectionsNum b > m.childConnectionsNum u then some u else some b

def leastLoaded (ids : List Nat) : Option Nat := ids.foldl m.lighter none

def selectExistingUpstream (ignored : Option Nat) (allowUnderflow : Bool) : Option Nat :=
  let others := m.pool.keys.filter fun u => ignored != some u
  match others.find? fun u => m.connectionsNumByUpstream u < newUpstreamConnectionsNumThreshold with
  | some u => some u
  | none =>
    if allowUnderflow || m.pool.size == defaultUpstreamsNum then m.leastLoaded others else none

def selectUpstreamForConnection : Nat × Mux :=
  match m.selectExistingUpstream none false with
  | some u => (u, m)
  | none => (m.nextUpstreamId, { m with nextUpstreamId := m.nextUpstreamId + 1 })

/-! ## Opening -/

/-- The child is made and asked to open its session; it joins the pool when it agrees. -/
def openNewUpstream (u : Nat) (timeout : Option Nat) (accepts : Bool) : Bool × Part :=
  if accepts then
    (true, { m with pool := m.pool.insert u ⟨.openingSession, []⟩ }, [.asked u (.openSession timeout)])
  else (false, m, [.asked u (.openSession timeout)])

def connect (u : Nat) (id : ConnId) : Mux :=
  { m with
    pool := m.pool.modify u fun i => { i with connections := id :: i.connections }
    connections := m.connections.emplace id u }

/-- `open_connection` on a given upstream; `accepts` is the answer of its child. -/
def openConnectionOn (u : Nat) (id : ConnId) (request : Request) (accepts : Bool) : Bool × Part :=
  match m.pool.lookup u with
  | none => (false, m, [])
  | some info =>
    match info.state with
    | .openingSession => (true, { m with pending := m.pending.emplace id ⟨u, request⟩ }, [])
    | .sessionOpened =>
      if accepts then (true, m.connect u id, [.asked u (.openConnection id request)])
      else (false, m, [.asked u (.openConnection id request)])

def openSession (timeout : Option Nat) (r : Replies) : Part :=
  if m.pool.entries.isEmpty then
    let (u, m1) := m.selectUpstreamForConnection
    let (ok, m2, asked) := m1.openNewUpstream u timeout r.openSession
    (m2, asked ++ [.opened ok])
  else (m, [.opened false])

/-- `open_connection`. The id generator is taken to have ids left: `NON_ID` is not one. -/
def openConnection (request : Request) (r : Replies) : Part :=
  if m.pool.entries.isEmpty || m.nextConnId == nonId then (m, [.returned nonId])
  else
    let (u, m1) := m.selectUpstreamForConnection
    let id := m1.nextConnId
    let m2 := { m1 with nextConnId := id + 1 }
    if (m2.pool.lookup u).isSome then
      let (ok, m3, asked) := m2.openConnectionOn u id request (r.openConnection id)
      (m3, asked ++ [.returned (if ok then id else nonId)])
    else
      let (ok, m3, asked) := m2.openNewUpstream u none r.openSession
      if ok then
        ({ m3 with pending := m3.pending.emplace id ⟨u, request⟩ }, asked ++ [.returned id])
      else
        match m3.selectExistingUpstream (some u) true with
        | some v =>
          let (ok, m4, asked') := m3.openConnectionOn v id request (r.openConnection id)
          (m4, asked ++ asked' ++ [.returned (if ok then id else nonId)])
        | none => (m3, asked ++ [.returned nonId])

def closeConnection (id : ConnId) (graceful async : Bool) : Part :=
  match m.connections.lookup id with
  | none => (m, [])
  | some u =>
    if (m.pool.lookup u).isSome then (m, [.asked u (.closeConnection id graceful async)])
    else (m, [])

/-! ## Closing -/

/-- A child reports the end of a connection, and the multiplexer passes it on. -/
def reportConnection (fault : ConnId → Option VpnError) (id : ConnId) (m : Mux) : Part :=
  ({ m with connections := m.connections.erase id }, [.raised (match fault id with
      | none => .connectionClosed id
      | some e => .error id e)])

/-- A child closes its session: it reports all its connections. -/
def childReports (u : Nat) (fault : ConnId → Option VpnError) (m : Mux) : Part :=
  match m.pool.lookup u with
  | none => (m, [])
  | some info =>
    andDo (forEach (reportConnection fault) info.connections m) fun m' =>
      ({ m' with pool := m'.pool.modify u fun i => { i with connections := [] } }, [])

def childCloseSession (u : Nat) (fault : ConnId → Option VpnError) (m : Mux) : Part :=
  andDo (m, [.asked u .closeSession]) (childReports u fault)

def closeSession (r : Replies) : Part :=
  andDo (forEach (fun u => childCloseSession u r.fault) m.pool.keys m) fun m' =>
    ({ m' with pool := ∅, connections := ∅, pending := ∅, pendingError := none },
      m'.pending.entries.map fun e => .raised (.error e.1 ⟨.connReset, "Session closed"⟩))

def closeUpstream (u : Nat) (m : Mux) : Part :=
  if (m.pool.lookup u).isNone then (m, [])
  else
    let m' := { m with pool := m.pool.erase u }
    if !m'.pool.entries.isEmpty then (m', [])
    else
      match m'.pendingError with
      | some e =>
        ({ m' with sessionOpen := false, pendingError := none }, [.raised (.error nonId e)])
      | none => ({ m' with sessionOpen := false }, [.raised .sessionClosed])

/-! ## Events of the children -/

def isFatalError (e : VpnError) : Bool :=
  e.code == .authRequired || e.code == .certificateVerificationFailed
    || e.code == .certificateNotYetValid

/-- `m_upstreams_pool.begin()->first` -/
def firstUpstream : Option Nat := m.pool.keys.head?

/-- The second try of `proceed_pending_connection`, on the first upstream of the pool. -/
def fallBack (id : ConnId) (request : Request) (r : Replies) (m : Mux) : Part :=
  match m.firstUpstream with
  | none => (m, [])
  | some v =>
    match m.openConnectionOn v id request (r.fallback id) with
    | (true, part) => part
    | (false, part) =>
      andDo part fun m' => (m', [.raised (.error id ⟨.connRefused, "Failed to connect"⟩)])

def proceedPendingConnection (u : Nat) (id : ConnId) (request : Request) (r : Replies) : Part :=
  match m.openConnectionOn u id request (r.openConnection id) with
  | (true, part) => part
  | (false, part) => andDo part (fallBack id request r)

/-- One pass of the loop over the pending connections of a child that has opened. -/
def proceedAndErase (u : Nat) (r : Replies) (e : (_ : ConnId) × PendingConnection) (m : Mux) : Part :=
  andDo (m.proceedPendingConnection u e.1 e.2.request r) fun m' =>
    ({ m' with pending := m'.pending.erase e.1 }, [])

/-- One pass of the loop over the pending connections of a child that has closed. -/
def refusePending (e : (_ : ConnId) × PendingConnection) (m : Mux) : Part :=
  ({ m with pending := m.pending.erase e.1 }, [.raised (.error e.1 ⟨.connRefused, "Session closed"⟩)])

/-- The pending connections that wait for `u`, in iteration order. -/
def pendingOf (u : Nat) : List ((_ : ConnId) × PendingConnection) :=
  m.pending.entries.filter fun e => e.2.upstreamId == u

def forgetConnection (u : Nat) (id : ConnId) : Mux :=
  { m with
    connections := m.connections.erase id
    pool := m.pool.modify u fun i => { i with connections := i.connections.erase id } }

def childOpened (u : Nat) (r : Replies) : Part :=
  let raised : List Output := if m.sessionOpen then [] else [.raised .sessionOpened]
  let m' := { m with
    sessionOpen := true
    pool := m.pool.modify u fun i => { i with state := .sessionOpened } }
  andDo (m', raised) (forEach (proceedAndErase u r) (m'.pendingOf u))

def childClosed (u : Nat) : Part :=
  andDo (forEach refusePending (m.pendingOf u) m) (closeUpstream u)

/-- A session error of the child `u`. A fatal one closes all the children. -/
def childFailed (u : Nat) (e : VpnError) (r : Replies) : Part :=
  if isFatalError e then
    let m' := { m with pendingError := some e }
    forEach (fun v m => andDo (childCloseSession v r.fault m) (closeUpstream v)) m'.pool.keys m'
  else andDo (childCloseSession u r.fault m) (closeUpstream u)

def childUpstreamHandler (u : Nat) (what : ServerEvent) (r : Replies) : Part :=
  if (m.pool.lookup u).isNone then (m, [])
  else
    match what with
    | .sessionOpened => m.childOpened u r
    | .sessionClosed => m.childClosed u
    | .connectionClosed id => (m.forgetConnection u id, [.raised what])
    | .error id e =>
      if id ≠ nonId then (m.forgetConnection u id, [.raised what]) else m.childFailed u e r
    | .connectionOpened _ | .read _ _ | .dataSent _ _ | .healthCheckError _
    | .getAvailableToSend _ | .echoReply => (m, [.raised what])

end Mux

/-! ## Runs -/

inductive Call where
  | openSession (timeout : Option Nat) (r : Replies)
  | closeSession (r : Replies)
  | openConnection (request : Request) (r : Replies)
  | closeConnection (id : ConnId) (graceful async : Bool)
  | child (u : Nat) (what : ServerEvent) (r : Replies)
  /-- other multiplexers and clients take ids from the shared counters -/
  | otherIds (upstreams connections : Nat)
  | reorderPool (u : Nat)
  | reorderPending (id : ConnId)

namespace Mux

def step : Call → Part
  | .openSession timeout r => m.openSession timeout r
  | .closeSession r => m.closeSession r
  | .openConnection request r => m.openConnection request r
  | .closeConnection id graceful async => m.closeConnection id graceful async
  -- a child whose session ends reports its connections before the session
  | .child u .sessionClosed r =>
    andDo (childReports u r.fault m) fun m' => m'.childUpstreamHandler u .sessionClosed r
  | .child u what r => m.childUpstreamHandler u what r
  | .otherIds upstreams connections =>
    ({ m with
      nextUpstreamId := m.nextUpstreamId + upstreams
      nextConnId := min (m.nextConnId + connections) nonId }, [])
  | .reorderPool u =>
    match m.pool.lookup u with
    | some info => ({ m with pool := m.pool.insert u info }, [])
    | none => (m, [])
  | .reorderPending id =>
    match m.pending.lookup id with
    | some c => ({ m with pending := m.pending.insert id c }, [])
    | none => (m, [])

def system (upstreamsNum : Nat) : System Mux Call Output := ⟨init upstreamsNum, step⟩

def allAccepted : Replies := ⟨true, fun _ => true, fun _ => true, fun _ => none⟩

def anyRequest : Request := ⟨⟨.empty, .name [] 0⟩, 6, []⟩

end Mux
end TrustTunnel.Upstream
