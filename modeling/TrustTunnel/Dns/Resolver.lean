import Mathlib.Data.List.Sort
import TrustTunnel.Core.Types
import TrustTunnel.Lib.Map
import TrustTunnel.Lib.System

/-!
# Dns.Resolver

`VpnDnsResolver` (`core/src/vpn_dns_resolver.cpp`): names are resolved with plain DNS queries over one
connection of its own. A resolution waits in a queue, then has one query on the wire for each record
type it asks for, and is answered when none is awaited any more.

What the resolver gets from outside comes with the call: the clock, whether a request can be encoded
and whether the tunnel takes it (`Env`), the decoded reply. The sets and maps are iterated in the order
of their lists; the handlers are taken not to call the resolver back.
-/

namespace TrustTunnel.Dns

open Lib List

inductive RecordType where
  | a
  | aaaa
  deriving DecidableEq

/-- `RecordTypeSet`, a bit for each type. -/
structure RecordTypeSet where
  a : Bool
  aaaa : Bool
  deriving DecidableEq

namespace RecordTypeSet

def test (s : RecordTypeSet) : RecordType → Bool
  | .a => s.a
  | .aaaa => s.aaaa

def set (s : RecordTypeSet) : RecordType → RecordTypeSet
  | .a => { s with a := true }
  | .aaaa => { s with aaaa := true }

def reset (s : RecordTypeSet) : RecordType → RecordTypeSet
  | .a => { s with a := false }
  | .aaaa => { s with aaaa := false }

def none (s : RecordTypeSet) : Bool := !s.a && !s.aaaa

theorem set_of_test {s : RecordTypeSet} {t : RecordType} (h : s.test t = true) : s.set t = s := by
  obtain ⟨a, aaaa⟩ := s
  cases t with
  | a | aaaa =>
    cases (h)
    rfl

theorem test_reset (s : RecordTypeSet) (t u : RecordType) : (s.reset t).test u = (s.test u && decide (u ≠ t)) := by
  cases t <;> cases u <;> simp [reset, test]

theorem exists_test {s : RecordTypeSet} (h : s.none = false) : ∃ t, s.test t = true := by
  obtain ⟨a, aaaa⟩ := s
  cases a with
  | true => exact ⟨.a, rfl⟩
  | false =>
    cases aaaa with
    | true => exact ⟨.aaaa, rfl⟩
    | false => cases h

end RecordTypeSet

inductive VpnDnsResolverQueue where
  | background
  | foreground
  deriving DecidableEq

def resolveCapacity : VpnDnsResolverQueue → Nat
  | .background => 32
  | .foreground => 18446744073709551615

structure Resolve where
  name : Bytes
  recordTypes : RecordTypeSet
  resolvedAddresses : List SocketAddress
  queries : RecordType → Option Nat

def Resolve.record (t : RecordType) (queryId : Nat) (r : Resolve) : Resolve :=
  { r with
    recordTypes := r.recordTypes.set t
    queries := fun u => if u = t then some queryId else r.queries u }

structure Query where
  id : Nat
  recordType : RecordType
  name : Bytes
  queueKind : VpnDnsResolverQueue

structure VpnDnsResolver where
  nextId : Nat
  resolutions : Map Nat Resolve
  background : List Nat
  foreground : List Nat
  connectionId : Option Nat
  connectionAccepted : Bool
  queries : Map Nat Query
  connectionTimeoutTask : Bool
  periodicQueriesCheckTask : Bool
  deadlines : List (Int × Nat)
  deferredAcceptTask : Bool
  deferredCloseTask : Bool
  deferredResolveTask : Bool
  nextConnectionId : Nat
  /-- `g_next_request_id`, a `uint16_t` -/
  nextRequestId : Nat

variable (s : VpnDnsResolver)

namespace VpnDnsResolver

inductive Output where
  /-- `raise_result`, with the addresses; a failure has none. -/
  | result (id : Nat) (addresses : List SocketAddress)
  | connectRequest (connectionId : Nat)
  | connectionAccepted (connectionId : Option Nat)
  | connectionClosed (connectionId : Option Nat)
  | read (queryId : Nat)

inductive Sending where
  | unencoded
  | refused
  | sent
  deriving DecidableEq

structure Env where
  send : Nat → RecordType → Sending
  now : Nat → Int
  queryTimeout : Int

variable (stopping : VpnDnsResolverQueue → Bool) (env : Env) (s : VpnDnsResolver)

abbrev Part := VpnDnsResolver × List Output

def initial : VpnDnsResolver :=
  ⟨0, ∅, [], [], none, false, ∅, false, false, [], false, false, false, 1, 1⟩

def queue : VpnDnsResolverQueue → List Nat
  | .background => s.background
  | .foreground => s.foreground

def setQueue (q : VpnDnsResolverQueue) (l : List Nat) : VpnDnsResolver :=
  match q with
  | .background => { s with background := l }
  | .foreground => { s with foreground := l }

def resetState : VpnDnsResolver :=
  { s with
    connectionId := none
    connectionAccepted := false
    queries := ∅
    connectionTimeoutTask := false
    periodicQueriesCheckTask := false
    deadlines := [] }

def eraseQuery (queryId : Nat) : VpnDnsResolver :=
  { s with queries := s.queries.erase queryId }

def eraseQuery? : Option Nat → VpnDnsResolver
  | some queryId => s.eraseQuery queryId
  | none => s

def eraseQueries (r : Resolve) : VpnDnsResolver :=
  (s.eraseQuery? (r.queries .a)).eraseQuery? (r.queries .aaaa)

def answer (id : Nat) (addresses : List SocketAddress) : Part :=
  ({ s with resolutions := s.resolutions.erase id }, [.result id addresses])

def resolve (q : VpnDnsResolverQueue) (name : Bytes) (types : RecordTypeSet) : VpnDnsResolver :=
  { s.setQueue q (s.queue q ++ [s.nextId]) with
    nextId := s.nextId + 1
    resolutions := s.resolutions.emplace s.nextId ⟨name, types, [], fun _ => none⟩
    deferredResolveTask := true }

def wireQuery (id : Nat) : Option Nat :=
  (s.queries.entries.find? fun e => e.2.id = id).map Sigma.fst

def discard (id : Nat) : VpnDnsResolver :=
  match s.resolutions.lookup id with
  | some r => { s with resolutions := s.resolutions.erase id }.eraseQueries r
  | none => s

def cancel (id : Nat) : VpnDnsResolver :=
  (s.discard id).eraseQuery? ((s.discard id).wireQuery id)

/-! ## Sending -/

def recordSent (queryId : Nat) (query : Query) : VpnDnsResolver :=
  { s with
    queries := s.queries.emplace queryId query
    resolutions := s.resolutions.modify query.id (Resolve.record query.recordType queryId)
    deadlines :=
      s.deadlines.orderedInsert (fun x y => x.1 ≤ y.1) (env.now query.id + env.queryTimeout, queryId)
    periodicQueriesCheckTask := true }

def takeRequestId : VpnDnsResolver :=
  { s with nextRequestId := (s.nextRequestId + 1) % 65536 }

/-- One pass of the loop over the record types in `resolve_queue`. -/
def sendQuery (q : VpnDnsResolverQueue) (id : Nat) (t : RecordType) (s : VpnDnsResolver) : Part :=
  match s.resolutions.lookup id with
  | none => (s, [])
  | some entry =>
    if !entry.recordTypes.test t then (s, [])
    else
      match env.send id t with
      | .unencoded => (s.takeRequestId, [])
      | .refused =>
        ({ s.takeRequestId with
            queries := s.queries.emplace s.nextRequestId ⟨id, t, entry.name, q⟩ }.eraseQuery s.nextRequestId,
          [.read s.nextRequestId])
      | .sent =>
        (s.takeRequestId.recordSent env s.nextRequestId ⟨id, t, entry.name, q⟩, [.read s.nextRequestId])

/-- The body of the loop of `resolve_queue`, with the entry taken from the queue. -/
def resolveEntry (q : VpnDnsResolverQueue) (id : Nat) (s : VpnDnsResolver) : Part :=
  match s.resolutions.lookup id with
  | none => (s, [])
  | some _ =>
    let r := andDo (sendQuery env q id .a s) (sendQuery env q id .aaaa)
    andDo r fun s =>
      match s.resolutions.lookup id with
      | some entry => if entry.recordTypes.none then s.answer id [] else (s, [])
      | none => (s, [])

/-- `resolve_queue`, over the entries that are left. -/
def resolveQueue (env : Env) (q : VpnDnsResolverQueue) : List Nat → VpnDnsResolver → Part
  | [], s => (s, [])
  | id :: rest, s =>
    if s.queries.size < resolveCapacity q then
      andDo (resolveEntry env q id (s.setQueue q rest)) (resolveQueue env q rest)
    else (s, [])

def resolvePendingDomains : Part :=
  if s.background = [] ∧ s.foreground = [] then (s, [])
  else
    let r : Part :=
      match s.connectionId with
      | none =>
        ({ s with
            connectionId := some s.nextConnectionId
            nextConnectionId := s.nextConnectionId + 1 },
          [.connectRequest s.nextConnectionId])
      | some _ =>
        if s.connectionAccepted then
          andDo (resolveQueue env .background s.background s) fun s =>
            resolveQueue env .foreground s.foreground s
        else (s, [])
    ({ r.1 with connectionTimeoutTask := true }, r.2)

/-! ## Answers -/

def settle (query : Query) (addresses : List SocketAddress) : Part :=
  match s.resolutions.lookup query.id with
  | none => (s, [])
  | some r =>
    let r' := { r with
      recordTypes := r.recordTypes.reset query.recordType
      resolvedAddresses := r.resolvedAddresses ++ addresses }
    if r'.recordTypes.none then s.answer query.id r'.resolvedAddresses
    else ({ s with resolutions := s.resolutions.modify query.id fun _ => r' }, [])

def receive (queryId : Nat) (addresses : List SocketAddress) : Part :=
  match s.queries.lookup queryId with
  | none => (s, [])
  | some query =>
    match s.resolutions.lookup query.id with
    | none => (s.eraseQuery queryId, [])
    | some _ => andDo ((s.eraseQuery queryId).settle query addresses) (resolvePendingDomains env)

/-- `send`, with what `decode_packet` made of the reply: its id and its addresses, which only an
applicable reply has. -/
def send (connectionId : Nat) (reply : Option (Nat × List SocketAddress)) : Part :=
  match reply with
  | none => ({ s with connectionTimeoutTask := true }, [])
  | some (replyId, addresses) =>
    if s.connectionId ≠ some connectionId then ({ s with connectionTimeoutTask := true }, [])
    else receive env { s with connectionTimeoutTask := true } replyId addresses

def expire (d : Int × Nat) (s : VpnDnsResolver) : Part :=
  match s.queries.lookup d.2 with
  | none => (s, [])
  | some query => (s.eraseQuery d.2).settle query []

def onPeriodicQueriesCheck (now : Int) (s : VpnDnsResolver) : Part :=
  let s := { s with periodicQueriesCheckTask := false }
  andDo (forEach expire (s.deadlines.takeWhile fun d => d.1 ≤ now) s) fun s =>
    resolvePendingDomains env { s with deadlines := s.deadlines.dropWhile fun d => d.1 ≤ now }

/-! ## Closing and stopping -/

def closeConnection (id : Option Nat) (async : Bool) : Part :=
  if id ≠ s.connectionId then (s, [])
  else if async then ({ s with deferredCloseTask := true }, [])
  else
    ({ s with resolutions := ∅, background := [], foreground := [] }.resetState,
      s.resolutions.entries.map (fun e => .result e.1 e.2.resolvedAddresses) ++ [.connectionClosed id])

def stopEntry (id : Nat) (s : VpnDnsResolver) : Part :=
  match s.resolutions.lookup id with
  | none => (s, [])
  | some r => ((s.answer id []).1.eraseQueries r, (s.answer id []).2)

def stopQueue (q : VpnDnsResolverQueue) (s : VpnDnsResolver) : Part :=
  if stopping q then forEach stopEntry (s.queue q) (s.setQueue q []) else (s, [])

def stopQuery (e : Sigma fun _ : Nat => Query) (s : VpnDnsResolver) : Part :=
  match s.resolutions.lookup e.2.id with
  | none => (s, [])
  | some _ => s.answer e.2.id []

def stopResolvingQueues : Part :=
  andDo (andDo (stopQueue stopping .background s) (stopQueue stopping .foreground)) fun s =>
    let cancelled := s.queries.entries.filter fun e => stopping e.2.queueKind
    forEach stopQuery cancelled (cancelled.foldl (fun s e => s.eraseQuery e.1) s)

def deinit : VpnDnsResolver :=
  { s with
    background := []
    foreground := []
    deferredAcceptTask := false
    deferredCloseTask := false
    deferredResolveTask := false }.resetState

def stopResolving : Part :=
  andDo (stopResolvingQueues (fun _ => true) s) fun s =>
    let r := if s.connectionId = none then (s, []) else s.closeConnection s.connectionId false
    (r.1.deinit, r.2)

def completeConnectRequest (id : Nat) (pass : Bool) : Part :=
  if s.connectionId ≠ some id then (s, [])
  else if !pass then s.closeConnection (some id) true
  else ({ s with deferredAcceptTask := true }, [])

def acceptConnection : Part :=
  andDo ({ s with connectionAccepted := true }, [.connectionAccepted s.connectionId]) (resolvePendingDomains env)

inductive Call where
  | resolve (q : VpnDnsResolverQueue) (name : Bytes) (types : RecordTypeSet)
  | cancel (id : Nat)
  | stopResolvingQueues (stopping : VpnDnsResolverQueue → Bool)
  | stopResolving
  | completeConnectRequest (id : Nat) (pass : Bool)
  | closeConnection (id : Nat) (async : Bool)
  | send (env : Env) (connectionId : Nat) (reply : Option (Nat × List SocketAddress))
  /-- The tasks, which do nothing unless they are queued. -/
  | deferredResolve (env : Env)
  | deferredAccept (env : Env)
  | deferredClose
  | connectionTimeout
  | periodicQueriesCheck (env : Env) (now : Int)

def step : Call → Part
  | .resolve q name types => (s.resolve q name types, [])
  | .cancel id => (s.cancel id, [])
  | .stopResolvingQueues stopping => s.stopResolvingQueues stopping
  | .stopResolving => s.stopResolving
  | .completeConnectRequest id pass => s.completeConnectRequest id pass
  | .closeConnection id async => s.closeConnection (some id) async
  | .send env connectionId reply => s.send env connectionId reply
  | .deferredResolve env =>
    if s.deferredResolveTask then resolvePendingDomains env { s with deferredResolveTask := false }
    else (s, [])
  | .deferredAccept env =>
    if s.deferredAcceptTask then acceptConnection env { s with deferredAcceptTask := false }
    else (s, [])
  | .deferredClose =>
    if s.deferredCloseTask then
      { s with deferredCloseTask := false }.closeConnection s.connectionId false
    else (s, [])
  | .connectionTimeout =>
    if s.connectionTimeoutTask then
      { s with connectionTimeoutTask := false }.closeConnection s.connectionId false
    else (s, [])
  | .periodicQueriesCheck env now =>
    if s.periodicQueriesCheckTask then onPeriodicQueriesCheck env now s else (s, [])

def resolver : System VpnDnsResolver Call Output := ⟨initial, step⟩

abbrev History := List (Record VpnDnsResolver Call Output)

/-! ## Every resolution that leaves is answered -/

def present (id : Nat) : Nat := if (s.resolutions.lookup id).isSome then 1 else 0

def answers (id : Nat) (o : List Output) : Nat :=
  o.countP fun
    | .result i _ => i == id
    | _ => false

@[simp] theorem answers_append (id : Nat) (o p : List Output) : answers id (o ++ p) = answers id o + answers id p :=
  countP_append

/-- No resolution is added, and one that is taken out is answered. -/
structure Accounted (s : VpnDnsResolver) (r : Part) : Prop where
  count : ∀ id, r.1.present id + answers id r.2 = s.present id
  nextId : r.1.nextId = s.nextId

variable {s t : VpnDnsResolver}

theorem Accounted.andDo {r : Part} {g : VpnDnsResolver → Part} (h : Accounted s r) (k : Accounted r.1 (g r.1)) :
    Accounted s (andDo r g) := by
  refine ⟨fun id => ?_, k.nextId.trans h.nextId⟩
  have hr := h.count id
  have hg := k.count id
  rw [andDo_fst, andDo_snd, answers_append]
  omega

theorem Accounted.of_same {r : Part} (h : Accounted t r) (hr : t.resolutions = s.resolutions)
    (hn : t.nextId = s.nextId) : Accounted s r :=
  ⟨fun id => by rw [h.count id, present, present, hr], h.nextId.trans hn⟩

theorem setQueue_resolutions (q : VpnDnsResolverQueue) (l : List Nat) :
    (s.setQueue q l).resolutions = s.resolutions ∧ (s.setQueue q l).nextId = s.nextId := by
  cases q <;> exact ⟨rfl, rfl⟩

theorem eraseQuery?_resolutions (s : VpnDnsResolver) (q : Option Nat) :
    (s.eraseQuery? q).resolutions = s.resolutions ∧ (s.eraseQuery? q).nextId = s.nextId := by
  cases q <;> exact ⟨rfl, rfl⟩

theorem eraseQueries_resolutions (s : VpnDnsResolver) (r : Resolve) :
    (s.eraseQueries r).resolutions = s.resolutions ∧ (s.eraseQueries r).nextId = s.nextId := by
  obtain ⟨ha, hn⟩ := s.eraseQuery?_resolutions (r.queries .a)
  obtain ⟨hb, hm⟩ := (s.eraseQuery? (r.queries .a)).eraseQuery?_resolutions (r.queries .aaaa)
  exact ⟨hb.trans ha, hm.trans hn⟩

theorem eraseAll_resolutions (l : List (Sigma fun _ : Nat => Query)) (s : VpnDnsResolver) :
    (l.foldl (fun s e => s.eraseQuery e.1) s).resolutions = s.resolutions ∧
      (l.foldl (fun s e => s.eraseQuery e.1) s).nextId = s.nextId := by
  induction l generalizing s with
  | nil => exact ⟨rfl, rfl⟩
  | cons e l ih => exact ih (s.eraseQuery e.1)

section

variable (s : VpnDnsResolver)

/-- `cancel` was called for `id` after `resolve` had returned it. -/
def Cancelled (h : History) (id : Nat) : Prop :=
  ∃ r ∈ h, r.call = .cancel id ∧ id < r.before.nextId

/-- An id is answered once at most, and not while it is in the table. -/
structure Ledger (h : History) (s : VpnDnsResolver) : Prop where
  fresh : ∀ id, s.nextId ≤ id → s.present id = 0 ∧ answers id (System.outputs h) = 0
  once : ∀ id, s.present id + answers id (System.outputs h) ≤ 1
  cancelled : ∀ id, Cancelled h id → s.present id = 0 ∧ id < s.nextId
  kept : ∀ id, id < s.nextId → ¬Cancelled h id → s.present id + answers id (System.outputs h) = 1

end

end VpnDnsResolver

end TrustTunnel.Dns
