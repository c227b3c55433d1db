import TrustTunnel.Core.Types
import TrustTunnel.Lib.Map
import TrustTunnel.Lib.System

/-!
# Ping.Locations

`LocationsPinger` (locations_pinger.cpp): pings the endpoints of each location and reports, for each
location, the endpoint selected.

Locations wait in `pending` and are started one by one by a scheduled task; the started ones are in
`locations`, by their `Ping`. What a ping reports is in the calls.
-/

namespace TrustTunnel.Ping

open Lib List

/-- `VpnEndpoint`, with the fields `vpn_endpoint_equals` compares. -/
structure VpnEndpoint where
  address : SocketAddress
  name : Bytes
  remoteId : Bytes
  deriving DecidableEq

/-- `VpnRelay`: a relay with no address family is no relay. -/
structure VpnRelay where
  address : SocketAddress
  deriving DecidableEq

structure VpnLocation where
  id : Bytes
  endpoints : List VpnEndpoint

/-- A connection handed over by a ping, as a pointer. -/
abbrev ConnState := Nat

abbrev PingId := Nat

structure PingedEndpoint where
  endpoint : VpnEndpoint
  pingMs : Int
  relay : Option VpnRelay
  isQuic : Bool
  connState : Option ConnState

structure LocationsCtx where
  info : VpnLocation
  pingedIpv6 : List PingedEndpoint
  pingedIpv4 : List PingedEndpoint

structure LocationsPinger where
  pending : List LocationsCtx
  locations : List (PingId × LocationsCtx)
  startTask : Bool
  /-- the task that reports the end of an empty list -/
  endTask : Bool
  /-- the pings started so far; the next one is new -/
  nextPing : PingId
  queryAllInterfaces : Bool

structure LocationsPingerResult where
  id : Bytes
  pingMs : Int
  endpoint : Option VpnEndpoint
  relay : Option VpnRelay
  isQuic : Bool
  connState : Option ConnState

inductive PingResult where
  | ok (endpoint : VpnEndpoint) (ms : Int) (relay : Option VpnRelay) (isQuic : Bool)
      (connState : Option ConnState)
  | socketError (endpoint : VpnEndpoint) (error : Int)
  | timedOut (endpoint : VpnEndpoint)
  | finished
  deriving DecidableEq

inductive Out where
  /-- a call of the handler; no result is the end marker -/
  | handler (result : Option LocationsPingerResult)
  | connDestroyed (c : ConnState)
  | pingDestroyed (p : PingId)

/-! ## Selecting an endpoint -/

def http3PenaltyMs : Int := 100

/-- The time of a result with the advantage for HTTP/2, as the unsigned value that is compared. -/
def correctedMs (ms : Int) (isQuic : Bool) : Int := (if isQuic then ms + http3PenaltyMs else ms) % 2 ^ 32

def getAddrPriority (location : VpnLocation) (e : PingedEndpoint) : Nat :=
  location.endpoints.length - location.endpoints.findIdx fun i => i.address == e.endpoint.address

def getSmallestPingPriority (e : PingedEndpoint) : Nat := (-(e.pingMs + 1) % 2 ^ 64).toNat

/-- The loop of `select_endpoint_from_list`: `selected` is an index and its priority. -/
def selectFrom (priority : PingedEndpoint → Nat) : List PingedEndpoint → Nat → Option (Nat × Nat) →
    Option (Nat × Nat)
  | [], _, selected => selected
  | e :: l, i, selected =>
    selectFrom priority l (i + 1) (if selected.all fun p => p.2 < priority e then some (i, priority e) else selected)

def selectEndpointFromList (priority : PingedEndpoint → Nat) (l : List PingedEndpoint) : Option Nat :=
  (selectFrom priority l 0 none).map (·.1)

variable (s : LocationsPinger) (l : LocationsCtx)

/-- The selected record, as an index into the IPv6 or, if there is none, the IPv4 list. -/
def selectEndpoint (priority : PingedEndpoint → Nat) : Option Nat × Option Nat :=
  match selectEndpointFromList priority l.pingedIpv6 with
  | some i => (some i, none)
  | none => (none, selectEndpointFromList priority l.pingedIpv4)

def others (l : List PingedEndpoint) : Option Nat → List PingedEndpoint
  | none => l
  | some i => l.eraseIdx i

def destroyConnState (e : PingedEndpoint) : List Out := (e.connState.map Out.connDestroyed).toList

def resultFor (location : VpnLocation) : Option PingedEndpoint → LocationsPingerResult
  | none => ⟨location.id, -1, none, none, false, none⟩
  | some e =>
    ⟨location.id, e.pingMs, location.endpoints.find? (· == e.endpoint), e.relay, e.isQuic, e.connState⟩

def selectedIn (i : Option Nat × Option Nat) : Option PingedEndpoint :=
  (i.1.bind fun i => l.pingedIpv6[i]?).or (i.2.bind fun i => l.pingedIpv4[i]?)

def LocationsPinger.priority : PingedEndpoint → Nat :=
  if s.queryAllInterfaces then getSmallestPingPriority else getAddrPriority l.info

def finalizeLocation (isLast : Bool) : List Out :=
  let selected := selectEndpoint l (s.priority l)
  (others l.pingedIpv4 selected.2).flatMap destroyConnState ++
    (others l.pingedIpv6 selected.1).flatMap destroyConnState ++
    [.handler (some (resultFor l.info (selectedIn l selected)))] ++ (if isLast then [.handler none] else [])

/-! ## The pinger -/

namespace LocationsPinger

/-- `start_location_ping`; `started` says whether `ping_start` gives a ping. -/
def startLocationPing (started : Bool) : LocationsPinger × List Out :=
  match s.pending with
  | [] => (s, [])
  | l :: rest =>
    let isLast := rest.isEmpty && s.locations.isEmpty
    let s' := { s with pending := rest, startTask := !rest.isEmpty }
    if started then
      ({ s' with locations := (s.nextPing, l) :: s.locations, nextPing := s.nextPing + 1 }, [])
    else (s', finalizeLocation s l isLast)

/-- Record a result: new, or faster than the one there is. The relay of the old record stays. -/
def recordResult (e : VpnEndpoint) (ms : Int) (relay : Option VpnRelay) (isQuic : Bool)
    (connState : Option ConnState) : List PingedEndpoint → List PingedEndpoint × List Out
  | [] => ([⟨e, ms, relay, isQuic, connState⟩], [])
  | it :: l =>
    if it.endpoint = e then
      if correctedMs ms isQuic < correctedMs it.pingMs it.isQuic then
        ({ it with pingMs := ms, isQuic := isQuic, connState := connState } :: l, destroyConnState it)
      else (it :: l, [])
    else
      let r := recordResult e ms relay isQuic connState l
      (it :: r.1, r.2)

def isIpv6 (a : SocketAddress) : Bool := a.addr.length == 16

def recordIn (e : VpnEndpoint) (ms : Int) (relay : Option VpnRelay) (isQuic : Bool)
    (connState : Option ConnState) : LocationsCtx × List Out :=
  if isIpv6 e.address then
    let r := recordResult e ms relay isQuic connState l.pingedIpv6
    ({ l with pingedIpv6 := r.1 }, r.2)
  else
    let r := recordResult e ms relay isQuic connState l.pingedIpv4
    ({ l with pingedIpv4 := r.1 }, r.2)

def processPingResult (p : PingId) (result : PingResult) : LocationsPinger × List Out :=
  match extract p s.locations with
  | none => (s, [])
  | some (l, rest) =>
    match result with
    | .ok e ms relay isQuic connState =>
      let r := recordIn l e ms relay isQuic connState
      ({ s with locations := (p, r.1) :: rest }, r.2)
    | .socketError _ _ => (s, [])
    | .timedOut _ => (s, [])
    | .finished =>
      ({ s with locations := rest }, .pingDestroyed p :: finalizeLocation s l (rest.isEmpty && s.pending.isEmpty))

def locationsPingerStop : LocationsPinger × List Out :=
  ({ s with locations := [], pending := [], startTask := false, endTask := false },
    s.locations.map fun e => .pingDestroyed e.1)

inductive Call where
  | startTask (started : Bool)
  | endTask
  | ping (p : PingId) (result : PingResult)
  | stop
  deriving DecidableEq

def step : Call → LocationsPinger × List Out
  | .startTask started => if s.startTask then s.startLocationPing started else (s, [])
  | .endTask => if s.endTask then ({ s with endTask := false }, [.handler none]) else (s, [])
  | .ping p result => s.processPingResult p result
  | .stop => s.locationsPingerStop

def start (infos : List VpnLocation) (queryAllInterfaces : Bool) : LocationsPinger where
  pending := infos.map fun i => ⟨i, [], []⟩
  locations := []
  startTask := !infos.isEmpty
  endTask := infos.isEmpty
  nextPing := 0
  queryAllInterfaces := queryAllInterfaces

def pinger (infos : List VpnLocation) (queryAllInterfaces : Bool) : System LocationsPinger Call Out :=
  ⟨start infos queryAllInterfaces, step⟩

def after (infos : List VpnLocation) (queryAllInterfaces : Bool) (es : List Call) : LocationsPinger :=
  (pinger infos queryAllInterfaces).exec (start infos queryAllInterfaces) es

def raised (infos : List VpnLocation) (queryAllInterfaces : Bool) (es : List Call) : List Out :=
  System.outputs ((pinger infos queryAllInterfaces).trace (start infos queryAllInterfaces) es)

/-! ## The handler's calls -/

def handlerCalls (o : List Out) : List (Option LocationsPingerResult) :=
  o.filterMap fun
    | .handler r => some r
    | _ => none

@[simp] theorem handlerCalls_append (o o' : List Out) :
    handlerCalls (o ++ o') = handlerCalls o ++ handlerCalls o' := by simp [handlerCalls]

theorem handlerCalls_destroyed (l : List PingedEndpoint) : handlerCalls (l.flatMap destroyConnState) = [] := by
  simp only [handlerCalls, filterMap_eq_nil_iff, mem_flatMap]
  rintro x ⟨e, -, hx⟩
  cases hc : e.connState with
  | none => simp [destroyConnState, hc] at hx
  | some c =>
    obtain rfl : x = .connDestroyed c := by simpa [destroyConnState, hc] using hx
    rfl

theorem handlerCalls_finalizeLocation (isLast : Bool) : ∃ r : LocationsPingerResult, r.id = l.info.id ∧
      handlerCalls (finalizeLocation s l isLast) = some r :: if isLast then [none] else [] := by
  refine ⟨resultFor l.info (selectedIn l (selectEndpoint l (s.priority l))), ?_, ?_⟩
  · unfold resultFor
    split <;> rfl
  · simp only [finalizeLocation, handlerCalls_append, handlerCalls_destroyed]
    cases isLast <;> rfl

section

variable (e : VpnEndpoint) (ms : Int) (relay : Option VpnRelay) (isQuic : Bool)
  (connState : Option ConnState)

theorem handlerCalls_recordResult (l : List PingedEndpoint) :
    handlerCalls (recordResult e ms relay isQuic connState l).2 = [] := by
  induction l with
  | nil => rfl
  | cons it l ih =>
    rw [recordResult]
    split
    · split
      · have := handlerCalls_destroyed [it]
        simpa using this
      · rfl
    · exact ih

theorem recordIn_spec : (recordIn l e ms relay isQuic connState).1.info = l.info ∧
      handlerCalls (recordIn l e ms relay isQuic connState).2 = [] := by
  unfold recordIn
  split
  all_goals exact ⟨rfl, handlerCalls_recordResult ..⟩

end

/-! ## One result per location -/

def ended : Bool := s.pending.isEmpty && s.locations.isEmpty && !s.endTask

def unreported : List Bytes :=
  s.locations.map (fun e => e.2.info.id) ++ s.pending.map fun l => l.info.id

structure Reporting (infos : List VpnLocation) (o : List Out) (s : LocationsPinger) : Prop where
  task : s.startTask = !s.pending.isEmpty
  nothing : s.endTask = true → s.pending = [] ∧ s.locations = []
  calls : ∃ results : List LocationsPingerResult,
    handlerCalls o = results.map some ++ (if s.ended then [none] else []) ∧
      (results.map (·.id) ++ s.unreported).Perm (infos.map (·.id))

namespace Reporting

variable {infos : List VpnLocation} {o : List Out} {s : LocationsPinger}

theorem start (infos : List VpnLocation) (queryAllInterfaces : Bool) :
    Reporting infos [] (start infos queryAllInterfaces) where
  task := by simp [LocationsPinger.start]
  nothing := by
    intro h
    have : infos = [] := by simpa [LocationsPinger.start] using h
    subst this
    exact ⟨rfl, rfl⟩
  calls := by
    refine ⟨[], ?_, ?_⟩
    · have hover : (LocationsPinger.start infos queryAllInterfaces).ended = false := by
        cases infos <;> rfl
      simp [handlerCalls, hover]
    · simp [unreported, LocationsPinger.start, Function.comp_def]

section

variable (h : Reporting infos o s)
include h

theorem silent {s' : LocationsPinger} {outs : List Out}
    (ho : handlerCalls outs = []) (htask : s'.startTask = !s'.pending.isEmpty)
    (hnothing : s'.endTask = true → s'.pending = [] ∧ s'.locations = [])
    (hover : s'.ended = s.ended) (hopen : s'.unreported.Perm s.unreported) : Reporting infos (o ++ outs) s' := by
  obtain ⟨results, hcalls, hperm⟩ := h.calls
  refine ⟨htask, hnothing, results, ?_, ?_⟩
  · rw [handlerCalls_append, ho, append_nil, hcalls, hover]
  · exact (hopen.append_left _).trans hperm

theorem reported {s' : LocationsPinger} {l : LocationsCtx} {outs : List Out} (hover : s.ended = false)
    (ho : handlerCalls outs = handlerCalls (finalizeLocation s l s'.ended))
    (htask : s'.startTask = !s'.pending.isEmpty) (hnothing : s'.endTask = true → s'.pending = [] ∧
      s'.locations = [])
    (hopen : s.unreported.Perm (l.info.id :: s'.unreported)) : Reporting infos (o ++ outs) s' := by
  obtain ⟨results, hcalls, hperm⟩ := h.calls
  obtain ⟨r, hid, hfinal⟩ := handlerCalls_finalizeLocation s l s'.ended
  refine ⟨htask, hnothing, results ++ [r], ?_, ?_⟩
  · rw [handlerCalls_append, hcalls, hover, ho, hfinal]
    simp
  · rw [map_append, map_singleton, hid, append_assoc]
    exact (hopen.symm.append_left _).trans hperm

attribute [local simp] LocationsPinger.ended

theorem startLocationPing (htask : s.startTask = true) (started : Bool) :
    Reporting infos (o ++ (s.startLocationPing started).2) (s.startLocationPing started).1 := by
  unfold LocationsPinger.startLocationPing
  cases hpending : s.pending with
  | nil =>
    have := h.task
    rw [hpending, htask] at this
    cases this
  | cons l rest =>
    have hend : s.endTask = false := by
      by_contra hend
      have := (h.nothing (by simpa using hend)).1
      rw [hpending] at this
      cases this
    have hover : s.ended = false := by simp [hpending]
    dsimp only
    split
    · refine h.silent rfl rfl ?_ ?_ ?_
      · intro he
        rw [hend] at he
        cases he
      · simp [hpending]
      · simp only [LocationsPinger.unreported, hpending]
        exact perm_middle.symm
    · refine h.reported (l := l) hover ?_ rfl ?_ ?_
      · simp [hend]
      · intro he
        rw [hend] at he
        cases he
      · simp only [LocationsPinger.unreported, hpending]
        exact perm_middle

theorem processPingResult (p : PingId) (result : PingResult) :
    Reporting infos (o ++ (s.processPingResult p result).2) (s.processPingResult p result).1 := by
  unfold LocationsPinger.processPingResult
  cases hx : extract p s.locations with
  | none => exact h.silent rfl h.task h.nothing rfl (List.Perm.refl _)
  | some e =>
    obtain ⟨l, rest⟩ := e
    have hperm := (extract_perm hx).map fun e => e.2.info.id
    have hsome : s.locations ≠ [] := by
      intro hnil
      rw [hnil] at hx
      cases hx
    have hend : s.endTask = false := by
      by_contra hend
      exact hsome (h.nothing (by simpa using hend)).2
    have hover : s.ended = false := by simp [hsome]
    cases result with
    | ok e ms relay isQuic connState =>
      obtain ⟨hinfo, hsilent⟩ := recordIn_spec l e ms relay isQuic connState
      refine h.silent hsilent h.task ?_ ?_ ?_
      · intro he
        rw [hend] at he
        cases he
      · rw [hover]
        simp
      · simp only [LocationsPinger.unreported, map_cons, hinfo]
        exact (hperm.append_right _).symm
    | socketError e error | timedOut e => exact h.silent rfl h.task h.nothing rfl (List.Perm.refl _)
    | finished =>
      dsimp only
      refine h.reported (l := l) hover ?_ h.task ?_ ?_
      · have hlast : (rest.isEmpty && s.pending.isEmpty) = ({ s with locations := rest }).ended := by
          simp [hend, Bool.and_comm]
        rw [hlast]
        rfl
      · intro he
        rw [hend] at he
        cases he
      · exact hperm.append_right _

theorem step {c : Call} (hc : c ≠ .stop) : Reporting infos (o ++ (s.step c).2) (s.step c).1 := by
  cases c with
  | startTask started =>
    simp only [LocationsPinger.step]
    split
    · next htask => exact h.startLocationPing htask started
    · exact h.silent rfl h.task h.nothing rfl (List.Perm.refl _)
  | endTask =>
    simp only [LocationsPinger.step]
    split
    · next hend =>
      obtain ⟨hpending, hlocations⟩ := h.nothing hend
      obtain ⟨results, hcalls, hperm⟩ := h.calls
      refine ⟨h.task, by simp, results, ?_, hperm⟩
      rw [handlerCalls_append, hcalls]
      simp [hend, hpending, hlocations, handlerCalls]
    · exact h.silent rfl h.task h.nothing rfl (List.Perm.refl _)
  | ping p result => exact h.processPingResult p result
  | stop => exact absurd rfl hc

end

end Reporting

def Complete (s : LocationsPinger) : Prop :=
  s.startTask = false ∧ s.endTask = false ∧ s.locations = []

instance (s : LocationsPinger) : Decidable s.Complete := inferInstanceAs (Decidable (_ ∧ _))

/-- For every list of locations and every order of starts, failed starts and ping results: the
handler has been called with results of different locations, and the end marker, if it came, came
last; once all is done there is exactly one result per location and one end marker. -/
theorem one_result_per_location (infos : List VpnLocation) (queryAllInterfaces : Bool)
    (es : List Call) (hes : ∀ c ∈ es, c ≠ .stop) : ∃ results : List LocationsPingerResult,
      (handlerCalls (raised infos queryAllInterfaces es) = results.map some ∨
        handlerCalls (raised infos queryAllInterfaces es) = results.map some ++ [none]) ∧
      (results.map (·.id) ++ (after infos queryAllInterfaces es).unreported).Perm (infos.map (·.id)) ∧
      ((after infos queryAllInterfaces es).Complete →
        handlerCalls (raised infos queryAllInterfaces es) = results.map some ++ [none] ∧
          (results.map (·.id)).Perm (infos.map (·.id))) := by
  have hinv : Reporting infos (raised infos queryAllInterfaces es) (after infos queryAllInterfaces es) := by
    refine (pinger infos queryAllInterfaces).inv_run (J := fun h s => Reporting infos (System.outputs h) s)
      (Reporting.start infos queryAllInterfaces) ?_ es ((pinger infos queryAllInterfaces).meets_of_forall _ es hes)
    intro h s c hJ hc
    rw [System.outputs_append, System.outputs_record]
    exact hJ.step hc
  obtain ⟨results, hcalls, hperm⟩ := hinv.calls
  refine ⟨results, ?_, hperm, ?_⟩
  · rw [hcalls]
    split
    · exact .inr rfl
    · exact .inl (append_nil _)
  · rintro ⟨htask, hend, hlocations⟩
    have hpending : (after infos queryAllInterfaces es).pending = [] := by
      have := hinv.task
      rw [htask] at this
      simpa using this.symm
    rw [hcalls]
    refine ⟨by simp [ended, hpending, hend, hlocations], ?_⟩
    simpa [unreported, hpending, hlocations] using hperm

/-- Three locations: the second cannot be started, the last finishes before the first. -/
def threeLocations : List VpnLocation := [⟨[1], []⟩, ⟨[2], []⟩, ⟨[3], []⟩]

def outOfOrder : List Call :=
  [.startTask true, .startTask false, .startTask true, .ping 1 .finished, .ping 0 .finished]

theorem one_result_per_location_three : (after threeLocations false outOfOrder).Complete ∧
      ∃ results : List LocationsPingerResult,
        handlerCalls (raised threeLocations false outOfOrder) = results.map some ++ [none] ∧
          (results.map (·.id)).Perm [[1], [2], [3]] := by
  have hcomplete : (after threeLocations false outOfOrder).Complete := by decide
  obtain ⟨results, -, -, hall⟩ := one_result_per_location threeLocations false outOfOrder (by decide)
  exact ⟨hcomplete, results, (hall hcomplete).1, (hall hcomplete).2⟩

end LocationsPinger

end TrustTunnel.Ping
