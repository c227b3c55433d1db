import TrustTunnel.Ping.Locations

/-!
# Ping.Ping

`Ping` (ping.cpp): the connection attempts to the endpoints of one location, in rounds, with a
fall-back from QUIC to TLS and to relays, and the report at the end.

The lists are those of the source; an entry keeps its `id` (its address there) when it moves from one
list to another. Tasks are the flags of what is scheduled, a timer is a flag of whether it is set;
any of them may fire at any time. What the network does is in the calls: how the preparation of a
connection ends, whether a connect call fails at once, the outcome of a connection. An outcome comes
only for a connection in progress: after its first event a socket raises no other.

An assertion that fails ends the run (`aborted`).
-/

namespace TrustTunnel

open Lib

namespace Ping

inductive VpnUpstreamProtocol where
  | auto
  | http2
  | http3
  deriving DecidableEq

structure PingConn where
  id : Nat
  endpoint : VpnEndpoint
  relay : Option VpnRelay
  boundIf : Nat
  bestResultMs : Option Int
  socketError : Int
  useQuic : Bool
  noQuicFallback : Bool
  oldUseQuic : Bool
  noRelayFallback : Bool
  roundsDone : Nat
  /-- `tcp_socket` or `quic_connector` -/
  socket : Option ConnState

end Ping

open Ping

structure Ping where
  pending : List PingConn
  inprogress : List PingConn
  done : List PingConn
  report : List PingConn
  pendingShortcut : List PingConn
  inprogressShortcut : List PingConn
  doneShortcut : List PingConn
  timer : Bool
  relayShortcutTimer : Bool
  prepareTask : Bool
  connectTask : Bool
  connectShortcutTask : Bool
  reportTask : Bool
  roundsTarget : Nat
  roundsStarted : Nat
  /-- the last one is used next -/
  relays : List VpnRelay
  haveDirectResult : Bool
  haveRoundWinner : Bool
  handoff : Bool
  nextId : Nat
  aborted : Bool

variable (scale : Int → Int) (s : Ping) (c : PingConn)

namespace Ping

inductive PingOut where
  | result (id : Nat) (r : PingResult)
  | finished
  | assertionFailed
  deriving DecidableEq

def etimedout : Int := 110

def defaultPingRounds : Nat := 3

inductive Prepared where
  | ok (socket : ConnState)
  | noSocket
  | noSsl

variable (prep : Nat → Prepared)

def connPrepare : Prepared → PingConn × Bool
  | .ok socket => ({ c with socketError := 0, socket := some socket }, true)
  | .noSocket => ({ c with socketError := -1, socket := none }, false)
  | .noSsl => ({ c with socketError := 0, socket := none }, false)

def abort : Ping × List PingOut := ({ s with aborted := true }, [.assertionFailed])

/-! ## Starting -/

/-- `add_endpoint`: the entries for an endpoint, one or, for the automatic choice, one per protocol. -/
def addEndpoint (mainProtocol preferred : VpnUpstreamProtocol) (e : VpnEndpoint) (boundIf : Nat)
    (relay : Option VpnRelay) : List PingConn :=
  let entry (useQuic noQuicFallback : Bool) : PingConn :=
    ⟨0, e, relay, boundIf, none, 0, useQuic, noQuicFallback, false, relay.isSome, 0, none⟩
  match if mainProtocol ≠ .auto then mainProtocol else preferred with
  | .auto => [entry false false, entry true true]
  | .http2 => [entry false false]
  | .http3 => [entry true false]

structure PingInfo where
  /-- with the preferred protocol -/
  endpoints : List (VpnEndpoint × VpnUpstreamProtocol)
  interfacesToQuery : List Nat
  nrounds : Nat
  mainProtocol : VpnUpstreamProtocol
  handoff : Bool
  relays : List VpnRelay
  relayParallel : Option VpnRelay

def entries (info : PingInfo) : List PingConn :=
  info.endpoints.flatMap fun e =>
    (if info.interfacesToQuery = [] then [0] else info.interfacesToQuery).flatMap fun boundIf =>
      addEndpoint info.mainProtocol e.2 e.1 boundIf none ++ (info.relayParallel.map fun r =>
          addEndpoint info.mainProtocol e.2 e.1 boundIf (some r)).getD []

def startWith (info : PingInfo) (entries : List PingConn) : Ping where
  pending := entries.mapIdx fun i c => { c with id := i }
  inprogress := []
  done := []
  report := []
  pendingShortcut := []
  inprogressShortcut := []
  doneShortcut := []
  timer := false
  relayShortcutTimer := !entries.isEmpty && !info.relays.isEmpty
  prepareTask := !entries.isEmpty
  connectTask := false
  connectShortcutTask := false
  reportTask := entries.isEmpty
  roundsTarget := if info.nrounds = 0 then defaultPingRounds else info.nrounds
  roundsStarted := 0
  relays := info.relays.reverse
  haveDirectResult := false
  haveRoundWinner := false
  handoff := info.handoff
  nextId := entries.length
  aborted := false

/-- `ping_start`; an endpoint without a name is refused. -/
def pingStart (info : PingInfo) : Option Ping :=
  if info.endpoints.any fun e => e.1.name.all isSpace then none else some (startWith info (entries info))

/-! ## The end of a round -/

/-- Put `sc` in the place of the entry for its endpoint, if that one has no result. -/
def replaceDirect (sc : PingConn) : List PingConn → Option (List PingConn)
  | [] => none
  | c :: l =>
    if c.endpoint = sc.endpoint then if c.bestResultMs.isSome then none else some (sc :: l)
    else (replaceDirect sc l).map (c :: ·)

def takeShortcut (r : List PingConn × List Bytes) (sc : PingConn) : List PingConn × List Bytes :=
  if sc.bestResultMs.isNone then r
  else
    match replaceDirect sc r.1 with
    | none => r
    | some l => (l, r.2 ++ [sc.endpoint.name])

inductive Verdict where
  | retry
  | keep
  | report

def settleConn (direct : Bool) (snis : List Bytes) (c : PingConn) : PingConn × Verdict × List Bytes :=
  let counted : PingConn × Verdict × List Bytes :=
    ({ c with roundsDone := c.roundsDone + 1 }, if c.roundsDone + 1 = s.roundsTarget then .report else .keep, snis)
  if c.socketError ≠ 0 ∧ c.roundsDone = 0 then
    if !c.noQuicFallback && c.useQuic then
      ({ c with useQuic := false, oldUseQuic := true }, .retry, snis)
    else if !c.noRelayFallback && !direct && !s.relays.isEmpty && !snis.contains c.endpoint.name then
      ({ c with
          relay := s.relays.getLast?
          useQuic := if c.noQuicFallback then c.useQuic else c.oldUseQuic }, .retry,
        snis ++ [c.endpoint.name])
    else counted
  else counted

structure Settled where
  kept : List PingConn
  reported : List PingConn
  snis : List Bytes

/-- The loop over `done`: entries for another round, entries to report, names. -/
def settle (s : Ping) (direct : Bool) : List Bytes → List PingConn → Settled
  | snis, [] => ⟨[], [], snis⟩
  | snis, c :: l =>
    let r := s.settleConn direct snis c
    let rest := settle s direct r.2.2 l
    match r.2.1 with
    | .report => { rest with reported := r.1 :: rest.reported }
    | _ => { rest with kept := r.1 :: rest.kept }

def prepareAll (prep : Nat → Prepared) : List PingConn → List PingConn × List PingConn
  | [] => ([], [])
  | c :: l =>
    let r := connPrepare c (prep c.id)
    let rest := prepareAll prep l
    if r.2 then (r.1 :: rest.1, rest.2) else (rest.1, r.1 :: rest.2)

def startRound (l : List PingConn) (prep : Nat → Prepared) : Ping :=
  let r := prepareAll prep l
  { s with
    roundsStarted := s.roundsStarted + 1
    haveRoundWinner := false
    pending := r.1
    done := r.2
    timer := !r.1.isEmpty
    prepareTask := r.1.isEmpty
    connectTask := !r.1.isEmpty }

def startReport : Ping :=
  { s with pending := [], done := [], timer := false, relayShortcutTimer := false, reportTask := true }

def prepareAsserts : Bool :=
  !s.connectTask && !s.reportTask && s.inprogress.isEmpty && s.inprogressShortcut.isEmpty &&
    (if s.pending.isEmpty then !s.done.isEmpty || !s.report.isEmpty
     else s.done.isEmpty && s.report.isEmpty)

def settled : Ping :=
  let sc := s.doneShortcut.foldl takeShortcut (s.done, [])
  let direct := s.haveDirectResult || sc.1.any fun c => c.bestResultMs.isSome && c.relay.isNone
  let r := s.settle direct sc.2 sc.1
  let report := s.report ++ r.reported
  { s with
    prepareTask := false
    doneShortcut := []
    done := []
    haveDirectResult := direct
    relays := if r.snis.isEmpty then s.relays else s.relays.dropLast
    relayShortcutTimer := s.relayShortcutTimer && r.snis.isEmpty
    report := report
    pending :=
      if report.any fun c => c.noRelayFallback && c.bestResultMs.isSome then []
      else s.pending ++ r.kept }

def doPrepare : Ping × List PingOut :=
  if !s.prepareAsserts then s.abort
  else if s.settled.pending.isEmpty then (s.settled.startReport, [])
  else (s.settled.startRound s.settled.pending prep, [])

/-! ## Within a round -/

def connectFirst (error : Int) (inprogress done : List PingConn) : List PingConn × List PingConn :=
  if error ≠ 0 then (inprogress, done ++ [{ c with socketError := error, socket := none }])
  else (inprogress ++ [c], done)

def doConnect (error : Int) : Ping × List PingOut :=
  match s.pending with
  | [] => s.abort
  | c :: rest =>
    let r := connectFirst c error s.inprogress s.done
    let all := rest.isEmpty && r.1.isEmpty
    ({ s with
        pending := rest
        inprogress := r.1
        done := r.2
        connectTask := !rest.isEmpty
        timer := s.timer && !all
        prepareTask := s.prepareTask || all }, [])

def doConnectShortcut (error : Int) : Ping × List PingOut :=
  match s.pendingShortcut with
  | [] => s.abort
  | c :: rest =>
    let r := connectFirst c error s.inprogressShortcut s.doneShortcut
    ({ s with
        pendingShortcut := rest
        inprogressShortcut := r.1
        doneShortcut := r.2
        connectShortcutTask := !rest.isEmpty }, [])

def timeOut : PingConn :=
  { c with socket := none, socketError := if s.haveRoundWinner then c.socketError else etimedout }

/-- `on_timer`: the round is over for every connection. -/
def onTimer : Ping × List PingOut :=
  if s.reportTask then s.abort
  else
    ({ s with
        pending := []
        inprogress := []
        done := s.done ++ (s.pending ++ s.inprogress).map s.timeOut
        pendingShortcut := []
        inprogressShortcut := []
        doneShortcut := s.doneShortcut ++ (s.pendingShortcut ++ s.inprogressShortcut).map s.timeOut
        timer := false
        connectTask := false
        connectShortcutTask := false
        prepareTask := true }, [])

def shortcutFor (id : Nat) (c : PingConn) : PingConn :=
  ⟨id, c.endpoint, s.relays.getLast?, c.boundIf, none, 0, c.useQuic, c.noQuicFallback, false, false, 0, none⟩

/-- The loop of `on_shortcut_timer`; the entries get the ids from `id` on. -/
def shortcuts (s : Ping) (prep : Nat → Prepared) : Nat → List PingConn → List PingConn
  | _, [] => []
  | id, c :: l =>
    if c.relay.isSome then shortcuts s prep id l
    else
      let r := connPrepare (s.shortcutFor id c) (prep id)
      let rest := shortcuts s prep (id + 1) l
      if r.2 then r.1 :: rest else rest

def onShortcutTimer : Ping × List PingOut :=
  if s.reportTask || s.relays.isEmpty then s.abort
  else
    let l := s.pendingShortcut ++ s.shortcuts prep s.nextId s.inprogress
    ({ s with
        relayShortcutTimer := false
        pendingShortcut := l
        nextId := s.nextId + s.inprogress.length
        connectShortcutTask := s.connectShortcutTask || !l.isEmpty }, [])

inductive Outcome where
  | response (ms : Int)
  | error (code : Int)

def finishConn : Outcome → PingConn
  | .error code => { c with socketError := code, socket := none }
  | .response ms =>
    let dt := if c.useQuic then ms else ms.tdiv 2
    { c with bestResultMs := some (min dt (c.bestResultMs.getD 2147483647)) }

def endRound : Ping :=
  if s.inprogress.isEmpty && s.pending.isEmpty && s.inprogressShortcut.isEmpty && s.pendingShortcut.isEmpty then
    { s with timer := false, prepareTask := true }
  else s

/-- The first response of a round sets the timer to a shorter time. -/
def noteOutcome : Outcome → Ping
  | .error _ => s
  | .response _ => { s with timer := s.timer || !s.haveRoundWinner, haveRoundWinner := true }

def takeConn (id : Nat) : List PingConn → Option (PingConn × List PingConn)
  | [] => none
  | c :: l => if c.id = id then some (c, l) else (takeConn id l).map fun r => (r.1, c :: r.2)

def connProcessResult (id : Nat) (r : Outcome) : Ping × List PingOut :=
  match takeConn id s.inprogress with
  | some (c, l) =>
    (({ s.noteOutcome r with inprogress := l, done := s.done ++ [finishConn c r] } : Ping).endRound, [])
  | none =>
    match takeConn id s.inprogressShortcut with
    | some (c, l) =>
      (({ s.noteOutcome r with
          inprogressShortcut := l
          doneShortcut := s.doneShortcut ++ [finishConn c r] } : Ping).endRound, [])
    | none => (s, [])

/-! ## The report -/

def reportAsserts : Bool :=
  s.inprogress.isEmpty && s.inprogressShortcut.isEmpty && s.pending.isEmpty &&
    s.pendingShortcut.isEmpty && s.doneShortcut.isEmpty && !s.connectTask && !s.prepareTask

/-- The result for an entry; `scale` is the formula that evens out the peaks. -/
def resultOf (scale : Int → Int) (c : PingConn) : PingResult :=
  match c.bestResultMs with
  | some ms => .ok c.endpoint (scale ms) c.relay c.useQuic (if s.handoff then c.socket else none)
  | none =>
    if c.socketError = 0 ∨ c.socketError = etimedout then .timedOut c.endpoint
    else .socketError c.endpoint c.socketError

def doReport (scale : Int → Int) : Ping × List PingOut :=
  if !s.reportAsserts then s.abort
  else
    match s.report with
    | [] => ({ s with reportTask := false }, [.finished])
    | c :: rest => ({ s with report := rest }, [.result c.id (s.resultOf scale c)])

/-! ## The system -/

inductive Call where
  | prepareTask (prep : Nat → Prepared)
  | connectTask (error : Int)
  | connectShortcutTask (error : Int)
  | reportTask
  | timer
  | shortcutTimer (prep : Nat → Prepared)
  | outcome (id : Nat) (r : Outcome)

/-- The task is scheduled, the timer set, the connection in progress. -/
def enabled : Call → Bool
  | .prepareTask _ => s.prepareTask
  | .connectTask _ => s.connectTask
  | .connectShortcutTask _ => s.connectShortcutTask
  | .reportTask => s.reportTask
  | .timer => s.timer
  | .shortcutTimer _ => s.relayShortcutTimer
  | .outcome id _ => (takeConn id s.inprogress).isSome || (takeConn id s.inprogressShortcut).isSome

def run : Call → Ping × List PingOut
  | .prepareTask prep => s.doPrepare prep
  | .connectTask error => s.doConnect error
  | .connectShortcutTask error => s.doConnectShortcut error
  | .reportTask => s.doReport scale
  | .timer => s.onTimer
  | .shortcutTimer prep => s.onShortcutTimer prep
  | .outcome id r => s.connProcessResult id r

def step (c : Call) : Ping × List PingOut :=
  if !s.aborted && s.enabled c then s.run scale c else (s, [])

def ping : System Ping Call PingOut := ⟨s, step scale⟩

theorem ping_step : (ping scale s).step = step scale := rfl

end Ping
end TrustTunnel
