import TrustTunnel.Vpn.Transitions

/-!
# Vpn.Session

The VPN client as a system driven by calls: the functions of `vpn.h`, and what the event loop runs
(submitted tasks, the recovery task, the postponement timer, the reports of the pinger and of the
client). A call does some work of its own (`intake`) and then raises at most one event of the
session machine.

The functions of `vpn.h` hold `stop_guard` and work through tasks, which the loop runs in the order
of their submission. `vpn_stop` is two calls: it submits the shutdown and asks the loop to stop, and
once the loop has stopped it drops what is left. In between the loop goes on and the other functions
wait for the guard: a call that is made then does nothing.

A pinger reports only after the tasks that were queued at its start have run. The client reports
`EVENT_CONNECTED` only while it is connecting; it may report the loss of a session at any time.
-/

namespace TrustTunnel

open Lib

/-- `LocationsPingerResult`; `pingMs` is negative if no endpoint was reached. -/
structure PingerResult where
  pingMs : Int
  endpoint : VpnEndpoint
  relay : Option VpnRelay

inductive Call where
  | connect (parameters : ConnectParameters)
  | forceReconnect
  | forceDisconnect (fatalConnectivityError : Bool)
  | listen
  | stop
  | stopped
  | completeConnectRequest (result : ConnectRequestResult)
  | notifyNetworkChange (state : VpnNetworkState)
  | abandonEndpoint (endpoint : VpnEndpoint)
  | runTask (env : Env)
  | pingerResult (result : PingerResult) (env : Env)
  | clientConnected (env : Env)
  | clientDisconnected (error : Option VpnError) (env : Env)
  | recoveryTask (env : Env)
  | postponementTimer

def Call.isStopped : Call → Bool
  | .stopped => true
  | _ => false

variable (v : Vpn)

namespace Vpn

/-- The work of a call before the event it raises, if it raises one. -/
structure Intake where
  vpn : Vpn
  outs : List Out := []
  event : Option (ConnectEvent × EventArg) := none

def ignored : Intake := { vpn := v }

def raises (e : ConnectEvent) (d : EventData) (env : Env) : Intake :=
  { vpn := v, event := some (e, ⟨d, env⟩) }

/-! ## Functions of `vpn.h` -/

def submitted (t : Task) : Intake :=
  match v.loop with
  | .created | .running => { vpn := v.submit t }
  | .stopping | .idle => v.ignored

def listen : Intake := if v.loop = .running then v.submitted .listen else v.ignored

/-- `ConnectSeveralAttempts` of `vpn_connect`; 5 is `VPN_DEFAULT_CONNECT_ATTEMPTS_NUM`. -/
def retryInfoOf : RetryPolicy → ConnectRetryInfo
  | .severalAttempts n => .severalAttempts (if n ≤ 0 then 5 else n.toNat)
  | .fallIntoRecovery => .fallIntoRecovery

def connect (p : ConnectParameters) : Intake :=
  if v.loop = .stopping then v.ignored
  else
    match validateUpstreamConfig p.upstreamConfig with
    | some error => { vpn := v, outs := [.connectReturned error] }
    | none =>
      if v.loop = .running then
        { vpn := v, outs := [.connectReturned ⟨.error, "VPN client worker is already running"⟩] }
      else
        { vpn := { v with loop := .running }.submit (.connect p.upstreamConfig (retryInfoOf p.retryPolicy))
          outs := [.connectReturned noError] }

/-- The end of `vpn_stop`. -/
def reset : Vpn :=
  { v with
    loop := .idle
    queue := []
    deferred := []
    state := .disconnected
    pendingError := none
    clientState := .disconnected
    pinger := none
    pingFailureInducesLocationUnavailable := false
    postponementWindowTimer := false
    recovery := {}
    selectedEndpoint := none
    postponedRequests := []
    bypassedConnectionIds := [] }

/-- `vpn_stop`; there is nothing to wait for if the loop was never started. -/
def stop : Intake :=
  match v.loop with
  | .running => { vpn := { v with loop := .stopping }.submit .shutdown }
  | .created => { vpn := v.reset }
  | .stopping | .idle => v.ignored

def stopped : Intake := if v.loop = .stopping then { vpn := v.reset } else v.ignored

/-! ## Tasks -/

def abandonEndpoint (e : VpnEndpoint) (env : Env) : Intake :=
  let isSelected := v.selectedEndpoint.any fun s => s.endpoint == e
  let left := v.config.endpoints.filter (· ≠ e)
  let v := { v with
    selectedEndpoint := if isSelected then none else v.selectedEndpoint
    config := { v.config with endpoints := left } }
  if left.all fun i => i.address.family ≠ e.address.family then
    let text :=
      if left = [] then "Exhausted all endpoints in location"
      else if e.address.family = .inet then "Exhausted all IPv4 endpoints in location"
      else "Exhausted all IPv6 endpoints in location"
    raises
      { v with
        pendingError := some ⟨.locationUnavailable, text⟩
        config := { v.config with endpoints := [] } }
      .abandonEndpoint .null env
  else if !isSelected then
    { vpn := v, outs := if left = [] then [.assertFailed .endpointsLeft] else [] }
  else
    raises
      { v with
        pendingError := some ⟨.error, "Current endpoint is abandoned"⟩
        pingFailureInducesLocationUnavailable := true }
      .abandonEndpoint .null env

def recoveryFailedError : VpnError :=
  ⟨.locationUnavailable, "Maximum number of recovery attempts has been made"⟩

def runTask (env : Env) : Task → Intake
  | .connect c r =>
    raises { v.updateUpstreamConfig c with connectRetryInfo := countAttempt r } .doConnect .null env
  | .forceReconnect => v.raises .doRecovery .null env
  | .forceDisconnect fatal =>
    raises (if fatal then
        { v with
          pendingError := some ⟨.fatalConnectivityError, "Fatal connectivity error occurred"⟩ }
      else v)
      .shutdown .null env
  | .listen => v.raises .startListening .null env
  | .shutdown => v.raises .shutdown .null env
  | .completeConnectRequest r =>
    v.raises .completeRequest (.request { r with action := env.finalizeConnectAction r }) env
  | .notifyNetworkChange s =>
    raises { v with networkChangedBeforeRecovery := true } .networkChange (.network s) env
  | .abandonEndpoint e => v.abandonEndpoint e env
  | .retryConnect => v.raises .retryConnect .null env
  | .clientDisconnected => v.raises .clientDisconnected .null env
  | .recoveryFailed =>
    raises { v.resetRecovery with pendingError := some recoveryFailedError } .shutdown .null env
  | .listenFailed e => raises { v with pendingError := some e } .shutdown .null env

def pop (rest : List Task) : Vpn :=
  { v with queue := rest, pinger := v.pinger.map (· - 1) }

/-! ## Reports and timers -/

def pingerHandler (r : PingerResult) (env : Env) : Intake :=
  let asserted : List Out :=
    if v.selectedEndpoint.isSome then [.assertFailed .noSelectedEndpoint] else []
  let failed := { v with
    pinger := none, selectedEndpoint := none, pingFailureInducesLocationUnavailable := false }
  if r.pingMs < 0 then
    { vpn := failed, outs := asserted
      event := some (.pingFail, ⟨.error (if v.pingFailureInducesLocationUnavailable then
            ⟨.locationUnavailable, "None of the endpoints were pinged successfully"⟩
          else ⟨.error, "Failed to ping location"⟩), env⟩) }
  else if r.endpoint ∉ v.config.endpoints then
    { vpn := { failed with
        pingFailureInducesLocationUnavailable := v.pingFailureInducesLocationUnavailable }
      outs := asserted
      event := some (.pingFail, ⟨.error ⟨.error, "Best available endpoint wasn't found in location"⟩, env⟩) }
  else
    { vpn := { failed with selectedEndpoint := some ⟨r.endpoint, r.relay⟩ }, outs := asserted
      event := some (.pingReady, ⟨.null, env⟩) }

def recoveryTask (env : Env) : Intake :=
  match v.deferred with
  | [] => v.ignored
  | _ :: rest =>
    raises
      { v with
        deferred := rest
        recovery := { v.recovery with
          task := none, time := { v.recovery.time with attemptStartTs := env.now } } }
      .doRecovery .null env

def releasePostponed (r : ConnectRequestResult) (v : Vpn) : Vpn × List Out :=
  if v.killSwitchOn then (v, [.rejected r.id])
  else
    ({ v with bypassedConnectionIds := v.bypassedConnectionIds ++ [r.id] }, [.completed r.id (some .forceBypass)])

def postponementWindowTimerCb : Vpn × List Out :=
  andDo (forEach releasePostponed v.postponedRequests { v with postponementWindowTimer := false })
    fun v => ({ v with postponedRequests := [] }, [])

theorem forEach_releasePostponed (l : List ConnectRequestResult) (v : Vpn) : forEach releasePostponed l v = ({ v with
          bypassedConnectionIds :=
            if v.killSwitchOn then v.bypassedConnectionIds
            else v.bypassedConnectionIds ++ l.map (·.id) },
        l.map fun r =>
          if v.killSwitchOn then .rejected r.id else .completed r.id (some .forceBypass)) := by
  induction l generalizing v with
  | nil => simp [forEach]
  | cons r l ih =>
    simp only [forEach, andDo, ih]
    cases hk : v.killSwitchOn with
    | true | false => simp [releasePostponed, hk]

@[simp] theorem postponementWindowTimerCb_fst : v.postponementWindowTimerCb.1 = { v with
        postponementWindowTimer := false
        postponedRequests := []
        bypassedConnectionIds :=
          if v.killSwitchOn then v.bypassedConnectionIds
          else v.bypassedConnectionIds ++ v.postponedRequests.map (·.id) } := by
  simp [postponementWindowTimerCb, forEach_releasePostponed]

@[simp] theorem postponementWindowTimerCb_snd : v.postponementWindowTimerCb.2 = v.postponedRequests.map fun r =>
        if v.killSwitchOn then .rejected r.id else .completed r.id (some .forceBypass) := by
  simp [postponementWindowTimerCb, forEach_releasePostponed]

/-- The error of `EVENT_ERROR`, none for `EVENT_DISCONNECTED`. -/
def errorData : Option VpnError → EventData
  | none => .null
  | some e => .error e

def clientDisconnected (error : Option VpnError) (env : Env) : Intake :=
  raises { v with clientState := .disconnected } .clientDisconnected (errorData error) env

/-! ## The system -/

def intake : Call → Intake
  | .connect p => v.connect p
  | .forceReconnect => v.submitted .forceReconnect
  | .forceDisconnect fatal => v.submitted (.forceDisconnect fatal)
  | .listen => v.listen
  | .stop => v.stop
  | .stopped => v.stopped
  | .completeConnectRequest r => v.submitted (.completeConnectRequest r)
  | .notifyNetworkChange s => v.submitted (.notifyNetworkChange s)
  | .abandonEndpoint e => v.submitted (.abandonEndpoint e)
  | .runTask env =>
    match v.queue with
    | [] => v.ignored
    | t :: rest => if v.loop.runs then (v.pop rest).runTask env t else v.ignored
  | .pingerResult r env => if v.pinger = some 0 then v.pingerHandler r env else v.ignored
  | .clientConnected env =>
    if v.clientState = .connecting then
      raises { v with clientState := .connected } .clientReady .null env
    else v.ignored
  | .clientDisconnected error env =>
    if v.loop.runs then v.clientDisconnected error env else v.ignored
  | .recoveryTask env => v.recoveryTask env
  | .postponementTimer =>
    if v.postponementWindowTimer then
      { vpn := v.postponementWindowTimerCb.1, outs := v.postponementWindowTimerCb.2 }
    else v.ignored

def finish (i : Intake) : Vpn × List Out :=
  match i.event with
  | none => (i.vpn, i.outs)
  | some (e, a) => andDo (i.vpn, i.outs) (performTransition e a)

def step (c : Call) : Vpn × List Out := finish (v.intake c)

def taskOf : Call → Option Task
  | .runTask _ => if v.loop.runs then v.queue.head? else none
  | _ => none

/-- The task of `vpn_notify_network_change` for a network that is there. -/
def isNetworkRegained : Task → Bool
  | .notifyNetworkChange .connected => true
  | _ => false

/-- The task abandons the selected endpoint, and the location has another one of its family. -/
def abandonsCurrent : Task → Bool
  | .abandonEndpoint e =>
    (v.selectedEndpoint.any fun s => s.endpoint == e) &&
      v.config.endpoints.any fun i => i ≠ e && i.address.family == e.address.family
  | _ => false

def system (killswitchEnabled : Bool) : System Vpn Call Out := ⟨opened killswitchEnabled 0, step⟩

@[simp] theorem system_step (k : Bool) : (system k).step = step := rfl

/-! ## A small configuration

Two endpoints and an outside that lets everything succeed, for runs on concrete inputs. -/

def someEndpoint : VpnEndpoint := ⟨⟨[192, 0, 2, 1], 443⟩, some "vpn.example", none⟩

def otherEndpoint : VpnEndpoint := ⟨⟨[192, 0, 2, 2], 443⟩, some "vpn.example", none⟩

def someConfig : UpstreamConfig :=
  { emptyConfig with
    endpoints := [someEndpoint, otherEndpoint], username := some "u", password := some "p" }

def goodEnv (ms : Nat) : Env where
  now := ms * 1000000
  connectResult := noError
  listenResult := noError
  finalizeConnectAction := fun r => r.action
  shouldCompleteImmediately := fun _ => false

def badConnectEnv (ms : Nat) : Env :=
  { goodEnv ms with connectResult := ⟨.error, "Internal error"⟩ }

def someRequest : ConnectRequestResult := ⟨7, some .forceRedirect, [], 0⟩

def pinged : PingerResult := ⟨20, someEndpoint, none⟩

end Vpn

end TrustTunnel
