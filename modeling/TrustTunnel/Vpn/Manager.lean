import TrustTunnel.Core.Types
import TrustTunnel.Lib.System

/-!
# Vpn.Manager

The state of a VPN client (`struct Vpn`, `vpn_manager.h`) and the operations of `vpn_manager.cpp`
the session machine is built on: the queue of tasks submitted to the event loop, the recovery
state, the connection to an endpoint, the connect requests put off during a recovery.

What the code asks the outside for is part of the input of a step (`Env`): the clock, the result of
`client.connect` and `client.listen`, the tunnel's verdicts on a connect request. What it tells the
outside is an output (`Out`), a failed `assert` and the use of an empty optional included.
-/

namespace TrustTunnel

open Lib

/-! ## Data -/

inductive VpnSessionState where
  | disconnected
  | connecting
  | connected
  | waitingRecovery
  | recovering
  | waitingForNetwork
  deriving DecidableEq

inductive VpnNetworkState where
  | connected
  | notConnected
  deriving DecidableEq

inductive VpnConnectAction where
  | default
  | forceBypass
  | forceRedirect
  | reject
  deriving DecidableEq

/-- `ConnectRequestResult`: no action means that it is not certain whether to redirect. -/
structure ConnectRequestResult where
  id : ConnId
  action : Option VpnConnectAction
  appname : Bytes
  uid : Int
  deriving DecidableEq

structure VpnEndpoint where
  address : SocketAddress
  name : Option String
  remoteId : Option String
  deriving DecidableEq

structure VpnRelay where
  address : SocketAddress
  deriving DecidableEq

structure SelectedEndpoint where
  endpoint : VpnEndpoint
  relay : Option VpnRelay
  deriving DecidableEq

inductive Family where
  | unspec
  | inet
  | inet6
  | unknown
  deriving DecidableEq

def SocketAddress.family (a : SocketAddress) : Family :=
  match a.addr.length with
  | 0 => .unspec
  | 4 => .inet
  | 16 => .inet6
  | _ => .unknown

/-- `recovery.backoff_rate`, by what it makes of an interval: the product with a float, rounded to
milliseconds. -/
structure BackoffRate where
  belowOne : Bool
  scale : Nat → Nat

/-- `VPN_DEFAULT_RECOVERY_BACKOFF_RATE`, 1.3. -/
def defaultBackoffRate : BackoffRate := ⟨false, fun ms => (ms * 13 + 5) / 10⟩

/-- `VpnUpstreamConfig`, times in milliseconds. -/
structure UpstreamConfig where
  locationId : String
  endpoints : List VpnEndpoint
  username : Option String
  password : Option String
  timeout : Nat
  backoffRate : BackoffRate
  locationUpdatePeriod : Nat
  attempts : Nat

inductive ClientConnectionState where
  | disconnected
  | connecting
  | connected
  deriving DecidableEq

inductive ConnectRetryInfo where
  | severalAttempts (attemptsLeft : Nat)
  | fallIntoRecovery
  deriving DecidableEq

/-- `RecoveryInfo::time`. Points of time are in nanoseconds, 0 stands for no point of time;
intervals are in milliseconds. -/
structure RecoveryTime where
  startTs : Nat := 0
  attemptStartTs : Nat := 0
  betweenAttempts : Nat := 1000
  toNext : Nat := 0

structure RecoveryInfo where
  time : RecoveryTime := {}
  attempts : Nat := 0
  task : Option Nat := none

inductive RetryPolicy where
  | severalAttempts (attemptsNum : Int)
  | fallIntoRecovery

structure ConnectParameters where
  upstreamConfig : UpstreamConfig
  retryPolicy : RetryPolicy

/-- The event loop of the client: created by `vpn_open` and not yet started, running, being stopped by
`vpn_stop`, destroyed. -/
inductive LoopState where
  | created
  | running
  | stopping
  | idle
  deriving DecidableEq

def LoopState.runs : LoopState → Bool
  | .running | .stopping => true
  | .created | .idle => false

inductive Task where
  | connect (config : UpstreamConfig) (retryInfo : ConnectRetryInfo)
  | forceReconnect
  | forceDisconnect (fatalConnectivityError : Bool)
  | listen
  | shutdown
  | completeConnectRequest (result : ConnectRequestResult)
  | notifyNetworkChange (state : VpnNetworkState)
  | abandonEndpoint (endpoint : VpnEndpoint)
  | retryConnect
  | clientDisconnected
  | recoveryFailed
  | listenFailed (error : VpnError)

/-- `struct Vpn`, with the task queue and the armed deferred tasks of its event loop. -/
structure Vpn where
  state : VpnSessionState
  pendingError : Option VpnError
  recovery : RecoveryInfo
  config : UpstreamConfig
  selectedEndpoint : Option SelectedEndpoint
  networkChangedBeforeRecovery : Bool
  connectedOnce : Bool
  /-- A pinger that has not reported: how many of the tasks queued at its start are still queued. -/
  pinger : Option Nat
  pingFailureInducesLocationUnavailable : Bool
  clientState : ClientConnectionState
  killSwitchOn : Bool
  connectRetryInfo : ConnectRetryInfo
  bypassedConnectionIds : List ConnId
  postponedRequests : List ConnectRequestResult
  postponementWindowTimer : Bool
  loop : LoopState
  queue : List Task
  deferred : List Nat
  nextTaskId : Nat

structure Env where
  /-- `SteadyClock::now()`, in nanoseconds -/
  now : Nat
  connectResult : VpnError
  listenResult : VpnError
  finalizeConnectAction : ConnectRequestResult → Option VpnConnectAction
  shouldCompleteImmediately : ConnId → Bool

inductive Assertion where
  /-- `assert(0)` in `retry_connect` -/
  | retryPolicy
  /-- `assert(!vpn->selected_endpoint.has_value())` in `pinger_handler` -/
  | noSelectedEndpoint
  /-- `assert(vpn->upstream_config->location.endpoints.size > 0)` in `vpn_abandon_endpoint` -/
  | endpointsLeft
  deriving DecidableEq

inductive StateInfo where
  | error (e : VpnError)
  | waitingRecovery (e : VpnError) (timeToNext : Nat)
  | connected (endpoint : SelectedEndpoint)
  deriving DecidableEq

inductive Out where
  | stateChanged (locationId : String) (state : VpnSessionState) (info : StateInfo)
  | pingStarted (endpoints : List VpnEndpoint) (relayParallel : Option VpnRelay)
  | recoveryScheduled (after : Nat)
  | clientConnect (endpoint : VpnEndpoint) (timeout : Option Nat)
  | clientDisconnect
  | healthCheck
  | completed (id : ConnId) (action : Option VpnConnectAction)
  | rejected (id : ConnId)
  | resetConnection (id : ConnId)
  | connectReturned (error : VpnError)
  | assertFailed (a : Assertion)
  | badOptionalAccess
  deriving DecidableEq

def noError : VpnError := ⟨.noError, ""⟩

variable (v : Vpn)

namespace Vpn

/-! ## Creation -/

def emptyConfig : UpstreamConfig :=
  ⟨"", [], none, none, 0, defaultBackoffRate, 0, 0⟩

/-- `vpn_open` with the given `killswitch_enabled`, when `taskId` is the next task id. -/
def opened (killswitchEnabled : Bool) (taskId : Nat) : Vpn where
  state := .disconnected
  pendingError := none
  recovery := {}
  config := emptyConfig
  selectedEndpoint := none
  networkChangedBeforeRecovery := false
  connectedOnce := false
  pinger := none
  pingFailureInducesLocationUnavailable := false
  clientState := .disconnected
  killSwitchOn := killswitchEnabled
  connectRetryInfo := .severalAttempts 5
  bypassedConnectionIds := []
  postponedRequests := []
  postponementWindowTimer := false
  loop := .created
  queue := []
  deferred := []
  nextTaskId := taskId

/-! ## The upstream configuration -/

/-- `Vpn::update_upstream_config`: what is not given gets its default. -/
def updateUpstreamConfig (c : UpstreamConfig) : Vpn :=
  { v with
    config := { c with
      timeout := if c.timeout = 0 then 30000 else c.timeout
      backoffRate := if c.backoffRate.belowOne then defaultBackoffRate else c.backoffRate
      locationUpdatePeriod := if c.locationUpdatePeriod = 0 then 10000 else c.locationUpdatePeriod
      attempts := if c.attempts = 0 then 30 else c.attempts } }

/-- `check_address`, the complaint about an endpoint's address. -/
def checkAddress (a : SocketAddress) : Option String :=
  if a.valid then
    if a.family = .inet ∨ a.family = .inet6 then
      if a.port = 0 then some "Port must be specified" else none
    else some "Unknown family"
  else none

def validateEndpoint (several : Bool) (e : VpnEndpoint) : Option VpnError :=
  if e.name.isNone then some ⟨.invalidSettings, "Names must be specified for each endpoint"⟩
  else if several ∧ e.address.family = .unspec then
    some ⟨.invalidSettings, "In case of multiple endpoints addresses must be specified for each one"⟩
  else if (checkAddress e.address).isSome then some ⟨.invalidSettings, "Invalid endpoint address"⟩
  else none

def validateUpstreamConfig (c : UpstreamConfig) : Option VpnError :=
  if c.endpoints = [] then some ⟨.invalidSettings, "At least one endpoint must be specified"⟩
  else if c.username.isNone ∨ c.password.isNone then
    some ⟨.invalidSettings, "Both username and password must be specified"⟩
  else c.endpoints.findSome? (validateEndpoint (decide (1 < c.endpoints.length)))

/-- The endpoint the client is told to connect to: the relay's address, if there is a relay. -/
def clientEndpoint (s : SelectedEndpoint) : VpnEndpoint :=
  match s.relay with
  | none => s.endpoint
  | some r => { s.endpoint with address := r.address }

/-! ## The event loop -/

def submit (t : Task) : Vpn := { v with queue := v.queue ++ [t] }

/-- Remove the task an `AutoTaskId` holds from the deferred ones. -/
def cancel (task : Option Nat) (deferred : List Nat) : List Nat :=
  deferred.filter fun i => task ≠ some i

/-- `recovery = {}`: the `AutoTaskId` that goes away cancels its task. -/
def resetRecovery : Vpn :=
  { v with recovery := {}, deferred := cancel v.recovery.task v.deferred }

/-! ## The client and the pinger -/

def stopPinging : Vpn :=
  { v with pinger := none, pingFailureInducesLocationUnavailable := false }

def disconnectClient : Vpn × List Out :=
  match v.clientState with
  | .disconnected => (v, [])
  | .connected | .connecting => ({ v with clientState := .disconnected }, [.clientDisconnect])

def disconnect : Vpn × List Out := v.stopPinging.disconnectClient

@[simp] theorem disconnectClient_fst : v.disconnectClient.1 = { v with clientState := .disconnected } := by
  unfold disconnectClient
  split
  · next h => rw [← h]
  · rfl
  · rfl

@[simp] theorem disconnect_fst : v.disconnect.1 = { v with
        pinger := none, pingFailureInducesLocationUnavailable := false,
        clientState := .disconnected } :=
  disconnectClient_fst _

@[simp] theorem disconnectClient_snd :
    v.disconnectClient.2 = if v.clientState = .disconnected then [] else [.clientDisconnect] := by
  unfold disconnectClient
  split <;> simp [*]

@[simp] theorem disconnect_snd : v.disconnect.2 = if v.clientState = .disconnected then [] else [.clientDisconnect] :=
  disconnectClient_snd _

/-! ## Connect requests -/

def completePostponedRequests : Vpn × List Out :=
  ({ v with postponedRequests := [] }, v.postponedRequests.map fun r => .completed r.id r.action)

def resetBypassedConnections : Vpn × List Out :=
  ({ v with bypassedConnectionIds := [] }, v.bypassedConnectionIds.map .resetConnection)

end Vpn

end TrustTunnel
