import TrustTunnel.Lib.Fsm
import TrustTunnel.Vpn.Manager

/-!
# Vpn.Transitions

The session machine of `vpn_fsm.cpp`: its transition table, the conditions and the actions.

Actions never raise an event of the machine themselves. Where one is to follow, the action submits
a task that raises it (`retry_connect`, `run_client_connect`, `initiate_recovery`,
`start_listening`).
-/

namespace TrustTunnel

open Lib

inductive ConnectEvent where
  | doConnect
  | retryConnect
  | pingReady
  | pingFail
  | clientReady
  | clientDisconnected
  | doRecovery
  | shutdown
  | networkChange
  | startListening
  | abandonEndpoint
  | completeRequest
  deriving DecidableEq

inductive Condition where
  | isFatalError
  | needToPingOnRecovery
  | fallIntoRecovery
  | noConnectAttempts
  | networkLost
  | connectedOnce
  | canComplete
  | isKillSwitchOn
  | shouldPostpone
  deriving DecidableEq

inductive Action where
  | runPing
  | connectClient
  | completeConnect
  | failConnectWithNoAttempts
  | retryConnect
  | prepareForRecovery
  | prepareForRecoveryNc
  | reconnectClient
  | finalizeRecovery
  | doDisconnect
  | startListening
  | onWrongConnectState
  | onWrongListenState
  | raiseState
  | completeRequest
  | postponeRequest
  | rejectRequest
  | bypassUntilConnected
  deriving DecidableEq

inductive EventData where
  | null
  | error (e : VpnError)
  | network (state : VpnNetworkState)
  | request (r : ConnectRequestResult)
  deriving DecidableEq

structure EventArg where
  data : EventData
  env : Env

variable (d : EventData) (env : Env) (timeout : Option Nat) (v : Vpn)

namespace Vpn

/-! ## The table -/

/-- The row `{source, event, condition, before, target, after}`. -/
abbrev row (source : Option VpnSessionState) (event : ConnectEvent) (condition : Option Condition)
    (before : Option Action) (target : Option VpnSessionState) (after : Option Action) :
    Row VpnSessionState ConnectEvent Condition Action :=
  ⟨source, event, condition, before, target, after⟩

open VpnSessionState ConnectEvent Condition Action in
def transitionTable : List (Row VpnSessionState ConnectEvent Condition Action) :=
  [row (some disconnected) doConnect none (some runPing) (some connecting) (some raiseState),
   row (some disconnected) clientDisconnected none none none none,
   row (some disconnected) shutdown none (some doDisconnect) none none,
   row (some disconnected) .startListening none (some onWrongListenState) none none,
   row (some disconnected) networkChange none none none none,

   row (some connecting) .retryConnect none (some runPing) none none,
   row (some connecting) pingReady none (some connectClient) none none,
   row (some connecting) pingFail (some isFatalError) (some completeConnect) (some disconnected) (some raiseState),
   row (some connecting) pingFail (some fallIntoRecovery) (some prepareForRecovery)
     (some waitingRecovery) (some raiseState),
   row (some connecting) pingFail (some noConnectAttempts) (some completeConnect)
     (some disconnected) (some raiseState),
   row (some connecting) pingFail none (some .retryConnect) none none,
   row (some connecting) clientReady none (some completeConnect) (some connected) (some raiseState),
   row (some connecting) clientDisconnected (some isFatalError) (some completeConnect)
     (some disconnected) (some raiseState),
   row (some connecting) clientDisconnected (some fallIntoRecovery) (some prepareForRecovery)
     (some waitingRecovery) (some raiseState),
   row (some connecting) clientDisconnected (some noConnectAttempts) (some completeConnect)
     (some disconnected) (some raiseState),
   row (some connecting) clientDisconnected none (some .retryConnect) none none,
   row (some connecting) abandonEndpoint (some isFatalError) (some completeConnect)
     (some disconnected) (some raiseState),
   row (some connecting) abandonEndpoint none (some .retryConnect) none none,
   row (some connecting) networkChange (some noConnectAttempts) (some failConnectWithNoAttempts)
     (some disconnected) (some raiseState),
   row (some connecting) networkChange (some networkLost) (some doDisconnect)
     (some waitingForNetwork) (some raiseState),
   row (some connecting) networkChange (some fallIntoRecovery) (some prepareForRecovery)
     (some waitingRecovery) (some raiseState),
   row (some connecting) networkChange none (some .retryConnect) none none,

   row (some connected) networkChange (some networkLost) (some doDisconnect)
     (some waitingForNetwork) (some raiseState),
   row (some connected) networkChange none (some prepareForRecoveryNc) (some waitingRecovery) (some raiseState),
   row (some connected) abandonEndpoint (some isFatalError) (some doDisconnect) (some disconnected) (some raiseState),
   row (some connected) abandonEndpoint none (some prepareForRecovery) (some waitingRecovery) (some raiseState),

   row (some waitingRecovery) networkChange (some networkLost) (some doDisconnect)
     (some waitingForNetwork) (some raiseState),
   row (some waitingRecovery) networkChange none (some runPing) (some recovering) (some raiseState),
   row (some waitingRecovery) doRecovery (some needToPingOnRecovery) (some runPing)
     (some recovering) (some raiseState),
   row (some waitingRecovery) doRecovery none (some connectClient) (some recovering) (some raiseState),
   row (some waitingRecovery) clientDisconnected (some isFatalError) (some doDisconnect)
     (some disconnected) (some raiseState),
   row (some waitingRecovery) clientDisconnected none none none none,
   row (some waitingRecovery) abandonEndpoint (some isFatalError) (some doDisconnect)
     (some disconnected) (some raiseState),

   row (some recovering) networkChange (some networkLost) (some doDisconnect)
     (some waitingForNetwork) (some raiseState),
   row (some recovering) networkChange none (some prepareForRecoveryNc) (some waitingRecovery) (some raiseState),
   row (some recovering) pingReady none (some reconnectClient) none none,
   row (some recovering) pingFail (some isFatalError) (some doDisconnect) (some disconnected) (some raiseState),
   row (some recovering) pingFail none (some prepareForRecovery) (some waitingRecovery) (some raiseState),
   row (some recovering) clientReady none (some finalizeRecovery) (some connected) (some raiseState),
   row (some recovering) abandonEndpoint (some isFatalError) (some doDisconnect)
     (some disconnected) (some raiseState),
   row (some recovering) abandonEndpoint none (some prepareForRecovery) (some waitingRecovery) (some raiseState),

   row (some waitingForNetwork) networkChange (some networkLost) none none none,
   row (some waitingForNetwork) networkChange (some .connectedOnce) (some prepareForRecoveryNc)
     (some waitingRecovery) (some raiseState),
   row (some waitingForNetwork) networkChange (some noConnectAttempts)
     (some failConnectWithNoAttempts) (some disconnected) (some raiseState),
   row (some waitingForNetwork) networkChange none (some .retryConnect) (some connecting) (some raiseState),

   row none clientDisconnected (some isFatalError) (some doDisconnect) (some disconnected) (some raiseState),
   row none clientDisconnected none (some prepareForRecovery) (some waitingRecovery) (some raiseState),
   row none shutdown none (some doDisconnect) (some disconnected) (some raiseState),
   row none doConnect none (some onWrongConnectState) (some disconnected) (some raiseState),
   row none .startListening none (some .startListening) none none,

   row none .completeRequest (some canComplete) (some .completeRequest) none none,
   row none .completeRequest (some shouldPostpone) (some postponeRequest) none none,
   row none .completeRequest (some isKillSwitchOn) (some rejectRequest) none none,
   row none .completeRequest none (some bypassUntilConnected) none none]

/-! ## Conditions -/

def isFatalErrorCode (c : ErrorCode) : Bool :=
  c == .authRequired || c == .locationUnavailable || c == .certificateVerificationFailed || c == .certificateNotYetValid

/-- The data read as a `VpnError *`. A network state has the code of its value there;
`VPN_NS_CONNECTED` is 0, which is `VPN_EC_NOERROR`. -/
def errorOf : EventData → Option VpnError
  | .error e => some e
  | .network .connected => some noError
  | .network .notConnected => some ⟨.error, ""⟩
  | .null | .request _ => none

def isFatalError : Bool :=
  (errorOf d).any (fun e => isFatalErrorCode e.code) || isFatalErrorCode (v.pendingError.getD noError).code

def nsPerMs : Nat := 1000000

def needToPingOnRecovery : Bool :=
  v.selectedEndpoint.isNone || v.networkChangedBeforeRecovery ||
    decide (v.config.locationUpdatePeriod * nsPerMs ≤ env.now - v.recovery.time.startTs)

def fallIntoRecovery : Bool := v.connectRetryInfo == .fallIntoRecovery

def noConnectAttempts : Bool := v.connectRetryInfo == .severalAttempts 0

def canComplete : Bool :=
  match d with
  | .request r =>
    r.action == some .forceBypass || v.state == .connected || v.state == .connecting ||
      v.state == .disconnected || v.state == .waitingForNetwork || env.shouldCompleteImmediately r.id
  | _ => false

def holds (g : Condition) (a : EventArg) (v : Vpn) : Bool :=
  match g with
  | .isFatalError => isFatalError a.data v
  | .needToPingOnRecovery => v.needToPingOnRecovery a.env
  | .fallIntoRecovery => v.fallIntoRecovery
  | .noConnectAttempts => v.noConnectAttempts
  | .networkLost => a.data == .network .notConnected
  | .connectedOnce => v.connectedOnce
  | .canComplete => canComplete a.data a.env v
  | .isKillSwitchOn => v.killSwitchOn
  | .shouldPostpone => v.postponementWindowTimer

/-! ## Actions -/

def scheduleRecovery (time : RecoveryTime) (v : Vpn) : Vpn :=
  { v with
    recovery := { time := time, attempts := v.recovery.attempts + 1, task := some v.nextTaskId }
    deferred := cancel v.recovery.task (v.deferred ++ [v.nextTaskId])
    nextTaskId := v.nextTaskId + 1 }

/-- `time_to_next`: what is left of the interval after the last attempt. -/
def timeToNext (t : RecoveryTime) : Nat :=
  if t.startTs = 0 then t.betweenAttempts
  else t.betweenAttempts - (env.now - t.attemptStartTs) / nsPerMs

/-- `recovery.time` after an attempt has been scheduled. It is reset when the recovery will have
taken the whole location update period by then. -/
def nextRecoveryTime (c : UpstreamConfig) (t : RecoveryTime) : RecoveryTime :=
  let startTs := if t.startTs = 0 then env.now else t.startTs
  let toNext := timeToNext env t
  if c.locationUpdatePeriod * nsPerMs ≤ env.now + toNext * nsPerMs - startTs then
    { toNext := toNext }
  else
    { startTs := startTs, attemptStartTs := t.attemptStartTs,
      betweenAttempts := c.backoffRate.scale t.betweenAttempts, toNext := toNext }

def exhausted : Bool := decide (v.config.attempts ≤ v.recovery.attempts)

def initiateRecovery : Vpn × List Out :=
  if v.exhausted then (v.submit .recoveryFailed, [])
  else
    -- the postponement window opens when the recovery starts
    (scheduleRecovery (nextRecoveryTime env v.config v.recovery.time)
      { v with
        postponementWindowTimer :=
          v.postponementWindowTimer || decide (v.recovery.time.startTs = 0) },
      [.recoveryScheduled (timeToNext env v.recovery.time)])

@[simp] theorem initiateRecovery_fst : (v.initiateRecovery env).1 = { v with
        postponementWindowTimer :=
          v.postponementWindowTimer || (!v.exhausted && decide (v.recovery.time.startTs = 0))
        recovery :=
          if v.exhausted then v.recovery
          else ⟨nextRecoveryTime env v.config v.recovery.time, v.recovery.attempts + 1, some v.nextTaskId⟩
        deferred :=
          if v.exhausted then v.deferred
          else cancel v.recovery.task (v.deferred ++ [v.nextTaskId])
        nextTaskId := if v.exhausted then v.nextTaskId else v.nextTaskId + 1
        queue := if v.exhausted then v.queue ++ [.recoveryFailed] else v.queue } := by
  unfold initiateRecovery
  split
  · next h => simp [h, submit]
  · next h => simp [h, scheduleRecovery]

@[simp] theorem initiateRecovery_snd : (v.initiateRecovery env).2 =
      if v.exhausted then [] else [.recoveryScheduled (timeToNext env v.recovery.time)] := by
  unfold initiateRecovery
  split <;> rfl

def runClientConnect (timeout : Option Nat) (v : Vpn) : Vpn × List Out :=
  match v.selectedEndpoint with
  | none => (v, [.badOptionalAccess])
  | some s =>
    if env.connectResult.code = .noError then
      ({ v with clientState := .connecting, pendingError := none }, [.clientConnect (clientEndpoint s) timeout])
    else
      ({ v with pendingError := some env.connectResult }.submit .clientDisconnected,
        [.clientConnect (clientEndpoint s) timeout])

@[simp] theorem runClientConnect_fst : (v.runClientConnect env timeout).1 = { v with
        clientState :=
          if v.selectedEndpoint.isSome && decide (env.connectResult.code = .noError) then
            .connecting
          else v.clientState
        pendingError :=
          if v.selectedEndpoint.isNone then v.pendingError
          else if env.connectResult.code = .noError then none else some env.connectResult
        queue :=
          if v.selectedEndpoint.isNone || decide (env.connectResult.code = .noError) then v.queue
          else v.queue ++ [.clientDisconnected] } := by
  unfold runClientConnect
  cases h : v.selectedEndpoint with
  | none =>
    simp only [Option.isSome_none, Option.isNone_none, Bool.false_and, Bool.true_or, if_true,
      Bool.false_eq_true, if_false]
    rw [← h]
  | some s =>
    by_cases hok : env.connectResult.code = .noError
    · simp [hok]
    · simp [hok, submit]

@[simp] theorem runClientConnect_snd :
    (v.runClientConnect env timeout).2 = v.selectedEndpoint.elim [.badOptionalAccess] fun s =>
        [.clientConnect (clientEndpoint s) timeout] := by
  unfold runClientConnect
  cases v.selectedEndpoint with
  | none => rfl
  | some s => simp [apply_ite Prod.snd]

/-- The end of `run_ping`: a recovery task that is still pending is cancelled, and the attempt it
stands for starts now. -/
def cancelRecoveryTask : Vpn :=
  { v with
    recovery := { v.recovery with
      task := none
      time := { v.recovery.time with
        attemptStartTs :=
          if v.recovery.task.isSome then env.now else v.recovery.time.attemptStartTs } }
    deferred := cancel v.recovery.task v.deferred }

def relayParallel : Option VpnRelay :=
  if v.recovery.time.startTs = 0 then none else v.selectedEndpoint.bind (·.relay)

/-- `run_ping`. The new pinger starts from a deferred task, which the loop runs after the tasks
that are queued by then. -/
def runPing : Vpn × List Out :=
  (cancelRecoveryTask env
    { v.stopPinging with
      pinger := some v.queue.length, pendingError := none, selectedEndpoint := none },
    [.pingStarted v.config.endpoints v.relayParallel])

@[simp] theorem runPing_fst : (v.runPing env).1 = { v with
        pinger := some v.queue.length
        pingFailureInducesLocationUnavailable := false
        pendingError := none
        selectedEndpoint := none
        recovery := (cancelRecoveryTask env v).recovery
        deferred := cancel v.recovery.task v.deferred } :=
  rfl

@[simp] theorem runPing_snd : (v.runPing env).2 = [.pingStarted v.config.endpoints v.relayParallel] :=
  rfl

/-- The error of the data that `complete_connect` and `prepare_for_recovery` take over. -/
def newError : Option VpnError :=
  if v.pendingError.isSome then none else (errorOf d).filter fun e => e.code ≠ .noError

def noAttemptsError : VpnError :=
  ⟨.initialConnectFailed, "Number of connection attempts exceeded"⟩

/-- The first part of `complete_connect`: an error that came with the event ends the connection. -/
def takeError : Vpn × List Out :=
  match newError d v with
  | none => (v, [])
  | some e => andDo v.disconnect fun v => ({ v with pendingError := some e }, [])

@[simp] theorem takeError_fst : (takeError d v).1 = { v with
        pinger := if (newError d v).isSome then none else v.pinger
        pingFailureInducesLocationUnavailable :=
          if (newError d v).isSome then false else v.pingFailureInducesLocationUnavailable
        clientState := if (newError d v).isSome then .disconnected else v.clientState
        pendingError := (newError d v).or v.pendingError } := by
  unfold takeError
  split
  · next h => simp [h]
  · next e h => simp [h]

@[simp] theorem takeError_snd : (takeError d v).2 =
      if (newError d v).isSome ∧ v.clientState ≠ .disconnected then [.clientDisconnect] else [] := by
  unfold takeError
  split
  · next h => simp [h]
  · next e h => simp [h]

/-- The error `complete_connect` leaves: running out of attempts is reported as such, unless it is a
fatal error that ended the connection. -/
def completeError : Option VpnError :=
  if v.pendingError.isSome && !isFatalError d v && v.noConnectAttempts then some noAttemptsError
  else v.pendingError

def completeConnect : Vpn × List Out :=
  andDo (takeError d v) fun v =>
    ({ v.resetRecovery with pendingError := completeError d v },
      if (completeError d v).isSome then [] else [.healthCheck])

@[simp] theorem completeConnect_fst : (v.completeConnect d).1 = { v with
        pinger := if (newError d v).isSome then none else v.pinger
        pingFailureInducesLocationUnavailable :=
          if (newError d v).isSome then false else v.pingFailureInducesLocationUnavailable
        clientState := if (newError d v).isSome then .disconnected else v.clientState
        pendingError := completeError d (takeError d v).1
        recovery := {}
        deferred := cancel v.recovery.task v.deferred } := by
  simp [completeConnect, andDo_fst, resetRecovery, takeError_fst]

@[simp] theorem completeConnect_snd : (v.completeConnect d).2 = (takeError d v).2 ++
      if (completeError d (takeError d v).1).isSome then [] else [.healthCheck] :=
  rfl

@[simp] def failConnectWithNoAttempts : Vpn × List Out :=
  completeConnect (.error noAttemptsError) v

def decrement (n : Nat) : Nat := (n + 18446744073709551615) % 18446744073709551616

/-- One more attempt is counted, where attempts are counted. -/
def countAttempt : ConnectRetryInfo → ConnectRetryInfo
  | .severalAttempts n => .severalAttempts (decrement n)
  | .fallIntoRecovery => .fallIntoRecovery

def retryConnect : Vpn × List Out :=
  let asserted : List Out :=
    match v.connectRetryInfo with
    | .severalAttempts _ => []
    | .fallIntoRecovery => [.assertFailed .retryPolicy]
  andDo (andDo ({ v with connectRetryInfo := countAttempt v.connectRetryInfo }, asserted) disconnect)
    fun v => (v.submit .retryConnect, [])

@[simp] theorem retryConnect_fst : v.retryConnect.1 = { v with
        connectRetryInfo := countAttempt v.connectRetryInfo
        pinger := none
        pingFailureInducesLocationUnavailable := false
        clientState := .disconnected
        queue := v.queue ++ [.retryConnect] } := by
  simp [retryConnect, andDo_fst, disconnect_fst, submit]

@[simp] theorem retryConnect_snd : v.retryConnect.2 =
      (if v.connectRetryInfo = .fallIntoRecovery then [.assertFailed .retryPolicy] else []) ++ v.disconnect.2 := by
  unfold retryConnect
  cases v.connectRetryInfo <;> simp

def prepareForRecovery : Vpn × List Out :=
  andDo (andDo v.disconnect (initiateRecovery env)) fun v =>
    ({ v with pendingError := (newError d v).or v.pendingError }, [])

@[simp] theorem prepareForRecovery_fst : (v.prepareForRecovery d env).1 = { (v.initiateRecovery env).1 with
        pinger := none
        pingFailureInducesLocationUnavailable := false
        clientState := .disconnected
        pendingError := (newError d v).or v.pendingError } := by
  simp only [prepareForRecovery, andDo_fst, disconnect_fst, initiateRecovery_fst]
  rfl

@[simp] theorem prepareForRecovery_snd :
    (v.prepareForRecovery d env).2 = v.disconnect.2 ++ (v.initiateRecovery env).2 := by
  simp [prepareForRecovery, exhausted]

@[simp] def prepareForRecoveryNc : Vpn × List Out :=
  prepareForRecovery .null env v

def reconnectClient : Vpn × List Out :=
  andDo v.disconnectClient fun v =>
    runClientConnect env (some (min v.recovery.time.betweenAttempts v.config.timeout)) v

@[simp] theorem reconnectClient_fst :
    (v.reconnectClient env).1 = (runClientConnect env none { v with clientState := .disconnected }).1 := by
  simp [reconnectClient]

@[simp] theorem reconnectClient_snd : (v.reconnectClient env).2 = v.disconnect.2 ++ (v.runClientConnect env
        (some (min v.recovery.time.betweenAttempts v.config.timeout))).2 := by
  simp [reconnectClient]

def finalizeRecovery : Vpn × List Out :=
  andDo (completePostponedRequests { v.resetRecovery.stopPinging with postponementWindowTimer := false })
    resetBypassedConnections

@[simp] theorem finalizeRecovery_fst : v.finalizeRecovery.1 = { v with
        recovery := {}
        deferred := cancel v.recovery.task v.deferred
        pinger := none
        pingFailureInducesLocationUnavailable := false
        postponementWindowTimer := false
        postponedRequests := []
        bypassedConnectionIds := [] } :=
  rfl

@[simp] theorem finalizeRecovery_snd :
    v.finalizeRecovery.2 = (v.postponedRequests.map fun r => .completed r.id r.action) ++
      v.bypassedConnectionIds.map .resetConnection :=
  rfl

def doDisconnect : Vpn × List Out := v.resetRecovery.disconnect

@[simp] theorem doDisconnect_fst : v.doDisconnect.1 = { v with
        recovery := {}
        deferred := cancel v.recovery.task v.deferred
        pinger := none
        pingFailureInducesLocationUnavailable := false
        clientState := .disconnected } :=
  disconnect_fst _

@[simp] theorem doDisconnect_snd : v.doDisconnect.2 = v.disconnect.2 := by
  simp [doDisconnect, resetRecovery]

def startListening : Vpn × List Out :=
  if env.listenResult.code = .noError then (v, [])
  else (v.submit (.listenFailed env.listenResult), [])

@[simp] theorem startListening_fst : (v.startListening env).1 = { v with
        queue :=
          if env.listenResult.code = .noError then v.queue
          else v.queue ++ [.listenFailed env.listenResult] } := by
  unfold startListening
  split
  · simp
  · simp [submit]

@[simp] theorem startListening_snd : (v.startListening env).2 = [] := by
  unfold startListening
  split <;> rfl

def onWrongConnectState : Vpn × List Out :=
  andDo v.disconnect fun v =>
    ({ v with pendingError := some ⟨.invalidState, "Invalid state for connecting"⟩ }, [])

@[simp] theorem onWrongConnectState_fst : v.onWrongConnectState.1 = { v with
        pinger := none
        pingFailureInducesLocationUnavailable := false
        clientState := .disconnected
        pendingError := some ⟨.invalidState, "Invalid state for connecting"⟩ } := by
  simp [onWrongConnectState]

@[simp] theorem onWrongConnectState_snd : v.onWrongConnectState.2 = v.disconnect.2 := by
  simp [onWrongConnectState]

def raiseState : Vpn × List Out :=
  let error := v.pendingError.getD noError
  match v.state with
  | .waitingRecovery =>
    ({ v with pendingError := none },
      [.stateChanged v.config.locationId v.state (.waitingRecovery error v.recovery.time.toNext)])
  | .connected =>
    ({ v with connectedOnce := true }, match v.selectedEndpoint with
      | none => [.badOptionalAccess]
      | some s => [.stateChanged v.config.locationId v.state (.connected s)])
  | .disconnected | .connecting | .recovering =>
    ({ v with networkChangedBeforeRecovery := false, pendingError := none },
      [.stateChanged v.config.locationId v.state (.error error)])
  | .waitingForNetwork =>
    ({ v with pendingError := none }, [.stateChanged v.config.locationId v.state (.error error)])

@[simp] theorem raiseState_fst : v.raiseState.1 = { v with
        pendingError := if v.state = .connected then v.pendingError else none
        connectedOnce := v.connectedOnce || decide (v.state = .connected)
        networkChangedBeforeRecovery :=
          if v.state = .disconnected ∨ v.state = .connecting ∨ v.state = .recovering then false
          else v.networkChangedBeforeRecovery } := by
  unfold raiseState
  cases v.state <;> simp

def stateInfo : Option StateInfo :=
  match v.state with
  | .waitingRecovery =>
    some (.waitingRecovery (v.pendingError.getD noError) v.recovery.time.toNext)
  | .connected => v.selectedEndpoint.map .connected
  | .disconnected | .connecting | .recovering | .waitingForNetwork =>
    some (.error (v.pendingError.getD noError))

@[simp] theorem raiseState_snd : v.raiseState.2 = v.stateInfo.elim [.badOptionalAccess] fun i =>
      [.stateChanged v.config.locationId v.state i] := by
  unfold raiseState stateInfo
  cases v.state with
  | connected => cases v.selectedEndpoint <;> rfl
  | _ => rfl

def completeRequest (r : ConnectRequestResult) (v : Vpn) : Vpn × List Out :=
  (v, [.completed r.id r.action])

def postponeRequest (r : ConnectRequestResult) (v : Vpn) : Vpn × List Out :=
  ({ v with postponedRequests := v.postponedRequests ++ [r] }, [])

def rejectRequest (r : ConnectRequestResult) (v : Vpn) : Vpn × List Out := (v, [.rejected r.id])

def bypassUntilConnected (r : ConnectRequestResult) (v : Vpn) : Vpn × List Out :=
  ({ v with bypassedConnectionIds := v.bypassedConnectionIds ++ [r.id] }, [.completed r.id (some .forceBypass)])

def onRequest (f : ConnectRequestResult → Vpn → Vpn × List Out) (d : EventData) (v : Vpn) : Vpn × List Out :=
  match d with
  | .request r => f r v
  | _ => (v, [])

def requestsOf : EventData → List ConnectRequestResult
  | .request r => [r]
  | _ => []

@[simp] theorem onRequest_completeRequest :
    onRequest completeRequest d v = (v, (requestsOf d).map fun r => .completed r.id r.action) := by
  cases d <;> rfl

@[simp] theorem onRequest_postponeRequest :
    onRequest postponeRequest d v = ({ v with postponedRequests := v.postponedRequests ++ requestsOf d }, []) := by
  cases d <;> simp [onRequest, postponeRequest, requestsOf]

@[simp] theorem onRequest_rejectRequest :
    onRequest rejectRequest d v = (v, (requestsOf d).map fun r => .rejected r.id) := by
  cases d <;> rfl

@[simp] theorem onRequest_bypassUntilConnected : onRequest bypassUntilConnected d v = ({ v with
          bypassedConnectionIds := v.bypassedConnectionIds ++ (requestsOf d).map (·.id) },
        (requestsOf d).map fun r => .completed r.id (some .forceBypass)) := by
  cases d <;> simp [onRequest, bypassUntilConnected, requestsOf]

def run (act : Action) (a : EventArg) (v : Vpn) : Vpn × List Out :=
  match act with
  | .runPing => v.runPing a.env
  | .connectClient => v.runClientConnect a.env none
  | .completeConnect => v.completeConnect a.data
  | .failConnectWithNoAttempts => v.failConnectWithNoAttempts
  | .retryConnect => v.retryConnect
  | .prepareForRecovery => v.prepareForRecovery a.data a.env
  | .prepareForRecoveryNc => v.prepareForRecoveryNc a.env
  | .reconnectClient => v.reconnectClient a.env
  | .finalizeRecovery => v.finalizeRecovery
  | .doDisconnect => v.doDisconnect
  | .startListening => v.startListening a.env
  | .onWrongConnectState => v.onWrongConnectState
  | .onWrongListenState => (v, [])
  | .raiseState => v.raiseState
  | .completeRequest => onRequest completeRequest a.data v
  | .postponeRequest => onRequest postponeRequest a.data v
  | .rejectRequest => onRequest rejectRequest a.data v
  | .bypassUntilConnected => onRequest bypassUntilConnected a.data v

/-! ## The machine -/

def machine : Machine VpnSessionState ConnectEvent Condition Action Vpn EventArg Out where
  table := transitionTable
  state := Vpn.state
  setState := fun q v => { v with state := q }
  holds := holds
  run := run

def performTransition (e : ConnectEvent) (a : EventArg) (v : Vpn) : Vpn × List Out :=
  machine.perform e a v

end Vpn

end TrustTunnel
