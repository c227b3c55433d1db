import TrustTunnel.Vpn.Session

/-!
# Vpn.Step

What one event and one call of the session system can do.
-/

namespace TrustTunnel

open Lib List

/-- The tasks submitted by functions of `vpn.h` other than `vpn_connect` and `vpn_stop`. -/
def Task.isRequest : Task → Bool
  | .forceReconnect | .forceDisconnect _ | .listen | .completeConnectRequest _
  | .notifyNetworkChange _ | .abandonEndpoint _ => true
  | _ => false

def Task.isInternal : Task → Bool
  | .retryConnect | .clientDisconnected | .recoveryFailed | .listenFailed _ => true
  | _ => false

def Task.isConnect : Task → Bool
  | .connect _ _ => true
  | _ => false

inductive OutKind where
  | stateChanged
  | ping
  | recovery
  | clientConnect
  | clientDisconnect
  | healthCheck
  | request
  | reset
  | returned
  | assertion
  | optional
  deriving DecidableEq

def Out.kind : Out → OutKind
  | .stateChanged _ _ _ => .stateChanged
  | .pingStarted _ _ => .ping
  | .recoveryScheduled _ => .recovery
  | .clientConnect _ _ => .clientConnect
  | .clientDisconnect => .clientDisconnect
  | .healthCheck => .healthCheck
  | .completed _ _ => .request
  | .rejected _ => .request
  | .resetConnection _ => .reset
  | .connectReturned _ => .returned
  | .assertFailed _ => .assertion
  | .badOptionalAccess => .optional

def Action.kinds : Action → List OutKind
  | .runPing => [.ping]
  | .connectClient => [.clientConnect, .optional]
  | .completeConnect | .failConnectWithNoAttempts => [.clientDisconnect, .healthCheck]
  | .retryConnect => [.assertion, .clientDisconnect]
  | .prepareForRecovery | .prepareForRecoveryNc => [.clientDisconnect, .recovery]
  | .reconnectClient => [.clientDisconnect, .clientConnect, .optional]
  | .finalizeRecovery => [.request, .reset]
  | .doDisconnect | .onWrongConnectState => [.clientDisconnect]
  | .startListening | .onWrongListenState | .postponeRequest => []
  | .raiseState => [.stateChanged, .optional]
  | .completeRequest | .rejectRequest | .bypassUntilConnected => [.request]

/-- The events that reports of the pinger, the client and the timers raise. -/
def ConnectEvent.isReport : ConnectEvent → Bool
  | .pingReady | .pingFail | .clientReady | .clientDisconnected | .doRecovery => true
  | _ => false

theorem Task.not_connect_of_request {t : Task} (h : t.isRequest = true) : t.isConnect = false := by
  cases t <;> simp_all [isRequest, isConnect]

theorem Task.not_internal_of_request {t : Task} (h : t.isRequest = true) : t.isInternal = false := by
  cases t <;> simp_all [isRequest, isInternal]

theorem ConnectEvent.of_report {e : ConnectEvent} (h : e.isReport = true) :
    e ≠ .doConnect ∧ e ≠ .retryConnect ∧ e ≠ .abandonEndpoint ∧ e ≠ .networkChange ∧
      e ≠ .completeRequest := by
  cases e <;> simp_all [isReport]

theorem Task.not_connect_of_internal {t : Task} (h : t.isInternal = true) : t.isConnect = false := by
  cases t <;> simp_all [isInternal, isConnect]

variable {c : Call} {i : Intake} (act : Action)

theorem Call.ne_stopped (h : c.isStopped = false) : c ≠ .stopped := by
  rintro rfl
  cases h

namespace Vpn

/-! ## Rows -/

abbrev runBefore (r : Row VpnSessionState ConnectEvent Condition Action) (a : EventArg) (v : Vpn) : Vpn × List Out :=
  machine.runOpt r.before a v

variable {r : Row VpnSessionState ConnectEvent Condition Action} {e : ConnectEvent} {a : EventArg} {v : Vpn}
  {α : Type} {t : Task}

theorem runBefore_none (hb : r.before = none) (a : EventArg) (v : Vpn) : runBefore r a v = (v, []) := by
  rw [runBefore, hb, Machine.runOpt_none]

theorem runBefore_some {act : Action} (hb : r.before = some act) (a : EventArg) (v : Vpn) :
    runBefore r a v = run act a v := by
  rw [runBefore, hb]
  rfl

def enter (q : VpnSessionState) (v : Vpn) : Vpn × List Out := raiseState { v with state := q }

theorem after_eq : ∀ r ∈ transitionTable, r.after = if r.target.isSome then some Action.raiseState else none := by
  decide

theorem take_stay (hr : r ∈ transitionTable) (ht : r.target = none) (a : EventArg) (v : Vpn) :
    machine.take r a v = runBefore r a v := by
  have hafter := after_eq r hr
  simp [Machine.take, Machine.moveTo, ht, hafter, andDo]

theorem take_move (hr : r ∈ transitionTable) {q : VpnSessionState} (ht : r.target = some q) (a : EventArg)
    (v : Vpn) : machine.take r a v = andDo (runBefore r a v) (enter q) := by
  have hafter := after_eq r hr
  simp only [Machine.take, ht, hafter]
  rfl

theorem perform_cases (e : ConnectEvent) (a : EventArg) (v : Vpn) :
    (performTransition e a v = (v, []) ∧ ¬∃ r, machine.Taken r e a v) ∨
      ∃ r, machine.Taken r e a v ∧ r ∈ transitionTable ∧
        ((r.target = none ∧ performTransition e a v = runBefore r a v) ∨
          ∃ q, r.target = some q ∧ performTransition e a v = andDo (runBefore r a v) (enter q)) := by
  rcases machine.perform_cases e a v with h | ⟨r, hr⟩
  · exact .inl h
  refine .inr ⟨r, hr, hr.mem, ?_⟩
  cases ht : r.target with
  | none => exact .inl ⟨rfl, hr.perform_eq.trans (take_stay hr.mem ht a v)⟩
  | some q => exact .inr ⟨q, rfl, hr.perform_eq.trans (take_move hr.mem ht a v)⟩

@[simp] theorem enter_fst (q : VpnSessionState) (v : Vpn) : (enter q v).1 = { v with
        state := q
        pendingError := if q = .connected then v.pendingError else none
        connectedOnce := v.connectedOnce || decide (q = .connected)
        networkChangedBeforeRecovery :=
          if q = .disconnected ∨ q = .connecting ∨ q = .recovering then false
          else v.networkChangedBeforeRecovery } := by
  simp [enter]

/-- What holds if nothing is done, after the action of any row that can be taken, and still after a state is
entered, holds after the event. -/
theorem perform_spec {Q : Vpn × List Out → Prop} (h : Q (v, []))
    (hrun : ∀ r act, machine.Taken r e a v → r ∈ transitionTable → r.before = some act → Q (run act a v))
    (henter : ∀ q w, Q w → Q (andDo w (enter q))) : Q (performTransition e a v) := by
  have hbefore : ∀ r, machine.Taken r e a v → r ∈ transitionTable → Q (runBefore r a v) := by
    intro r hr hmem
    cases hb : r.before with
    | none =>
      rw [runBefore_none hb]
      exact h
    | some act =>
      rw [runBefore_some hb]
      exact hrun r act hr hmem hb
  rcases perform_cases e a v with ⟨hno, -⟩ | ⟨r, hr, hmem, ⟨-, hstay⟩ | ⟨q, -, hmove⟩⟩
  · rw [hno]
    exact h
  · rw [hstay]
    exact hbefore r hr hmem
  · rw [hmove]
    exact henter q _ (hbefore r hr hmem)

theorem perform_inv {P : Vpn → Prop} (h : P v)
    (hrun : ∀ r act, machine.Taken r e a v → r ∈ transitionTable → r.before = some act → P (run act a v).1)
    (henter : ∀ q w, P w → P (enter q w).1) : P (performTransition e a v).1 :=
  perform_spec h hrun fun q w hw => henter q w.1 hw

theorem perform_keeps (f : Vpn → α) (e : ConnectEvent) (a : EventArg) (v : Vpn)
    (hrun : ∀ act v, f (run act a v).1 = f v) (henter : ∀ q v, f (enter q v).1 = f v) :
    f (performTransition e a v).1 = f v :=
  perform_inv (P := fun w => f w = f v) rfl (fun _ act _ _ _ => hrun act v) fun q w hw => (henter q w).trans hw

section

variable (e : ConnectEvent) (a : EventArg) (v : Vpn)

theorem perform_loop : (performTransition e a v).1.loop = v.loop :=
  perform_keeps Vpn.loop e a v (fun act v => by cases act <;> simp [run]) fun q v => by simp

theorem perform_config : (performTransition e a v).1.config = v.config :=
  perform_keeps Vpn.config e a v (fun act v => by cases act <;> simp [run]) fun q v => by simp

theorem perform_killSwitchOn : (performTransition e a v).1.killSwitchOn = v.killSwitchOn :=
  perform_keeps Vpn.killSwitchOn e a v (fun act v => by cases act <;> simp [run]) fun q v => by simp

end

theorem run_state (a : EventArg) (v : Vpn) : (run act a v).1.state = v.state := by
  cases act <;> simp [run]

theorem runBefore_state (r : Row VpnSessionState ConnectEvent Condition Action) (a : EventArg)
    (v : Vpn) : (runBefore r a v).1.state = v.state := by
  cases hr : r.before with
  | none => rw [runBefore_none hr]
  | some act =>
    rw [runBefore_some hr]
    exact run_state act a v

theorem into_connected : ∀ r ∈ transitionTable, r.target = some .connected →
    (r.source = some .connecting ∧ r.before = some .completeConnect) ∨
      (r.source = some .recovering ∧ r.before = some .finalizeRecovery) := by
  decide

def addedTasks (act : Action) (a : EventArg) (v : Vpn) : List Task :=
  match act with
  | .connectClient | .reconnectClient =>
    if v.selectedEndpoint.isNone || decide (a.env.connectResult.code = .noError) then []
    else [.clientDisconnected]
  | .prepareForRecovery | .prepareForRecoveryNc => if v.exhausted then [.recoveryFailed] else []
  | .retryConnect => [.retryConnect]
  | .startListening =>
    if a.env.listenResult.code = .noError then [] else [.listenFailed a.env.listenResult]
  | _ => []

theorem run_queue (a : EventArg) (v : Vpn) : (run act a v).1.queue = v.queue ++ addedTasks act a v := by
  cases act with
  | connectClient =>
    simp only [run, runClientConnect_fst, addedTasks]
    split <;> simp
  | reconnectClient =>
    simp only [run, reconnectClient_fst, runClientConnect_fst, addedTasks]
    split <;> simp
  | prepareForRecovery =>
    simp only [run, prepareForRecovery_fst, initiateRecovery_fst, addedTasks]
    split <;> simp
  | prepareForRecoveryNc =>
    simp only [run, prepareForRecoveryNc, prepareForRecovery_fst, initiateRecovery_fst, addedTasks]
    split <;> simp
  | startListening =>
    simp only [run, startListening_fst, addedTasks]
    split <;> simp
  | _ => simp [run, addedTasks]

theorem addedTasks_internal (a : EventArg) (v : Vpn) : ∀ t ∈ addedTasks act a v, t.isInternal = true := by
  intro t ht
  unfold addedTasks at ht
  split at ht <;> try split at ht
  all_goals simp_all [Task.isInternal]

theorem perform_queue (e : ConnectEvent) (a : EventArg) (v : Vpn) :
    ∃ added, (performTransition e a v).1.queue = v.queue ++ added ∧ ∀ t ∈ added, t.isInternal = true := by
  refine perform_inv (P := fun w => ∃ added, w.queue = v.queue ++ added ∧ ∀ t ∈ added, t.isInternal = true)
    ⟨[], by simp, by simp⟩ ?_ ?_
  · intro r act _ _ _
    exact ⟨_, run_queue act a v, addedTasks_internal act a v⟩
  · intro q w hw
    rw [enter_fst]
    exact hw

attribute [local simp] Out.kind Action.kinds

theorem run_kinds (a : EventArg) (v : Vpn) : ∀ o ∈ (run act a v).2, o.kind ∈ act.kinds := by
  intro o ho
  cases act with
  | connectClient =>
    simp only [run] at ho
    cases hs : v.selectedEndpoint <;> simp_all
  | reconnectClient =>
    simp only [run, reconnectClient_snd, mem_append] at ho
    cases hs : v.selectedEndpoint <;> rcases ho with ho | ho <;>
      simp_all
  | raiseState =>
    simp only [run] at ho
    cases hs : v.stateInfo <;> simp_all
  | completeConnect =>
    simp only [run, completeConnect_snd, mem_append] at ho
    rcases ho with ho | ho <;> simp_all
  | failConnectWithNoAttempts =>
    simp only [run, failConnectWithNoAttempts, completeConnect_snd, mem_append] at ho
    rcases ho with ho | ho <;> simp_all
  | retryConnect =>
    simp only [run, retryConnect_snd, mem_append] at ho
    rcases ho with ho | ho <;> simp_all
  | prepareForRecovery =>
    simp only [run, prepareForRecovery_snd, mem_append] at ho
    rcases ho with ho | ho <;> simp_all
  | prepareForRecoveryNc =>
    simp only [run, prepareForRecoveryNc, prepareForRecovery_snd, mem_append] at ho
    rcases ho with ho | ho <;> simp_all
  | finalizeRecovery =>
    simp only [run, finalizeRecovery_snd, mem_append, mem_map] at ho
    rcases ho with ⟨r, -, rfl⟩ | ⟨i, -, rfl⟩ <;> simp
  | completeRequest =>
    simp only [run, onRequest_completeRequest, mem_map] at ho
    obtain ⟨r, -, rfl⟩ := ho
    simp
  | rejectRequest =>
    simp only [run, onRequest_rejectRequest, mem_map] at ho
    obtain ⟨r, -, rfl⟩ := ho
    simp
  | bypassUntilConnected =>
    simp only [run, onRequest_bypassUntilConnected, mem_map] at ho
    obtain ⟨r, -, rfl⟩ := ho
    simp
  | _ => simp_all [run]

theorem enter_kinds (q : VpnSessionState) (v : Vpn) :
    ∀ o ∈ (enter q v).2, o.kind = .stateChanged ∨ o.kind = .optional := by
  intro o ho
  simp only [enter] at ho
  cases hs : stateInfo { v with state := q } <;> simp_all

/-! ## Calls -/

inductive TakenIn (v : Vpn) : Call → Intake → Prop where
  | nothing (c : Call) (hc : v.taskOf c = none) : TakenIn v c { vpn := v }
  | refused (p : ConnectParameters) (e : VpnError) :
    TakenIn v (.connect p) { vpn := v, outs := [.connectReturned e] }
  | submit (c : Call) (hc : v.taskOf c = none) (t : Task) (ht : t.isRequest = true)
    (hl : v.loop ≠ .idle) : TakenIn v c { vpn := v.submit t }
  | connect (p : ConnectParameters) (hl : v.loop.runs = false) :
    TakenIn v (.connect p)
      { vpn := { v with loop := .running }.submit (.connect p.upstreamConfig (retryInfoOf p.retryPolicy))
        outs := [.connectReturned noError] }
  | stop (hl : v.loop = .running) :
    TakenIn v .stop { vpn := { v with loop := .stopping }.submit .shutdown }
  | unstarted (hl : v.loop = .created) : TakenIn v .stop { vpn := v.reset }
  | stopped (hl : v.loop = .stopping) : TakenIn v .stopped { vpn := v.reset }
  | task (t : Task) (rest : List Task) (env : Env) (hq : v.queue = t :: rest)
    (hl : v.loop.runs = true) :
    TakenIn v (.runTask env) ((v.pop rest).runTask env t)
  | pinger (r : PingerResult) (env : Env) (hp : v.pinger = some 0) :
    TakenIn v (.pingerResult r env) (v.pingerHandler r env)
  | clientConnected (env : Env) (hc : v.clientState = .connecting) :
    TakenIn v (.clientConnected env) (raises { v with clientState := .connected } .clientReady .null env)
  | clientDisconnected (error : Option VpnError) (env : Env) (hl : v.loop.runs = true) :
    TakenIn v (.clientDisconnected error env) (v.clientDisconnected error env)
  | recoveryTask (env : Env) (i : Nat) (rest : List Nat) (hd : v.deferred = i :: rest) :
    TakenIn v (.recoveryTask env) (v.recoveryTask env)
  | postponementTimer (ht : v.postponementWindowTimer = true) :
    TakenIn v .postponementTimer { vpn := v.postponementWindowTimerCb.1, outs := v.postponementWindowTimerCb.2 }

section

variable (v : Vpn)

theorem takenIn_submitted {c : Call} (hc : v.taskOf c = none) (ht : t.isRequest = true) :
    TakenIn v c (v.submitted t) := by
  unfold submitted
  split
  · next hl => exact .submit c hc t ht (by simp [hl])
  · next hl => exact .submit c hc t ht (by simp [hl])
  · exact .nothing c hc
  · exact .nothing c hc

theorem takenIn_connect (p : ConnectParameters) : TakenIn v (.connect p) (v.connect p) := by
  unfold connect
  split
  · exact .nothing _ rfl
  next hstopping =>
  split
  · exact .refused p _
  split
  · exact .refused p _
  next hrunning =>
  refine .connect p ?_
  cases hl : v.loop with
  | created | idle => rfl
  | running => exact absurd hl hrunning
  | stopping => exact absurd hl hstopping

theorem takenIn_intake (c : Call) : TakenIn v c (v.intake c) := by
  cases c with
  | connect p => exact takenIn_connect v p
  | forceReconnect | forceDisconnect fatal | completeConnectRequest r
  | notifyNetworkChange s | abandonEndpoint e => exact takenIn_submitted v rfl rfl
  | listen =>
    show TakenIn v .listen v.listen
    unfold listen
    split
    · exact takenIn_submitted v rfl rfl
    · exact .nothing _ rfl
  | stop =>
    show TakenIn v .stop v.stop
    unfold stop
    split
    · next hl => exact .stop hl
    · next hl => exact .unstarted hl
    · exact .nothing _ rfl
    · exact .nothing _ rfl
  | stopped =>
    show TakenIn v .stopped v.stopped
    unfold stopped
    split
    · next hl => exact .stopped hl
    · exact .nothing _ rfl
  | runTask env =>
    cases hq : v.queue with
    | nil =>
      simp only [intake, hq]
      exact .nothing _ (by simp [taskOf, hq])
    | cons t rest =>
      simp only [intake, hq]
      split
      · next hl => exact .task t rest env hq hl
      · next hl => exact .nothing _ (by simp [taskOf, hl])
  | pingerResult r env =>
    show TakenIn v (.pingerResult r env) (if v.pinger = some 0 then v.pingerHandler r env else v.ignored)
    split
    · next hp => exact .pinger r env hp
    · exact .nothing _ rfl
  | clientConnected env =>
    show TakenIn v (.clientConnected env) (if v.clientState = .connecting then _ else v.ignored)
    split
    · next hc => exact .clientConnected env hc
    · exact .nothing _ rfl
  | clientDisconnected error env =>
    show TakenIn v (.clientDisconnected error env) (if v.loop.runs then v.clientDisconnected error env else v.ignored)
    split
    · next hl => exact .clientDisconnected error env hl
    · exact .nothing _ rfl
  | recoveryTask env =>
    show TakenIn v (.recoveryTask env) (v.recoveryTask env)
    cases hd : v.deferred with
    | nil =>
      simp only [recoveryTask, hd]
      exact .nothing _ rfl
    | cons i rest => exact .recoveryTask env i rest hd
  | postponementTimer =>
    show TakenIn v .postponementTimer (if v.postponementWindowTimer then _ else v.ignored)
    split
    · next ht => exact .postponementTimer ht
    · exact .nothing _ rfl

theorem abandonEndpoint_outs (e : VpnEndpoint) (env : Env) : (v.abandonEndpoint e env).outs = [] := by
  unfold abandonEndpoint
  dsimp only
  split
  · rfl
  next hleft =>
  split
  · refine if_neg fun hnil => hleft ?_
    rw [hnil]
    rfl
  · rfl

theorem abandonEndpoint_raises (e : VpnEndpoint) (env : Env) : ((v.abandonEndpoint e env).event = none →
      (v.abandonEndpoint e env).vpn.selectedEndpoint = v.selectedEndpoint) ∧
    ∀ ev a, (v.abandonEndpoint e env).event = some (ev, a) → ev = .abandonEndpoint := by
  unfold abandonEndpoint
  dsimp only
  split
  · simp [raises]
  · split
    · next hsel => simp_all
    · simp [raises]

theorem runTask_outs (env : Env) (t : Task) : (v.runTask env t).outs = [] := by
  cases t with
  | abandonEndpoint e => exact abandonEndpoint_outs v e env
  | _ => rfl

theorem pingerHandler_outs (r : PingerResult) (env : Env) : (v.pingerHandler r env).outs =
      if v.selectedEndpoint.isSome then [.assertFailed .noSelectedEndpoint] else [] := by
  unfold pingerHandler
  dsimp only
  split
  · rfl
  · split <;> rfl

theorem timer_kinds : ∀ o ∈ v.postponementWindowTimerCb.2, o.kind = .request := by
  intro o ho
  rw [postponementWindowTimerCb_snd, mem_map] at ho
  obtain ⟨r, -, rfl⟩ := ho
  split <;> rfl

end

theorem intake_kinds (h : TakenIn v c i) :
    ∀ o ∈ i.outs, o.kind = .returned ∨ o.kind = .assertion ∨ o.kind = .request := by
  intro o ho
  cases h with
  | task t rest env hq hl =>
    rw [runTask_outs] at ho
    cases ho
  | pinger r env hp =>
    rw [pingerHandler_outs] at ho
    split at ho <;> simp_all
  | recoveryTask env i rest hd => simp [recoveryTask, hd, raises] at ho
  | postponementTimer ht => exact .inr (.inr (timer_kinds v o ho))
  | _ => simp_all [raises, clientDisconnected]

theorem finish_raises (v : Vpn) (e : ConnectEvent) (d : EventData) (env : Env) :
    finish (raises v e d env) = performTransition e ⟨d, env⟩ v := by
  simp [finish, raises, andDo]

theorem finish_inv {P : Vpn → Prop} {i : Intake} (hnone : i.event = none → P i.vpn)
    (hsome : ∀ e a, i.event = some (e, a) → P (performTransition e a i.vpn).1) : P (finish i).1 := by
  unfold finish
  split
  · next h => exact hnone h
  · next e a h => exact hsome e a h

theorem finish_loop (i : Intake) : (finish i).1.loop = i.vpn.loop := by
  refine finish_inv (P := fun w => w.loop = i.vpn.loop) (fun _ => rfl) fun e a _ => ?_
  exact perform_loop e a i.vpn

theorem finish_queue (i : Intake) : ∃ added, (finish i).1.queue = i.vpn.queue ++ added ∧
    ∀ t ∈ added, t.isInternal = true := by
  unfold finish
  split
  · exact ⟨[], by simp, by simp⟩
  · exact perform_queue _ _ _

/-- The client with what a task may change taken from `w`. -/
def working (v w : Vpn) : Vpn :=
  { v with
    selectedEndpoint := w.selectedEndpoint
    config := w.config
    pendingError := w.pendingError
    pingFailureInducesLocationUnavailable := w.pingFailureInducesLocationUnavailable
    recovery := w.recovery
    deferred := w.deferred
    networkChangedBeforeRecovery := w.networkChangedBeforeRecovery
    connectRetryInfo := w.connectRetryInfo }

theorem abandonEndpoint_vpn (v : Vpn) (e : VpnEndpoint) (env : Env) : ∃ s c p b, (v.abandonEndpoint e env).vpn =
      { v with
        selectedEndpoint := s, config := { v.config with endpoints := c }, pendingError := p,
        pingFailureInducesLocationUnavailable := b } := by
  unfold abandonEndpoint
  dsimp only
  split
  · exact ⟨_, _, _, _, rfl⟩
  · split
    all_goals exact ⟨_, _, _, _, rfl⟩

theorem runTask_vpn (v : Vpn) (env : Env) (t : Task) : (v.runTask env t).vpn = v.working (v.runTask env t).vpn := by
  cases t with
  | abandonEndpoint e =>
    obtain ⟨s, c, p, b, heq⟩ := abandonEndpoint_vpn v e env
    show (v.abandonEndpoint e env).vpn = v.working (v.abandonEndpoint e env).vpn
    rw [heq]
    rfl
  | forceDisconnect fatal => cases fatal <;> rfl
  | _ => rfl

theorem runTask_retryInfo (ht : t.isConnect = false) (v : Vpn) (env : Env) :
    (v.runTask env t).vpn.connectRetryInfo = v.connectRetryInfo := by
  cases t with
  | connect c i => simp [Task.isConnect] at ht
  | abandonEndpoint e =>
    obtain ⟨s, c, p, b, heq⟩ := abandonEndpoint_vpn v e env
    rw [runTask, heq]
  | forceDisconnect fatal => cases fatal <;> rfl
  | _ => rfl

theorem runTask_event {env : Env} (h : (v.runTask env t).event = some (e, a)) :
    (e = .doConnect → t.isConnect = true) ∧ (e = .retryConnect → t = .retryConnect) ∧
      (e = .abandonEndpoint → ∃ n, t = .abandonEndpoint n) ∧
      (e = .completeRequest → ∃ r, t = .completeConnectRequest r) ∧
      (e = .networkChange → ∃ s, t = .notifyNetworkChange s ∧ a.data = .network s) := by
  cases t with
  | abandonEndpoint n =>
    have he : e = .abandonEndpoint := by
      simp only [runTask, abandonEndpoint] at h
      split at h
      · cases h
        rfl
      split at h
      · cases h
      · cases h
        rfl
    subst he
    simp
  | connect c i =>
    cases h
    simp [Task.isConnect]
  | notifyNetworkChange s | _ =>
    cases h
    simp

theorem pingerHandler_event {r : PingerResult} {env : Env} (h : (v.pingerHandler r env).event = some (e, a)) :
    e = .pingReady ∨ e = .pingFail := by
  simp only [pingerHandler] at h
  split at h
  · cases h
    exact .inr rfl
  split at h
  · cases h
    exact .inr rfl
  · cases h
    exact .inl rfl

theorem pingerHandler_vpn (v : Vpn) (r : PingerResult) (env : Env) : ∃ s b, (v.pingerHandler r env).vpn =
      { v with pinger := none, selectedEndpoint := s, pingFailureInducesLocationUnavailable := b } := by
  unfold pingerHandler
  dsimp only
  split
  · exact ⟨_, _, rfl⟩
  · split
    all_goals exact ⟨_, _, rfl⟩

/-- The client with what a report may change taken from `w`. -/
def noting (v w : Vpn) : Vpn :=
  { v with
    queue := w.queue
    pinger := w.pinger
    selectedEndpoint := w.selectedEndpoint
    pingFailureInducesLocationUnavailable := w.pingFailureInducesLocationUnavailable
    clientState := w.clientState
    deferred := w.deferred
    recovery := { w.recovery with attempts := v.recovery.attempts } }

/-- A call that does nothing, submits a request or reports something. -/
structure Noted (v : Vpn) (c : Call) (i : Intake) : Prop where
  task : v.taskOf c = none
  vpn : i.vpn = v.noting i.vpn
  queue : ∃ l, i.vpn.queue = v.queue ++ l ∧ ∀ t ∈ l, t.isRequest = true
  outs : ∀ o ∈ i.outs, o.kind = .returned ∨
    o.kind = .assertion ∧ v.pinger.isSome = true ∧ v.selectedEndpoint.isSome = true
  event : ∀ e a, i.event = some (e, a) → e.isReport = true

inductive Does (v : Vpn) : Call → Vpn × List Out → Prop where
  | notes (c : Call) (i : Intake) (h : Noted v c i) : Does v c (finish i)
  | starts (p : ConnectParameters) (hl : v.loop.runs = false) :
    Does v (.connect p) ({ v with loop := .running }.submit (.connect p.upstreamConfig (retryInfoOf p.retryPolicy)),
        [.connectReturned noError])
  | stops (hl : v.loop = .running) : Does v .stop ({ v with loop := .stopping }.submit .shutdown, [])
  | resets (c : Call) (hc : c = .stopped ∨ c = .stop ∧ v.loop.runs = false) : Does v c (v.reset, [])
  | task (t : Task) (rest : List Task) (env : Env) (hq : v.queue = t :: rest) (hl : v.loop.runs = true) :
    Does v (.runTask env) (finish ((v.pop rest).runTask env t))
  | timer (ht : v.postponementWindowTimer = true) : Does v .postponementTimer v.postponementWindowTimerCb

theorem Noted.reports (hc : v.taskOf c = none) (hvpn : i.vpn = v.noting i.vpn)
    (hq : i.vpn.queue = v.queue) (houts : i.outs = [])
    (hevent : ∀ e a, i.event = some (e, a) → e.isReport = true) : Noted v c i :=
  ⟨hc, hvpn, ⟨[], by simp [hq]⟩, by simp [houts], hevent⟩

theorem Noted.kind_ne (h : Noted v c i) {k : OutKind} (hret : k ≠ .returned)
    (hassert : k ≠ .assertion) : ∀ o ∈ i.outs, o.kind ≠ k := by
  rintro o ho rfl
  exact (h.outs o ho).elim hret fun ha => hassert ha.1

attribute [local simp] ConnectEvent.isReport

theorem does_step (v : Vpn) (c : Call) : Does v c (v.step c) := by
  have htaken := takenIn_intake v c
  unfold step
  generalize v.intake c = i at htaken ⊢
  cases htaken with
  | nothing c hc => exact .notes c _ (.reports hc rfl rfl rfl (by simp))
  | refused p e => exact .notes _ _ ⟨rfl, rfl, ⟨[], by simp⟩, by simp, by simp⟩
  | submit c hc t ht hl => exact .notes c _ ⟨hc, rfl, ⟨[t], rfl, by simpa using ht⟩, by simp, by simp⟩
  | connect p hl => exact .starts p hl
  | stop hl => exact .stops hl
  | unstarted hl => exact .resets _ (.inr ⟨rfl, by rw [hl]; rfl⟩)
  | stopped hl => exact .resets _ (.inl rfl)
  | task t rest env hq hl => exact .task t rest env hq hl
  | pinger r env hp =>
    obtain ⟨s, b, heq⟩ := pingerHandler_vpn v r env
    refine .notes _ _ ⟨rfl, by rw [heq]; rfl, ⟨[], by simp [heq]⟩, fun o ho => .inr ?_, fun e a he => ?_⟩
    · rw [pingerHandler_outs] at ho
      split at ho <;> simp_all
    · rcases pingerHandler_event he with rfl | rfl <;> rfl
  | clientConnected env hcl => exact .notes _ _ (.reports rfl rfl rfl rfl (by simp [raises]))
  | clientDisconnected error env hl =>
    refine .notes _ _ (.reports rfl rfl rfl rfl ?_)
    simp [clientDisconnected, raises]
  | recoveryTask env i rest hd =>
    refine .notes _ _ (.reports rfl ?_ ?_ ?_ ?_) <;>
      simp [recoveryTask, hd, raises, noting]
  | postponementTimer ht => exact .timer ht

/-! ## The queue -/

/-- The loop takes the first task; every other call leaves the tasks in the queue of a loop that
runs. -/
theorem step_queue_append (hl : v.loop.runs = true) (c : Call) (hc : c ≠ .stopped) (hno : v.taskOf c = none) :
    ∃ l, (v.step c).1.queue = v.queue ++ l := by
  have hdoes := does_step v c
  generalize v.step c = r at hdoes ⊢
  cases hdoes with
  | notes c i h =>
    obtain ⟨l, hq, -⟩ := h.queue
    obtain ⟨added, hadded, -⟩ := finish_queue i
    exact ⟨l ++ added, by rw [hadded, hq, append_assoc]⟩
  | starts p hrests => exact ⟨[_], rfl⟩
  | stops hrunning => exact ⟨[.shutdown], rfl⟩
  | resets c hreset => simp [hc, hl] at hreset
  | task t rest env hq _ => simp [taskOf, hq, hl] at hno
  | timer ht => exact ⟨[], by simp⟩

theorem step_task (hl : v.loop.runs = true) {rest : List Task} (hq : v.queue = t :: rest) (env : Env) :
    v.step (.runTask env) = finish ((v.pop rest).runTask env t) := by
  simp [step, intake, hq, hl]

theorem step_queue_pop (hl : v.loop.runs = true) {rest : List Task} (hq : v.queue = t :: rest) (env : Env) :
    ∃ l, (v.step (.runTask env)).1.queue = rest ++ l := by
  obtain ⟨l, hadded, -⟩ := finish_queue ((v.pop rest).runTask env t)
  refine ⟨l, ?_⟩
  rw [step_task hl hq env, hadded]
  exact congrArg (· ++ l) (congrArg Vpn.queue (runTask_vpn ..))

theorem runs_step (hl : v.loop.runs = true) (c : Call) (hc : c ≠ .stopped) : (v.step c).1.loop.runs = true := by
  have hdoes := does_step v c
  generalize v.step c = r at hdoes ⊢
  cases hdoes with
  | notes c i h =>
    rw [finish_loop, h.vpn]
    exact hl
  | starts p hrests | stops hrunning => rfl
  | resets c hreset => simp [hc, hl] at hreset
  | task t rest env hq _ =>
    rw [finish_loop, runTask_vpn]
    exact hl
  | timer ht => simpa using hl

theorem finish_killSwitchOn (i : Intake) : (finish i).1.killSwitchOn = i.vpn.killSwitchOn :=
  finish_inv (P := fun w => w.killSwitchOn = i.vpn.killSwitchOn) (fun _ => rfl) fun e a _ =>
    perform_killSwitchOn e a i.vpn

theorem step_killSwitchOn (v : Vpn) (c : Call) : (v.step c).1.killSwitchOn = v.killSwitchOn := by
  have hdoes := does_step v c
  generalize v.step c = r at hdoes ⊢
  cases hdoes with
  | notes c i h =>
    rw [finish_killSwitchOn, h.vpn]
    rfl
  | task t rest env hq hl =>
    rw [finish_killSwitchOn, runTask_vpn]
    rfl
  | timer ht => simp
  | _ => rfl

end Vpn

end TrustTunnel
