import TrustTunnel.Vpn.Step

/-!
# Vpn.Invariant

What every call of the session system keeps, whatever the session does.
-/

namespace TrustTunnel

open Lib List

namespace Vpn

/-! ## Between the sessions -/

/-- The client as `vpn_open` and `vpn_stop` leave it, but for what calls before `vpn_connect` may have
left behind. -/
structure Clean (v : Vpn) : Prop where
  state : v.state = .disconnected
  recovery : v.recovery = {}
  deferred : v.deferred = []
  selectedEndpoint : v.selectedEndpoint = none
  pinger : v.pinger = none
  pingFailure : v.pingFailureInducesLocationUnavailable = false
  clientState : v.clientState = .disconnected
  timer : v.postponementWindowTimer = false
  postponed : v.postponedRequests = []
  bypassed : v.bypassedConnectionIds = []

def sessionFields (v : Vpn) :=
  (v.state, v.recovery, v.deferred, v.selectedEndpoint, v.pinger,
    v.pingFailureInducesLocationUnavailable, v.clientState, v.postponementWindowTimer,
    v.postponedRequests, v.bypassedConnectionIds)

variable {v : Vpn} {t : Task} {info : ConnectRetryInfo}

theorem Clean.congr {w : Vpn} (h : v.Clean) (hw : w.sessionFields = v.sessionFields) : w.Clean := by
  simp only [sessionFields, Prod.mk.injEq] at hw
  obtain ⟨h1, h2, h3, h4, h5, h6, h7, h8, h9, h10⟩ := hw
  exact ⟨h1.trans h.state, h2.trans h.recovery, h3.trans h.deferred, h4.trans h.selectedEndpoint,
    h5.trans h.pinger, h6.trans h.pingFailure, h7.trans h.clientState, h8.trans h.timer,
    h9.trans h.postponed, h10.trans h.bypassed⟩

/-- The loop is not running or has yet to run the task of `vpn_connect`. -/
def Starting (v : Vpn) : Prop := v.loop.runs = false ∨ ∃ t ∈ v.queue, t.isConnect = true

structure Ordered (v : Vpn) : Prop where
  resting : v.loop.runs = false → ∀ t ∈ v.queue, t.isRequest = true
  once : v.queue.countP Task.isConnect ≤ 1
  clean : v.Starting → v.Clean

theorem ordered_opened (k : Bool) (i : Nat) : (opened k i).Ordered := by
  refine ⟨fun _ => by simp [opened], by simp [opened], fun _ => ?_⟩
  constructor <;> rfl

theorem not_starting (hl : v.loop.runs = true) (hq : ∀ t ∈ v.queue, t.isConnect = false) : ¬v.Starting := by
  rintro (hrests | ⟨t, ht, hc⟩)
  · rw [hl] at hrests
    cases hrests
  · rw [hq t ht] at hc
    cases hc

theorem not_starting_queue (h : ¬v.Starting) : ∀ t ∈ v.queue, t.isConnect = false := by
  intro t ht
  by_contra hc
  exact h (.inr ⟨t, ht, by simpa using hc⟩)

theorem not_starting_runs (h : ¬v.Starting) : v.loop.runs = true := by
  by_contra hl
  exact h (.inl (by simpa using hl))

theorem ordered_of_not_starting (h : ¬v.Starting) : v.Ordered := by
  refine ⟨fun hrests => absurd (.inl hrests) h, ?_, fun hs => absurd hs h⟩
  rw [countP_eq_zero.mpr]
  · exact Nat.zero_le 1
  · intro t ht
    simp [not_starting_queue h t ht]

theorem finish_not_starting {i : Intake} (h : ¬i.vpn.Starting) : ¬(finish i).1.Starting := by
  obtain ⟨added, hq, hadded⟩ := finish_queue i
  refine not_starting (by rw [finish_loop, not_starting_runs h]) fun t ht => ?_
  rw [hq, mem_append] at ht
  rcases ht with ht | ht
  · exact not_starting_queue h t ht
  · exact Task.not_connect_of_internal (hadded t ht)

theorem not_starting_congr {w : Vpn} (h : ¬v.Starting) (hloop : w.loop = v.loop) (hq : w.queue = v.queue) :
    ¬w.Starting := by
  rw [Starting, hloop, hq]
  exact h

theorem submit_not_starting (h : ¬v.Starting) (ht : t.isConnect = false) {l : LoopState} (hl : l.runs = true) :
    ¬({ v with loop := l }.submit t).Starting := by
  refine not_starting hl fun s hs => ?_
  simp only [submit, mem_append, mem_singleton] at hs
  rcases hs with hs | rfl
  · exact not_starting_queue h s hs
  · exact ht

theorem runTask_not_starting (h : ¬v.Starting) (env : Env) (t : Task) : ¬(finish (v.runTask env t)).1.Starting :=
  finish_not_starting (not_starting_congr h (by rw [runTask_vpn]; rfl) (by rw [runTask_vpn]; rfl))

theorem busy_step (h : ¬v.Starting) (c : Call) (hc : c ≠ .stopped) : ¬(v.step c).1.Starting := by
  have hruns := not_starting_runs h
  have hdoes := does_step v c
  generalize v.step c = r at hdoes ⊢
  cases hdoes with
  | notes c i hn =>
    obtain ⟨l, hq, hl⟩ := hn.queue
    refine finish_not_starting (not_starting (by rw [hn.vpn]; exact hruns) fun t ht => ?_)
    rw [hq, mem_append] at ht
    exact ht.elim (not_starting_queue h t) fun ht => Task.not_connect_of_request (hl t ht)
  | starts p hl => exact absurd (.inl hl) h
  | stops hl => exact submit_not_starting h rfl rfl
  | resets c hreset => simp [hc, hruns] at hreset
  | task t rest env hq hl =>
    refine runTask_not_starting (v := v.pop rest) (not_starting hl fun s hs => ?_) env t
    exact not_starting_queue h s (by rw [hq]; exact mem_cons_of_mem t hs)
  | timer ht => exact not_starting_congr h (by simp) (by simp)

/-! ## Before the connect task

Tasks that are submitted before `vpn_connect` find a disconnected session: they can leave an error and
an empty configuration behind, and have requests completed. -/

attribute [local simp] performTransition transitionTable Machine.perform Machine.moveTo Machine.take Machine.fits

theorem perform_disconnected (h : v.state = .disconnected) {e : ConnectEvent} (hconnect : e ≠ .doConnect)
    (hshutdown : e ≠ .shutdown) (hrequest : e ≠ .completeRequest) (a : EventArg) :
    performTransition e a v = (v, []) := by
  cases e <;> simp_all [machine, andDo, run]

theorem perform_disconnected_shutdown (h : v.state = .disconnected) (a : EventArg) :
    performTransition .shutdown a v = v.doDisconnect := by
  have hfits : performTransition .shutdown a v = run .doDisconnect a v := by
    simp [machine, h, andDo]
  exact hfits

theorem perform_disconnected_request (h : v.state = .disconnected) (r : ConnectRequestResult) (env : Env) :
    performTransition .completeRequest ⟨.request r, env⟩ v = (v, [.completed r.id r.action]) := by
  simp [machine, h, andDo, holds, canComplete, run, requestsOf]

theorem Clean.doDisconnect (h : v.Clean) : v.doDisconnect.1.Clean ∧ v.doDisconnect.2 = [] := by
  rw [doDisconnect_fst, doDisconnect_snd, disconnect_snd, if_pos h.clientState]
  refine ⟨⟨h.state, rfl, ?_, h.selectedEndpoint, rfl, rfl, rfl, h.timer, h.postponed, h.bypassed⟩, rfl⟩
  simp [h.deferred, cancel]

/-- The intake of a call whose event leaves a clean client clean. -/
def Intake.Harmless (i : Intake) : Prop :=
  (finish i).1.Clean ∧ (finish i).1.queue = i.vpn.queue ∧ ∀ o ∈ (finish i).2, o.kind = .request

theorem Clean.ignores (h : v.Clean) {e : ConnectEvent} (hconnect : e ≠ .doConnect) (hshutdown : e ≠ .shutdown)
    (hrequest : e ≠ .completeRequest) (d : EventData) (env : Env) : (raises v e d env).Harmless := by
  rw [Intake.Harmless, finish_raises, perform_disconnected h.state hconnect hshutdown hrequest]
  exact ⟨h, rfl, by simp⟩

theorem Clean.shutdown (h : v.Clean) (d : EventData) (env : Env) : (raises v .shutdown d env).Harmless := by
  rw [Intake.Harmless, finish_raises, perform_disconnected_shutdown h.state, h.doDisconnect.2]
  exact ⟨h.doDisconnect.1, by simp [raises], by simp⟩

theorem Clean.abandonEndpoint (h : v.Clean) (n : VpnEndpoint) (env : Env) : (v.abandonEndpoint n env).Harmless := by
  have hvpn : (v.abandonEndpoint n env).vpn.Clean := by
    simp only [Vpn.abandonEndpoint, h.selectedEndpoint, Option.any_none, Bool.not_false, if_true]
    split
    · exact h.congr (by simp [raises, sessionFields, h.selectedEndpoint])
    · exact h.congr (by simp [sessionFields, h.selectedEndpoint])
  have houts := abandonEndpoint_outs v n env
  obtain ⟨-, hevent⟩ := abandonEndpoint_raises v n env
  unfold Intake.Harmless finish
  split
  · exact ⟨hvpn, rfl, by simp [houts]⟩
  next e a he =>
  obtain rfl := hevent e a he
  rw [andDo, perform_disconnected hvpn.state (by simp) (by simp) (by simp)]
  exact ⟨hvpn, rfl, by simp [houts]⟩

theorem Clean.runTask (h : v.Clean) (ht : t.isConnect = false) (env : Env) : (v.runTask env t).Harmless := by
  cases t with
  | connect c i => cases ht
  | forceDisconnect fatal =>
    refine Clean.shutdown ?_ .null env
    cases fatal
    · exact h
    · exact h.congr rfl
  | shutdown => exact h.shutdown .null env
  | completeConnectRequest r =>
    rw [Intake.Harmless, Vpn.runTask, finish_raises, perform_disconnected_request h.state]
    exact ⟨h, rfl, by simp [Out.kind]⟩
  | notifyNetworkChange s =>
    refine Clean.ignores ?_ (by simp) (by simp) (by simp) (.network s) env
    exact h.congr rfl
  | abandonEndpoint e => exact h.abandonEndpoint e env
  | recoveryFailed =>
    refine Clean.shutdown ?_ .null env
    refine ⟨h.state, rfl, ?_, h.selectedEndpoint, h.pinger, h.pingFailure, h.clientState, h.timer,
      h.postponed, h.bypassed⟩
    simp [resetRecovery, h.deferred, cancel]
  | listenFailed e =>
    refine Clean.shutdown ?_ .null env
    exact h.congr rfl
  | forceReconnect | listen | retryConnect | clientDisconnected =>
    exact h.ignores (by simp) (by simp) (by simp) .null env

theorem Clean.pop (h : v.Clean) (rest : List Task) : (v.pop rest).Clean :=
  h.congr (by simp [sessionFields, Vpn.pop, h.pinger])

theorem ordered_reset (v : Vpn) : v.reset.Ordered := by
  refine ⟨fun _ => by simp [reset], by simp [reset], fun _ => ?_⟩
  constructor <;> rfl

theorem Ordered.submit (h : v.Ordered) (ht : t.isConnect = false) {l : LoopState}
    (hl : l.runs = false → v.loop.runs = false ∧ t.isRequest = true) : ({ v with loop := l }.submit t).Ordered := by
  refine ⟨fun hrests s hs => ?_, ?_, ?_⟩
  · simp only [Vpn.submit, mem_append, mem_singleton] at hs
    rcases hs with hs | rfl
    · exact h.resting (hl hrests).1 s hs
    · exact (hl hrests).2
  · simp only [Vpn.submit, countP_append, countP_singleton, ht]
    exact h.once
  · rintro (hrests | ⟨s, hs, hc⟩)
    · exact (h.clean (.inl (hl hrests).1)).congr rfl
    simp only [Vpn.submit, mem_append, mem_singleton] at hs
    rcases hs with hs | rfl
    · exact (h.clean (.inr ⟨s, hs, hc⟩)).congr rfl
    · rw [ht] at hc
      cases hc

theorem Ordered.submit_request (h : v.Ordered) (ht : t.isRequest = true) : (v.submit t).Ordered :=
  h.submit (Task.not_connect_of_request ht) fun hl => ⟨hl, ht⟩

theorem Ordered.no_connect (h : v.Ordered) (hl : v.loop.runs = false) : v.queue.countP Task.isConnect = 0 := by
  rw [countP_eq_zero]
  intro t ht
  simp [Task.not_connect_of_request (h.resting hl t ht)]

theorem Ordered.task (h : v.Ordered) {rest : List Task} (hq : v.queue = t :: rest) (hl : v.loop.runs = true)
    (env : Env) : (finish ((v.pop rest).runTask env t)).1.Ordered := by
  have honce := h.once
  rw [hq, countP_cons] at honce
  cases ht : t.isConnect with
  | true =>
    -- it was the only one
    have hrest : rest.countP Task.isConnect = 0 := by
      rw [ht, if_pos rfl] at honce
      omega
    refine ordered_of_not_starting (runTask_not_starting ?_ env t)
    refine not_starting hl fun s hs => ?_
    simpa using (countP_eq_zero.mp hrest) s hs
  | false =>
    obtain ⟨added, hqueue, hadded⟩ := finish_queue ((v.pop rest).runTask env t)
    rw [runTask_vpn] at hqueue
    replace hqueue : (finish ((v.pop rest).runTask env t)).1.queue = rest ++ added := hqueue
    have hnone : added.countP Task.isConnect = 0 := by
      rw [countP_eq_zero]
      intro s hs
      simp [Task.not_connect_of_internal (hadded s hs)]
    have hloop : (finish ((v.pop rest).runTask env t)).1.loop = v.loop := by
      rw [finish_loop, runTask_vpn]
      rfl
    refine ⟨fun hrests => ?_, ?_, fun hs => ?_⟩
    · rw [hloop, hl] at hrests
      cases hrests
    · rw [hqueue, countP_append]
      omega
    have hclean : v.Clean := by
      rcases hs with hs | ⟨s, hs, hc⟩
      · rw [hloop, hl] at hs
        cases hs
      rw [hqueue, mem_append] at hs
      rcases hs with hs | hs
      · exact h.clean (.inr ⟨s, by simp [hq, hs], hc⟩)
      · simp [Task.not_connect_of_internal (hadded s hs)] at hc
    exact ((hclean.pop rest).runTask ht env).1

attribute [local simp] finish

theorem ordered_step (h : v.Ordered) (c : Call) : (v.step c).1.Ordered := by
  by_cases hbusy : ¬v.Starting ∧ c ≠ .stopped
  · exact ordered_of_not_starting (busy_step hbusy.1 c hbusy.2)
  have hclean : c ≠ .stopped → v.Clean := by
    intro hc
    refine h.clean ?_
    by_contra hs
    exact hbusy ⟨hs, hc⟩
  have htaken := takenIn_intake v c
  unfold step
  generalize v.intake c = i at htaken ⊢
  cases htaken with
  | nothing | refused p e => exact h
  | submit _ _ t ht hl => exact h.submit_request ht
  | connect p hl =>
    refine ⟨fun hrests => absurd hrests (by simp [Vpn.submit, LoopState.runs]), ?_, fun _ => ?_⟩
    · simp [Vpn.submit, h.no_connect hl, Task.isConnect]
    · exact (h.clean (.inl hl)).congr rfl
  | stop hl => exact h.submit rfl (by simp [LoopState.runs])
  | unstarted hl | stopped hl => exact ordered_reset v
  | task t rest env hq hl => exact h.task hq hl env
  | pinger r env hp =>
    rw [(hclean (by simp)).pinger] at hp
    cases hp
  | clientConnected env hcl =>
    rw [(hclean (by simp)).clientState] at hcl
    cases hcl
  | clientDisconnected error env hl =>
    have hclean := hclean (by simp)
    have hsame : { v with clientState := .disconnected } = v := by rw [← hclean.clientState]
    rw [Vpn.clientDisconnected, finish_raises, hsame, perform_disconnected hclean.state (by simp) (by simp) (by simp)]
    exact h
  | recoveryTask env i rest hd =>
    rw [(hclean (by simp)).deferred] at hd
    cases hd
  | postponementTimer ht =>
    rw [(hclean (by simp)).timer] at ht
    cases ht

/-! ## The pinger -/

def Unselected (v : Vpn) : Prop := v.pinger.isSome = true → v.selectedEndpoint = none

attribute [local simp] Unselected

theorem perform_unselected (h : v.Unselected) (e : ConnectEvent) (a : EventArg) :
    (performTransition e a v).1.Unselected := by
  have hcomplete : ∀ d, (v.completeConnect d).1.Unselected := by
    intro d hp
    rw [completeConnect_fst] at hp ⊢
    split at hp
    · cases hp
    · exact h hp
  have hrun : ∀ act, (run act a v).1.Unselected := by
    intro act
    cases act with
    | completeConnect | failConnectWithNoAttempts => exact hcomplete _
    | _ => simp_all [run]
  refine perform_inv h (fun r act _ _ _ => hrun act) fun q w hw => ?_
  rw [enter_fst]
  exact hw

theorem abandonEndpoint_unselected (h : v.Unselected) (e : VpnEndpoint) (env : Env) :
    (v.abandonEndpoint e env).vpn.Unselected := by
  have hsel : v.pinger.isSome = true → (if (v.selectedEndpoint.any fun s => s.endpoint == e) = true then none
        else v.selectedEndpoint) = none := by
    intro hp
    rw [h hp, ite_self]
  unfold abandonEndpoint
  dsimp only
  split
  · exact hsel
  · split
    · exact hsel
    · exact hsel

theorem runTask_unselected (h : v.Unselected) (env : Env) (t : Task) : (v.runTask env t).vpn.Unselected := by
  cases t with
  | abandonEndpoint e => exact abandonEndpoint_unselected h e env
  | forceDisconnect fatal => cases fatal <;> exact h
  | _ => exact h

theorem unselected_step (h : v.Unselected) (c : Call) : (v.step c).1.Unselected := by
  have htaken := takenIn_intake v c
  unfold step
  generalize v.intake c = i at htaken ⊢
  have hi : i.vpn.Unselected := by
    cases htaken with
    | task t rest env hq hl =>
      have hpop : (v.pop rest).Unselected := fun hp => h (by simpa [pop] using hp)
      exact runTask_unselected hpop env t
    | pinger r env hp =>
      obtain ⟨s, b, heq⟩ := pingerHandler_vpn v r env
      simp [heq]
    | unstarted hl | stopped hl => simp [reset]
    | recoveryTask env i rest hd => simpa [recoveryTask, hd, raises] using h
    | postponementTimer ht => simpa using h
    | _ => exact h
  refine finish_inv (fun _ => hi) fun e a _ => ?_
  exact perform_unselected hi e a

theorem Clean.unselected (h : v.Clean) : v.Unselected := by
  simp [h.pinger]

/-! ## The start of a session -/

/-- The loop has yet to run the connect task, which carries `info`. -/
def Waiting (info : ConnectRetryInfo) (v : Vpn) : Prop :=
  ∃ earlier c rest, v.queue = earlier ++ .connect c info :: rest ∧
    (∀ t ∈ earlier, t.isConnect = false ∧ t.isInternal = false) ∧ ∀ t ∈ rest, t.isInternal = false

def configured (v : Vpn) (c : UpstreamConfig) (info : ConnectRetryInfo) : Vpn :=
  { v.updateUpstreamConfig c with connectRetryInfo := countAttempt info }

theorem perform_doConnect (h : v.state = .disconnected) (a : EventArg) :
    performTransition .doConnect a v = andDo (run .runPing a v) (enter .connecting) := by
  simp [machine, h, andDo, enter, run]

theorem finish_connect (h : v.state = .disconnected) (cfg : UpstreamConfig) (info : ConnectRetryInfo) (env : Env) :
    finish (v.runTask env (.connect cfg info)) =
      andDo (run .runPing ⟨.null, env⟩ (v.configured cfg info)) (enter .connecting) := by
  exact perform_doConnect (v := v.configured cfg info) h _

theorem Waiting.starting (h : v.Waiting info) : v.Starting := by
  obtain ⟨earlier, c, rest, hq, -, -⟩ := h
  exact .inr ⟨.connect c info, by simp [hq], rfl⟩

theorem Waiting.runs (h : v.Waiting info) (hord : v.Ordered) : v.loop.runs = true := by
  obtain ⟨earlier, c, rest, hq, -, -⟩ := h
  by_contra hl
  have hreq := hord.resting (by simpa using hl) (.connect c info) (by simp [hq])
  cases hreq

theorem Waiting.submit (h : v.Waiting info) (ht : t.isInternal = false) (l : LoopState) :
    ({ v with loop := l }.submit t).Waiting info := by
  obtain ⟨earlier, c, rest, hq, hearlier, hrest⟩ := h
  refine ⟨earlier, c, rest ++ [t], by simp [Vpn.submit, hq], hearlier, fun s hs => ?_⟩
  rcases mem_append.mp hs with hs | hs
  · exact hrest s hs
  · rw [mem_singleton.mp hs]
    exact ht

/-- Until the connect task is run, the session only collects tasks and runs those submitted before
the loop was started; then it pings in `CONNECTING`. -/
theorem waiting_step (h : v.Ordered) (hw : v.Waiting info) (c : Call) (hc : c ≠ .stopped) :
    ((v.step c).1.Waiting info ∧ ∀ o ∈ (v.step c).2, o.kind = .returned ∨ o.kind = .request) ∨
      ∃ cfg rest env, (∀ t ∈ rest, t.isInternal = false) ∧ ¬(v.step c).1.Starting ∧
        v.step c = andDo (run .runPing ⟨.null, env⟩ ((v.pop rest).configured cfg info)) (enter .connecting) := by
  have hclean := h.clean hw.starting
  have hruns := hw.runs h
  have htaken := takenIn_intake v c
  unfold step
  generalize v.intake c = i at htaken ⊢
  cases htaken with
  | nothing => exact .inl ⟨hw, by simp⟩
  | refused p e => exact .inl ⟨hw, by simp [Out.kind]⟩
  | submit _ _ t ht hl =>
    exact .inl ⟨hw.submit (Task.not_internal_of_request ht) v.loop, by simp⟩
  | connect p hl => simp [hruns] at hl
  | stop hl => exact .inl ⟨hw.submit rfl .stopping, by simp⟩
  | unstarted hl => simp [hl, LoopState.runs] at hruns
  | stopped hl => exact absurd rfl hc
  | task t rest env hq hl =>
    obtain ⟨earlier, cfg, rest', hq', hearlier, hrest⟩ := hw
    rw [hq] at hq'
    cases earlier with
    | nil =>
      obtain ⟨rfl, rfl⟩ := List.cons.inj hq'
      refine .inr ⟨cfg, rest, env, hrest, ?_, ?_⟩
      · have honce := h.once
        rw [hq, countP_cons] at honce
        refine runTask_not_starting (v := v.pop rest) (not_starting hl fun s hs => ?_) env _
        have hnone : rest.countP Task.isConnect = 0 := by
          simp only [Task.isConnect, if_true] at honce
          omega
        simpa using (countP_eq_zero.mp hnone) s hs
      · exact finish_connect (v := v.pop rest) hclean.state cfg info env
    | cons s earlier =>
      obtain ⟨rfl, rfl⟩ := List.cons.inj hq'
      obtain ⟨-, hqueue, houts⟩ :=
        (hclean.pop _).runTask (hearlier t mem_cons_self).1 env
      rw [runTask_vpn] at hqueue
      refine .inl ⟨⟨earlier, cfg, rest', hqueue, ?_, hrest⟩, fun o ho => .inr (houts o ho)⟩
      exact fun u hu => hearlier u (mem_cons_of_mem t hu)
  | pinger r env hp =>
    rw [hclean.pinger] at hp
    cases hp
  | clientConnected env hcl =>
    rw [hclean.clientState] at hcl
    cases hcl
  | clientDisconnected error env hl =>
    have hstate : ({ v with clientState := .disconnected }).state = .disconnected := hclean.state
    rw [clientDisconnected, finish_raises, perform_disconnected hstate (by simp) (by simp) (by simp)]
    exact .inl ⟨hw, by simp⟩
  | recoveryTask env i rest hd =>
    rw [hclean.deferred] at hd
    cases hd
  | postponementTimer ht =>
    rw [hclean.timer] at ht
    cases ht

def started (v : Vpn) (p : ConnectParameters) : Vpn := (v.step (.connect p)).1

theorem started_eq (hl : v.loop.runs = false) {p : ConnectParameters}
    (hp : validateUpstreamConfig p.upstreamConfig = none) : v.started p = { v with loop := .running }.submit
      (.connect p.upstreamConfig (retryInfoOf p.retryPolicy)) := by
  cases hloop : v.loop <;> simp_all [started, step, intake, connect, LoopState.runs]

theorem started_waiting (h : v.Ordered) (hl : v.loop.runs = false) {p : ConnectParameters}
    (hp : validateUpstreamConfig p.upstreamConfig = none) : (v.started p).Waiting (retryInfoOf p.retryPolicy) := by
  rw [started_eq hl hp]
  refine ⟨v.queue, p.upstreamConfig, [], by simp [submit], fun t ht => ?_, by simp⟩
  have hreq := h.resting hl t ht
  exact ⟨Task.not_connect_of_request hreq, Task.not_internal_of_request hreq⟩

theorem ordered_exec (k : Bool) (es : List Call) : ((system k).exec (system k).init es).Ordered :=
  (system k).inv_exec (ordered_opened k 0) (fun _ c h => ordered_step h c) es

/-! ## Sessions

A session is `vpn_connect` with `p` in a client whose loop does not run after the calls `earlier`, and
the calls `es` after it. -/

abbrev sessionStart (k : Bool) (earlier : List Call) (p : ConnectParameters) : Vpn :=
  ((system k).exec (system k).init earlier).started p

abbrev sessionTrace (k : Bool) (earlier : List Call) (p : ConnectParameters) (es : List Call) :
    List (Record Vpn Call Out) :=
  (system k).trace (sessionStart k earlier p) es

abbrev sessionEnd (k : Bool) (earlier : List Call) (p : ConnectParameters) (es : List Call) : Vpn :=
  (system k).exec (sessionStart k earlier p) es

theorem sessionStart_ordered (k : Bool) (earlier : List Call) (p : ConnectParameters) :
    (sessionStart k earlier p).Ordered :=
  ordered_step (ordered_exec k earlier) (.connect p)

theorem sessionStart_clean {k : Bool} {earlier : List Call}
    (hl : ((system k).exec (system k).init earlier).loop.runs = false) (p : ConnectParameters) :
    (sessionStart k earlier p).Clean := by
  have hclean := (ordered_exec k earlier).clean (.inl hl)
  unfold sessionStart started step
  have htaken := takenIn_intake ((system k).exec (system k).init earlier) (.connect p)
  generalize ((system k).exec (system k).init earlier).intake (.connect p) = i at htaken ⊢
  cases htaken with
  | nothing | refused p e => exact hclean
  | submit _ _ t ht hl | connect p hl => exact hclean.congr rfl

end Vpn

end TrustTunnel
