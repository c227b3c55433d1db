import TrustTunnel.Vpn.Invariant

/-!
# Vpn.Endpoint

The selected endpoint is there whenever it is used: when the client is told to connect, and when
`CONNECTED` is raised.

`Selected` is the invariant. Its last clause is about the loop: a retry task stops the pinger and the
client, and a pinger that is started before a retry task has run reports after it (`pinger` counts
the tasks it still waits for). So no client connects while a retry is pending.

`states_told` is about the states that are reported: `follows` is their graph.
-/

namespace TrustTunnel

open Lib List Option

def Out.readsEndpoint : Out → Bool
  | .clientConnect _ _ | .stateChanged _ .connected _ => true
  | _ => false

namespace Vpn

/-- The session has told, or may yet tell, the client to connect. -/
def Engaged (v : Vpn) : Prop := v.state = .connecting ∨ v.state = .recovering

/-- The session waits, for the next attempt or for the network. -/
def Idles (v : Vpn) : Prop := v.state = .waitingRecovery ∨ v.state = .waitingForNetwork

def RetryAt (v : Vpn) (p : Nat) : Prop := v.queue[p]? = some .retryConnect

structure Selected (v : Vpn) : Prop where
  engaged : v.Engaged → v.clientState ≠ .disconnected → v.selectedEndpoint.isSome = true
  idles : v.Idles → v.clientState = .disconnected
  retries : v.state = .connecting → ∀ p, v.RetryAt p → v.clientState = .disconnected ∧ ∀ w,
    v.pinger = some w → p < w

/-! ## Rows -/

/-- The actions that leave the client, the pinger, the endpoint and the retry tasks alone. -/
def neutral : Action → Bool
  | .startListening | .onWrongListenState | .completeRequest | .postponeRequest | .rejectRequest
  | .bypassUntilConnected => true
  | _ => false

def disconnects : Action → Bool
  | .prepareForRecovery | .prepareForRecoveryNc | .doDisconnect => true
  | _ => false

theorem stay_rows : ∀ r ∈ transitionTable, r.target = none →
    (r.before.all neutral = true ∧ r.event ≠ .abandonEndpoint) ∨
    (r.source = some .connecting ∧ r.before = some .retryConnect) ∨
    (r.source = some .connecting ∧ r.event = .retryConnect ∧ r.before = some .runPing) ∨
    (r.source = some .connecting ∧ r.event = .pingReady ∧ r.before = some .connectClient) ∨
    (r.source = some .recovering ∧ r.event = .pingReady ∧ r.before = some .reconnectClient) ∨
    (r.source = some .disconnected ∧ r.before = some .doDisconnect) := by
  decide

theorem move_rows : ∀ r ∈ transitionTable, (r.target = some .connecting → r.before = some .retryConnect ∨
      (r.event = .doConnect ∧ r.before = some .runPing)) ∧
    (r.target = some .recovering → r.source = some .waitingRecovery ∧
      (r.before = some .runPing ∨ (r.before = some .connectClient ∧
        Machine.shadowed transitionTable r .needToPingOnRecovery = true))) ∧
    (r.target = some .waitingRecovery ∨ r.target = some .waitingForNetwork → r.before.any disconnects = true) ∧
    (r.target = some .connected → r.event = .clientReady ∧
      (r.source = some .connecting ∨ r.source = some .recovering) ∧
      (r.before = some .completeConnect ∨ r.before = some .finalizeRecovery)) ∧
    (r.target = some .disconnected → r.before.all (fun act => !act.kinds.contains .optional) = true) := by
  decide

/-! ## Actions -/

theorem retryAt_append {q added : List Task} {p : Nat} (h : (q ++ added)[p]? = some .retryConnect)
    (hadded : Task.retryConnect ∉ added) : q[p]? = some .retryConnect := by
  by_cases hp : p < q.length
  · rwa [List.getElem?_append_left hp] at h
  · rw [List.getElem?_append_right (by omega)] at h
    exact absurd (mem_of_getElem? h) hadded

variable {act : Action} {v : Vpn} {t : Task}

theorem retryAt_run (hact : act ≠ .retryConnect) {a : EventArg} {p : Nat} (h : (run act a v).1.RetryAt p) :
    v.RetryAt p := by
  rw [RetryAt, run_queue] at h
  refine retryAt_append h fun hmem => hact ?_
  unfold addedTasks at hmem
  split at hmem <;> try split at hmem
  all_goals simp_all

theorem run_neutral (h : neutral act = true) (a : EventArg) (v : Vpn) : (run act a v).1.clientState = v.clientState ∧
      (run act a v).1.selectedEndpoint = v.selectedEndpoint ∧ (run act a v).1.pinger = v.pinger := by
  cases act <;> simp_all [run, neutral]

theorem runPing_retries (hclient : v.clientState = .disconnected) (a : EventArg) (p : Nat)
    (hp : (run .runPing a v).1.RetryAt p) : (run .runPing a v).1.clientState = .disconnected ∧
      ∀ w, (run .runPing a v).1.pinger = some w → p < w := by
  refine ⟨by simp [run, hclient], fun w hw => ?_⟩
  have hlen : p < v.queue.length := by
    have hold := retryAt_run (by simp) hp
    exact (List.getElem?_eq_some_iff.mp hold).1
  have hw' : v.queue.length = w := by simpa [run] using hw
  omega

theorem run_disconnects (h : disconnects act = true) (a : EventArg) (v : Vpn) :
    (run act a v).1.clientState = .disconnected := by
  cases act <;> simp_all [run, disconnects]

theorem run_kept_endpoint (h : act ≠ .runPing) (a : EventArg) :
    (run act a v).1.selectedEndpoint = v.selectedEndpoint := by
  cases act <;> simp_all [run]

theorem run_not_optional (h : act.kinds.contains .optional = false) (a : EventArg) (v : Vpn) :
    ∀ o ∈ (run act a v).2, o.kind ≠ .optional := by
  intro o ho hk
  have hmem := run_kinds act a v o ho
  simp_all

open Out

theorem runClientConnect_not_optional (h : v.selectedEndpoint.isSome = true) (env : Env)
    (timeout : Option Nat) : ∀ o ∈ (v.runClientConnect env timeout).2, o.kind ≠ .optional := by
  obtain ⟨s, hs⟩ := isSome_iff_exists.mp h
  intro o ho
  rw [runClientConnect_snd, hs, elim_some, mem_singleton] at ho
  simp [ho, kind]

theorem enter_not_optional {q : VpnSessionState} (h : q = .connected → v.selectedEndpoint.isSome = true) :
    ∀ o ∈ (enter q v).2, o.kind ≠ .optional := by
  have hinfo : (stateInfo { v with state := q }).isSome = true := by
    unfold stateInfo
    cases q with
    | connected => simpa using h rfl
    | _ => rfl
  obtain ⟨i, hi⟩ := isSome_iff_exists.mp hinfo
  intro o ho
  rw [enter, raiseState_snd, hi, elim_some, mem_singleton] at ho
  simp [ho, kind]

/-! ## Events -/

/-- What an event needs to find: the invariant, save that a call to abandon an endpoint has just taken
it, and what the source of the event knows. -/
structure Receives (e : ConnectEvent) (v : Vpn) : Prop where
  engaged : e ≠ .abandonEndpoint → v.Engaged → v.clientState ≠ .disconnected →
    v.selectedEndpoint.isSome = true
  idles : v.Idles → v.clientState = .disconnected
  retries : v.state = .connecting → ∀ p, v.RetryAt p → v.clientState = .disconnected ∧ ∀ w,
    v.pinger = some w → p < w
  connect : e = .doConnect → v.clientState = .disconnected
  pinged : e = .pingReady → v.selectedEndpoint.isSome = true ∧ (v.state = .connecting → ∀ p, ¬v.RetryAt p)
  ready : e = .clientReady → v.clientState ≠ .disconnected
  retry : e = .retryConnect → v.state = .connecting → v.clientState = .disconnected

section Event

variable {e : ConnectEvent} {a : EventArg} {v : Vpn}
  {r : Row VpnSessionState ConnectEvent Condition Action}

theorem stay_selected (h : Receives e v) (hr : machine.Taken r e a v) (ht : r.target = none) :
    (runBefore r a v).1.Selected ∧ ∀ o ∈ (runBefore r a v).2, o.kind ≠ .optional := by
  rcases stay_rows r hr.mem ht with ⟨hneutral, hev⟩ | ⟨hsrc, hb⟩ | ⟨hsrc, hev, hb⟩ |
    ⟨hsrc, hev, hb⟩ | ⟨hsrc, hev, hb⟩ | ⟨hsrc, hb⟩
  · -- nothing that matters changes
    have heng := h.engaged (fun he => hev (hr.event.trans he))
    cases hb : r.before with
    | none =>
      rw [runBefore_none hb]
      exact ⟨⟨heng, h.idles, h.retries⟩, by simp⟩
    | some act =>
      have hact : neutral act = true := by simpa [hb] using hneutral
      obtain ⟨hclient, hsel, hping⟩ := run_neutral hact a v
      have hne : act ≠ .retryConnect := by
        rintro rfl
        cases hact
      have hopt : act.kinds.contains .optional = false := by
        cases act <;> simp_all [neutral, Action.kinds]
      rw [runBefore_some hb]
      refine ⟨⟨?_, ?_, ?_⟩, run_not_optional hopt a v⟩
      · simpa only [Engaged, run_state, hclient, hsel] using heng
      · simpa only [Idles, run_state, hclient] using h.idles
      intro hs p hp
      rw [run_state] at hs
      rw [hclient, hping]
      exact h.retries hs p (retryAt_run hne hp)
  · -- `retry_connect` in `CONNECTING`
    rw [runBefore_some hb]
    refine ⟨⟨?_, ?_, ?_⟩, run_not_optional rfl a v⟩ <;> simp [run]
  · -- the ping of a retry
    have hs : v.state = .connecting := hr.state_eq hsrc
    have hclient := h.retry (hr.event.symm.trans hev) hs
    rw [runBefore_some hb]
    refine ⟨⟨?_, ?_, ?_⟩, run_not_optional rfl a v⟩
    · simp [run, hclient]
    · simp [run, hclient]
    · exact fun _ => runPing_retries hclient a
  · -- the client is told to connect to the endpoint that was just selected
    have hs : v.state = .connecting := hr.state_eq hsrc
    obtain ⟨hsel, hnone⟩ := h.pinged (hr.event.symm.trans hev)
    rw [runBefore_some hb]
    refine ⟨⟨fun _ _ => ?_, ?_, fun _ p hp => ?_⟩, runClientConnect_not_optional hsel _ _⟩
    · rw [run_kept_endpoint (by simp)]
      exact hsel
    · simp [run_state, Idles, hs]
    · exact absurd (retryAt_run (by simp) hp) (hnone hs p)
  · have hs : v.state = .recovering := hr.state_eq hsrc
    obtain ⟨hsel, -⟩ := h.pinged (hr.event.symm.trans hev)
    rw [runBefore_some hb]
    refine ⟨⟨fun _ _ => ?_, ?_, ?_⟩, fun o ho => ?_⟩
    · rw [run_kept_endpoint (by simp)]
      exact hsel
    · simp [run_state, Idles, hs]
    · simp [run_state, hs]
    simp only [run, reconnectClient_snd, mem_append] at ho
    rcases ho with ho | ho
    · simp only [disconnect_snd] at ho
      split at ho <;> simp_all [kind]
    · exact runClientConnect_not_optional hsel _ _ o ho
  · have hs : v.state = .disconnected := hr.state_eq hsrc
    rw [runBefore_some hb]
    refine ⟨⟨?_, ?_, ?_⟩, run_not_optional rfl a v⟩ <;> simp [run_state, Engaged, Idles, hs]

variable {q : VpnSessionState}

theorem move_optional (hopt : r.before.all (fun act => !act.kinds.contains .optional) = true)
    (hq : q = .connected → (runBefore r a v).1.selectedEndpoint.isSome = true) :
    ∀ o ∈ (andDo (runBefore r a v) (enter q)).2, o.kind ≠ .optional := by
  refine forall_mem_append.mpr ⟨?_, enter_not_optional hq⟩
  cases hb : r.before with
  | none => simp [runBefore_none hb]
  | some act =>
    rw [runBefore_some hb]
    exact run_not_optional (by simpa [hb] using hopt) a v

theorem move_disconnects (hb : r.before.any disconnects = true) (hq : q ≠ .connecting) (hc : q ≠ .connected) :
    (andDo (runBefore r a v) (enter q)).1.Selected ∧
      ∀ o ∈ (andDo (runBefore r a v) (enter q)).2, o.kind ≠ .optional := by
  cases hact : r.before with
  | none => simp [hact] at hb
  | some act =>
    have hdis : disconnects act = true := by simpa [hact] using hb
    have hopt : act.kinds.contains .optional = false := by
      cases act <;> simp_all [disconnects, Action.kinds]
    have hclient := run_disconnects hdis a v
    refine ⟨?_, move_optional (by simpa [hact] using hopt) fun h => absurd h hc⟩
    rw [runBefore_some hact]
    constructor <;> simp [hclient, hq]

theorem move_selected (h : Receives e v) (hr : machine.Taken r e a v) (ht : r.target = some q) :
    (andDo (runBefore r a v) (enter q)).1.Selected ∧
      ∀ o ∈ (andDo (runBefore r a v) (enter q)).2, o.kind ≠ .optional := by
  obtain ⟨hconnecting, hrecovering, hwaiting, hconnected, hdisconnected⟩ := move_rows r hr.mem
  cases q with
  | connecting =>
    rcases hconnecting ht with hb | ⟨hev, hb⟩
    · refine ⟨?_, move_optional (by simp [hb, Action.kinds]) (by simp)⟩
      rw [runBefore_some hb]
      constructor <;> simp [run]
    · have hclient := h.connect (hr.event.symm.trans hev)
      refine ⟨?_, move_optional (by simp [hb, Action.kinds]) (by simp)⟩
      rw [runBefore_some hb]
      refine ⟨?_, by simp [Idles], fun _ => runPing_retries hclient a⟩
      simp [run, hclient]
  | recovering =>
    obtain ⟨hsrc, hb⟩ := hrecovering ht
    have hclient := h.idles (.inl (hr.state_eq hsrc))
    rcases hb with hb | ⟨hb, hping⟩
    · refine ⟨?_, move_optional (by simp [hb, Action.kinds]) (by simp)⟩
      rw [runBefore_some hb]
      constructor <;> simp [run, hclient]
    -- no ping is needed, so an endpoint is selected
    have hsel : v.selectedEndpoint.isSome = true := by
      have hno := Machine.not_holds_of_shadowed hr hping
      simp only [machine, holds, needToPingOnRecovery, Bool.or_eq_false_iff] at hno
      simpa using hno.1.1
    rw [runBefore_some hb]
    refine ⟨⟨fun _ _ => ?_, by simp [Idles], by simp⟩,
      forall_mem_append.mpr ⟨runClientConnect_not_optional hsel _ _, enter_not_optional (by simp)⟩⟩
    rw [andDo_fst, enter_fst]
    rw [run_kept_endpoint (by simp)]
    exact hsel
  | waitingRecovery => exact move_disconnects (hwaiting (.inl ht)) (by simp) (by simp)
  | waitingForNetwork => exact move_disconnects (hwaiting (.inr ht)) (by simp) (by simp)
  | connected =>
    obtain ⟨hev, hsrc, hb⟩ := hconnected ht
    have he : e = .clientReady := hr.event.symm.trans hev
    have heng : v.Engaged := hsrc.imp hr.state_eq hr.state_eq
    have hsel := h.engaged (by simp [he]) heng (h.ready he)
    refine ⟨by constructor <;> simp [Engaged, Idles], ?_⟩
    rcases hb with hb | hb
    · refine move_optional (by simp [hb, Action.kinds]) fun _ => ?_
      rw [runBefore_some hb, run_kept_endpoint (by simp)]
      exact hsel
    · refine move_optional (by simp [hb, Action.kinds]) fun _ => ?_
      rw [runBefore_some hb]
      exact hsel
  | disconnected =>
    refine ⟨by constructor <;> simp [Engaged, Idles], ?_⟩
    exact move_optional (hdisconnected ht) (by simp)

theorem abandon_taken (h : v.Engaged) (a : EventArg) : ∃ r, machine.Taken r .abandonEndpoint a v := by
  rcases h with hs | hs
  · exact Machine.exists_taken (r := row (some .connecting) .abandonEndpoint none (some .retryConnect) none none)
      (by decide) (.inr (congrArg some hs.symm)) rfl rfl
  exact Machine.exists_taken (r := row (some .recovering) .abandonEndpoint none (some .prepareForRecovery)
      (some .waitingRecovery) (some .raiseState))
    (by decide) (.inr (congrArg some hs.symm)) rfl rfl

theorem perform_selected (h : Receives e v) :
    (performTransition e a v).1.Selected ∧ ∀ o ∈ (performTransition e a v).2, o.kind ≠ .optional := by
  rcases perform_cases e a v with ⟨hno, hnot⟩ | ⟨r, hr, -, ⟨ht, hstay⟩ | ⟨q, ht, hmove⟩⟩
  · rw [hno]
    refine ⟨⟨fun heng => ?_, h.idles, h.retries⟩, by simp⟩
    refine h.engaged (fun he => hnot ?_) heng
    subst he
    exact abandon_taken heng a
  · rw [hstay]
    exact stay_selected h hr ht
  · rw [hmove]
    exact move_selected h hr ht

end Event

/-! ## Calls -/

theorem Selected.receives (h : v.Selected) {e : ConnectEvent} (hconnect : e ≠ .doConnect)
    (hpinged : e ≠ .pingReady) (hready : e ≠ .clientReady) (hretry : e ≠ .retryConnect) : Receives e v :=
  ⟨fun _ => h.engaged, h.idles, h.retries, fun he => absurd he hconnect,
    fun he => absurd he hpinged, fun he => absurd he hready, fun he => absurd he hretry⟩

def Intake.Selects (i : Intake) : Prop :=
  (i.event = none → i.vpn.Selected) ∧ ∀ e a, i.event = some (e, a) → Receives e i.vpn

theorem Selected.quiet (h : v.Selected) (outs : List Out) : Intake.Selects { vpn := v, outs := outs } :=
  ⟨fun _ => h, by simp⟩

theorem Receives.raised {e : ConnectEvent} (h : Receives e v) (d : EventData) (env : Env) :
    (raises v e d env).Selects := by
  refine ⟨by simp [raises], fun e' a hev => ?_⟩
  simp only [raises, Option.some.injEq, Prod.mk.injEq] at hev
  rw [← hev.1]
  exact h

theorem finish_selected {i : Intake} (houts : ∀ o ∈ i.outs, o.kind ≠ .optional) (hi : i.Selects) :
    (finish i).1.Selected ∧ ∀ o ∈ (finish i).2, o.kind ≠ .optional := by
  unfold finish
  split
  · next hev => exact ⟨hi.1 hev, houts⟩
  · next e a hev =>
    obtain ⟨hsel, hev⟩ := perform_selected (hi.2 e a hev)
    exact ⟨hsel, forall_mem_append.mpr ⟨houts, hev⟩⟩

theorem Selected.submit (h : v.Selected) (ht : t ≠ .retryConnect) (l : LoopState) :
    ({ v with loop := l }.submit t).Selected := by
  refine ⟨h.engaged, h.idles, fun hs p hp => h.retries hs p ?_⟩
  exact retryAt_append hp (by simpa using ht.symm)

theorem Selected.pop (h : v.Selected) {rest : List Task} (hq : v.queue = t :: rest) : (v.pop rest).Selected := by
  refine ⟨h.engaged, h.idles, fun hs p hp => ?_⟩
  have hold : v.RetryAt (p + 1) := by
    rw [RetryAt, hq]
    exact hp
  obtain ⟨hclient, hlater⟩ := h.retries hs (p + 1) hold
  refine ⟨hclient, fun w hw => ?_⟩
  obtain ⟨w', hw', rfl⟩ := map_eq_some_iff.mp hw
  have := hlater w' hw'
  omega

theorem abandonEndpoint_selects (h : v.Selected) (n : VpnEndpoint) (env : Env) : (v.abandonEndpoint n env).Selects := by
  obtain ⟨hkept, hev⟩ := abandonEndpoint_raises v n env
  obtain ⟨s, c, p, b, heq⟩ := abandonEndpoint_vpn v n env
  rw [Intake.Selects, heq]
  refine ⟨fun hnone => ?_, fun e a hsome => ?_⟩
  · have hs : s = v.selectedEndpoint := by simpa [heq] using hkept hnone
    subst hs
    exact ⟨h.engaged, h.idles, h.retries⟩
  · cases hev e a hsome
    exact ⟨fun hne => absurd rfl hne, h.idles, h.retries, nofun, nofun, nofun, nofun⟩

open Selected Receives

theorem runTask_selects (h : v.Selected) (env : Env) (hconnect : t.isConnect = true → v.clientState = .disconnected)
    (hretry : t = .retryConnect → v.state = .connecting → v.clientState = .disconnected) :
    (v.runTask env t).Selects := by
  cases t with
  | abandonEndpoint n => exact abandonEndpoint_selects h n env
  | connect c i =>
    refine raised ?_ _ env
    exact ⟨fun _ => h.engaged, h.idles, h.retries, fun _ => hconnect rfl, nofun, nofun, nofun⟩
  | retryConnect =>
    refine raised ?_ _ env
    exact ⟨fun _ => h.engaged, h.idles, h.retries, nofun, nofun, nofun, fun _ => hretry rfl⟩
  | forceDisconnect fatal =>
    refine raised (receives ?_ (by simp) (by simp) (by simp) (by simp)) _ env
    cases fatal <;> exact ⟨h.engaged, h.idles, h.retries⟩
  | _ =>
    refine raised (receives ?_ (by simp) (by simp) (by simp) (by simp)) _ env
    exact ⟨h.engaged, h.idles, h.retries⟩

theorem selected_reset (v : Vpn) : v.reset.Selected := by
  constructor <;> simp [reset]

theorem pingerHandler_receives (hun : v.Unselected) (h : v.Selected) (r : PingerResult) (env : Env)
    (hp : v.pinger = some 0) : ∀ e a, (v.pingerHandler r env).event = some (e, a) →
      Receives e (v.pingerHandler r env).vpn := by
  intro e a hev
  have hclient : v.Engaged → v.clientState = .disconnected := by
    intro heng
    by_contra hne
    have hsel := h.engaged heng hne
    rw [hun (by simp [hp])] at hsel
    cases hsel
  have hnone : v.state = .connecting → ∀ p, ¬v.RetryAt p := by
    intro hs p hr
    have hlater := (h.retries hs p hr).2 0 hp
    omega
  have hpinged : e = .pingReady → (v.pingerHandler r env).vpn.selectedEndpoint.isSome = true := by
    rintro rfl
    unfold pingerHandler at hev ⊢
    dsimp only at hev ⊢
    split at hev
    · cases hev
    · split at hev
      · cases hev
      · simp [*]
  obtain ⟨s, b, heq⟩ := pingerHandler_vpn v r env
  have hevent := pingerHandler_event hev
  rw [heq] at hpinged ⊢
  refine ⟨fun _ heng hne => absurd (hclient heng) hne, h.idles, fun hs p hr => absurd hr (hnone hs p), ?_,
    fun he => ⟨hpinged he, hnone⟩, ?_, ?_⟩
  all_goals
    rintro rfl
    simp at hevent

theorem pingerHandler_reports (v : Vpn) (r : PingerResult) (env : Env) : (v.pingerHandler r env).event ≠ none := by
  unfold pingerHandler
  dsimp only
  split
  · simp
  · split <;> simp

theorem selected_step (hord : v.Ordered) (hun : v.Unselected) (h : v.Selected) (c : Call) :
    (v.step c).1.Selected ∧ ∀ o ∈ (v.step c).2, o.kind ≠ .optional := by
  have htaken := takenIn_intake v c
  have houts := intake_kinds htaken
  unfold step
  generalize v.intake c = i at htaken houts ⊢
  have hi : i.Selects := by
    cases htaken with
    | submit _ _ t ht hl => exact (h.submit (by rintro rfl; cases ht) v.loop).quiet _
    | connect p hl => exact (h.submit (by simp) .running).quiet _
    | stop hl => exact (h.submit (by simp) .stopping).quiet _
    | unstarted hl | stopped hl => exact (selected_reset v).quiet _
    | task t rest env hq hl =>
      refine runTask_selects (h.pop hq) env (fun ht => ?_) (fun ht hs => ?_)
      · -- the first task of a session: nothing has been done yet
        exact (hord.clean (.inr ⟨t, by simp [hq], ht⟩)).clientState
      · exact (h.retries hs 0 (by simp [RetryAt, hq, ht])).1
    | pinger r env hp =>
      exact ⟨fun hev => absurd hev (pingerHandler_reports v r env), pingerHandler_receives hun h r env hp⟩
    | clientConnected env hcl =>
      have hne : v.clientState ≠ .disconnected := by simp [hcl]
      refine raised ?_ _ env
      exact ⟨fun _ heng _ => h.engaged heng hne, fun hidles => absurd (h.idles hidles) hne,
        fun hs p hr => absurd (h.retries hs p hr).1 hne, nofun, nofun, nofun, nofun⟩
    | clientDisconnected error env hl =>
      refine raised (receives ?_ (by simp) (by simp) (by simp) (by simp)) _ env
      exact ⟨fun _ hne => absurd rfl hne, fun _ => rfl, fun hs p hr => ⟨rfl, (h.retries hs p hr).2⟩⟩
    | recoveryTask env i rest hd =>
      simp only [recoveryTask, hd]
      refine raised (receives ?_ (by simp) (by simp) (by simp) (by simp)) _ env
      exact ⟨h.engaged, h.idles, h.retries⟩
    | postponementTimer ht =>
      rw [postponementWindowTimerCb_fst]
      refine quiet ?_ _
      exact ⟨h.engaged, h.idles, h.retries⟩
    | _ => exact h.quiet _
  refine finish_selected (fun o ho => ?_) hi
  rcases houts o ho with hk | hk | hk <;> simp [hk]

/-! ## Runs -/

theorem run_reads (act : Action) (a : EventArg) (v : Vpn) : ∀ o ∈ (run act a v).2, o.readsEndpoint = true →
      (run act a v).1.selectedEndpoint.isSome = true := by
  intro o ho hreads
  have hkind := run_kinds act a v o ho
  cases act with
  | connectClient =>
    rw [run_kept_endpoint (by simp)]
    simp only [run] at ho
    cases hs : v.selectedEndpoint <;> simp_all [readsEndpoint]
  | reconnectClient =>
    rw [run_kept_endpoint (by simp)]
    cases hs : v.selectedEndpoint with
    | some s => rfl
    | none =>
      simp only [run, reconnectClient_snd, mem_append] at ho
      rcases ho with ho | ho <;> simp_all [readsEndpoint]
  | raiseState =>
    rw [run_kept_endpoint (by simp)]
    simp only [run, raiseState_snd, stateInfo] at ho
    cases hs : v.selectedEndpoint <;> cases hst : v.state <;> simp_all [readsEndpoint]
  | _ => cases o <;> simp_all [readsEndpoint, kind, Action.kinds]

theorem perform_reads (e : ConnectEvent) (a : EventArg) (v : Vpn) :
    ∀ o ∈ (performTransition e a v).2, o.readsEndpoint = true →
      (performTransition e a v).1.selectedEndpoint.isSome = true := by
  refine perform_spec (Q := fun w => ∀ o ∈ w.2, o.readsEndpoint = true → w.1.selectedEndpoint.isSome = true)
    (by simp) (fun r act _ _ _ => run_reads act a v) fun q w hw => forall_mem_append.mpr ⟨?_, ?_⟩
  · rw [andDo_fst, enter_fst]
    exact hw
  · exact run_reads .raiseState a { w.1 with state := q }

theorem step_reads (v : Vpn) (c : Call) : ∀ o ∈ (v.step c).2, o.readsEndpoint = true →
      (v.step c).1.selectedEndpoint.isSome = true := by
  have houts := intake_kinds (takenIn_intake v c)
  have hreads : ∀ o ∈ (v.intake c).outs, o.readsEndpoint = false := by
    intro o ho
    rcases houts o ho with hk | hk | hk <;> cases o <;> simp_all [kind, readsEndpoint]
  unfold step finish
  split
  · intro o ho hr
    simp [hreads o ho] at hr
  · refine forall_mem_append.mpr ⟨fun o ho hr => ?_, perform_reads _ _ _⟩
    simp [hreads o ho] at hr

/-- In every run an empty optional is never used, and each time the client is told to connect and each
time `CONNECTED` is raised an endpoint is selected. -/
theorem endpoint_present (k : Bool) (es : List Call) :
    badOptionalAccess ∉ System.outputs ((system k).trace (system k).init es) ∧
      ∀ r ∈ (system k).trace (system k).init es, ∀ o ∈ r.outs, o.readsEndpoint = true →
        r.after.selectedEndpoint.isSome = true := by
  have hrun := (system k).inv_run (J := fun hist v => v.Ordered ∧ v.Unselected ∧ v.Selected ∧
      badOptionalAccess ∉ System.outputs hist ∧
      ∀ r ∈ hist, ∀ o ∈ r.outs, o.readsEndpoint = true → r.after.selectedEndpoint.isSome = true)
    ⟨ordered_opened k 0, nofun, ⟨nofun, nofun, nofun⟩, by simp, by simp⟩ ?_ es
    (System.meets_true _ _ _)
  · exact hrun.2.2.2
  rintro hist v c ⟨hord, hun, hsel, hnone, hold⟩ -
  obtain ⟨hnext, houts⟩ := selected_step hord hun hsel c
  refine ⟨ordered_step hord c, unselected_step hun c, hnext, ?_, ?_⟩
  · rw [System.outputs_append, System.outputs_record, mem_append]
    exact fun hbad => hbad.elim hnone fun hbad => houts _ hbad rfl
  · exact forall_mem_append.mpr ⟨hold, forall_mem_singleton.mpr (step_reads v c)⟩

/-! ## The states the application is told -/

def toldState : Out → Option VpnSessionState
  | .stateChanged _ q _ => some q
  | _ => none

/-- The states that can follow a state. -/
def follows : VpnSessionState → List VpnSessionState
  | .disconnected => [.connecting]
  | .connecting => [.connected, .waitingRecovery, .waitingForNetwork, .disconnected]
  | .connected => [.waitingRecovery, .waitingForNetwork, .disconnected]
  | .waitingRecovery => [.recovering, .waitingForNetwork, .disconnected]
  | .recovering => [.connected, .waitingRecovery, .waitingForNetwork, .disconnected]
  | .waitingForNetwork => [.connecting, .waitingRecovery, .disconnected]

/-- The state is kept and nothing is told, or it is changed once and told. -/
def Moves (v : Vpn) (p : Vpn × List Out) : Prop :=
  (p.1.state = v.state ∧ p.2.filterMap toldState = []) ∨
    (p.1.state ∈ follows v.state ∧ p.2.filterMap toldState = [p.1.state])

-- a row for any state is not taken in a state that has a row of its own for the event
theorem rows_follow (s : VpnSessionState) : ∀ r ∈ transitionTable, r.before ≠ some .raiseState ∧
    ((r.source = some s ∨ r.source = none ∧ ∀ r' ∈ Machine.above transitionTable r,
      r'.event = r.event → r'.condition = none → r'.source ≠ some s) →
    r.target.all (follows s).contains = true) := by
  cases s <;> decide +kernel

theorem told_nil {l : List Out} (h : ∀ o ∈ l, o.kind ≠ .stateChanged) : l.filterMap toldState = [] := by
  refine filterMap_eq_nil_iff.mpr fun o ho => ?_
  have := h o ho
  cases o <;> simp_all [toldState, kind]

variable {v : Vpn} {e : ConnectEvent} {a : EventArg}

theorem perform_moves (hopt : ∀ o ∈ (performTransition e a v).2, o.kind ≠ .optional) :
    v.Moves (performTransition e a v) := by
  rcases perform_cases e a v with ⟨hno, -⟩ | ⟨r, hr, hmem, h⟩
  · rw [hno]
    exact .inl ⟨rfl, rfl⟩
  obtain ⟨hraise, hrow⟩ := rows_follow v.state r hmem
  have hquiet : (runBefore r a v).2.filterMap toldState = [] := by
    refine told_nil fun o ho hk => ?_
    cases hb : r.before with
    | none => simp [runBefore_none hb] at ho
    | some act =>
      rw [runBefore_some hb] at ho
      have := run_kinds act a v o ho
      cases act <;> simp_all [Action.kinds]
  rcases h with ⟨-, hstay⟩ | ⟨q, ht, hmove⟩
  · rw [hstay]
    exact .inl ⟨runBefore_state r a v, hquiet⟩
  have hfollows : q ∈ follows v.state := by
    have := hrow (hr.source.symm.imp_right fun hs => ⟨hs, fun r' hr' hev hc hsrc => ?_⟩)
    · simpa [ht] using this
    · have hnot := Machine.not_fits_above hr hr'
      simp [Machine.fits, hc, hsrc, hev, hr.event, machine] at hnot
  rw [hmove] at hopt ⊢
  refine .inr ⟨by simpa using hfollows, ?_⟩
  rw [andDo_snd, filterMap_append, hquiet, nil_append, andDo_fst, enter_fst, enter, raiseState_snd]
  have hlast := fun o ho => hopt o (mem_append_right _ ho)
  rw [enter, raiseState_snd] at hlast
  cases hi : stateInfo { (runBefore r a v).1 with state := q } with
  | none => simp [hi, kind] at hlast
  | some i => simp [toldState]

theorem step_moves (hord : v.Ordered) {c : Call} (hc : c.isStopped = false)
    (hopt : ∀ o ∈ (v.step c).2, o.kind ≠ .optional) : v.Moves (v.step c) := by
  have htaken := takenIn_intake v c
  have hquiet : (v.intake c).outs.filterMap toldState = [] :=
    told_nil fun o ho => by rcases intake_kinds htaken o ho with h | h | h <;> simp [h]
  unfold step at hopt ⊢
  have hstate : (v.intake c).vpn.state = v.state := by
    generalize v.intake c = i at htaken
    cases htaken with
    | unstarted hl => exact (hord.clean (.inl (by simp [hl, LoopState.runs]))).state.symm
    | stopped hl => cases hc
    | task t rest env hq hl => rw [runTask_vpn]; rfl
    | pinger r env hp =>
      obtain ⟨s, b, heq⟩ := pingerHandler_vpn v r env
      rw [heq]
    | recoveryTask env i rest hd => simp [recoveryTask, hd, raises]
    | postponementTimer ht => simp
    | _ => rfl
  generalize v.intake c = i at *
  unfold finish at hopt ⊢
  split at hopt
  · exact .inl ⟨hstate, hquiet⟩
  · have := perform_moves fun o ho => hopt o (mem_append_right _ ho)
    simpa [Moves, hquiet, hstate] using this

/-- In every run each call, but for the end of `vpn_stop`, keeps the state and reports none, or takes it to one
that can follow, and reports that. -/
theorem states_told (k : Bool) (es : List Call) : (system k).init.state = .disconnected ∧
    ∀ r ∈ (system k).trace (system k).init es, r.call.isStopped = false → r.before.Moves (r.after, r.outs) := by
  refine ⟨rfl, fun r hr hc => ?_⟩
  obtain ⟨⟨hord, hun, hsel⟩, -, heq⟩ := (system k).inv_records (C := fun _ _ => True)
    (I := fun v => v.Ordered ∧ v.Unselected ∧ v.Selected)
    ⟨ordered_opened k 0, nofun, ⟨nofun, nofun, nofun⟩⟩
    (fun v c h _ => ⟨ordered_step h.1 c, unselected_step h.2.1 c, (selected_step h.1 h.2.1 h.2.2 c).1⟩)
    (System.meets_true _ _ es) r hr
  rw [heq]
  exact step_moves hord hc (selected_step hord hun hsel r.call).2

end Vpn

end TrustTunnel
