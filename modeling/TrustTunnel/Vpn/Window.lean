import TrustTunnel.Vpn.Invariant

/-!
# Vpn.Window

The postponement window: the timer, the connect requests it holds back and the ids of the
connections that were bypassed because of a recovery.

`finalize_recovery` closes the window, and `initiate_recovery` is the only action that opens it. A
session leaves the recovery states for `CONNECTED` through `finalize_recovery`, unless the network was
lost during a recovery before the first connection (`RegainsWithOpenWindow`).
-/

namespace TrustTunnel

open Lib

/-- The actions that open, close or fill the postponement window of a recovery. -/
def Action.touchesWindow : Action → Bool
  | .prepareForRecovery | .prepareForRecoveryNc | .finalizeRecovery => true
  | _ => false

/-- The actions on a connect request that cannot be completed now. -/
def Action.putsOff : Action → Bool
  | .postponeRequest | .rejectRequest | .bypassUntilConnected => true
  | _ => false

variable {v : Vpn}

namespace Vpn

def window (v : Vpn) : Bool × List ConnectRequestResult × List ConnId :=
  (v.postponementWindowTimer, v.postponedRequests, v.bypassedConnectionIds)

/-- The timer is not armed, no request is held back, no id is recorded as bypassed. -/
def WindowClosed (v : Vpn) : Prop := v.window = (false, [], [])

instance (v : Vpn) : Decidable v.WindowClosed := inferInstanceAs (Decidable (_ = _))

def Settled (v : Vpn) : Prop := v.state = .connecting ∨ v.state = .connected

/-- The loop tells the session that the network is back while it waits for it, has never been
connected, has attempts left and still has the window of a recovery open. -/
def RegainsWithOpenWindow (v : Vpn) (c : Call) : Prop :=
  (v.taskOf c).any isNetworkRegained = true ∧ v.state = .waitingForNetwork ∧
    v.connectedOnce = false ∧ v.noConnectAttempts = false ∧ ¬v.WindowClosed

instance (v : Vpn) (c : Call) : Decidable (v.RegainsWithOpenWindow c) :=
  inferInstanceAs (Decidable (_ ∧ _))

theorem Clean.windowClosed (h : v.Clean) : v.WindowClosed := by
  simp [WindowClosed, window, h.timer, h.postponed, h.bypassed]

/-! ## Transitions -/

theorem run_window {act : Action} (h : act.touchesWindow = false) {a : EventArg}
    (hd : act.putsOff = true → requestsOf a.data = []) (v : Vpn) : (run act a v).1.window = v.window := by
  cases act <;> simp_all [run, window, Action.touchesWindow, Action.putsOff]

theorem stay_window : ∀ r ∈ transitionTable, r.target = none → r.before.all (fun act => !act.touchesWindow &&
      (!act.putsOff || Machine.shadowed transitionTable r .canComplete)) = true := by
  decide

theorem into_connecting : ∀ r ∈ transitionTable, r.target = some .connecting →
    (r.event = .doConnect ∧ r.before = some .runPing) ∨
      (r.event = .networkChange ∧ r.source = some .waitingForNetwork ∧ r.before = some .retryConnect ∧
        Machine.shadowed transitionTable r .networkLost = true ∧
        Machine.shadowed transitionTable r .connectedOnce = true ∧
        Machine.shadowed transitionTable r .noConnectAttempts = true) := by
  decide

theorem requestsOf_of_not_canComplete (h : v.Settled) {d : EventData} {env : Env}
    (hc : canComplete d env v = false) : requestsOf d = [] := by
  cases d with
  | request r => rcases h with h | h <;> simp [canComplete, h] at hc
  | _ => rfl

theorem stay_keeps_window {r : Row VpnSessionState ConnectEvent Condition Action} {e : ConnectEvent}
    {a : EventArg} {v : Vpn} (hr : machine.Taken r e a v) (hmem : r ∈ transitionTable)
    (ht : r.target = none) (hs : v.Settled) : (runBefore r a v).1.window = v.window := by
  have hrow := stay_window r hmem ht
  cases hb : r.before with
  | none => rw [runBefore_none hb]
  | some act =>
    simp only [hb, Option.all_some, Bool.and_eq_true, Bool.not_eq_true', Bool.or_eq_true] at hrow
    obtain ⟨htouch, hoff⟩ := hrow
    rw [runBefore_some hb]
    refine run_window htouch (fun hputs => ?_) v
    rw [hputs, Bool.true_eq_false, false_or] at hoff
    exact requestsOf_of_not_canComplete hs (Machine.not_holds_of_shadowed hr hoff)

/-- An event keeps the window closed in the settled states, unless it is one of the two that enter
`CONNECTING` and the window is open then. -/
theorem window_perform (h : v.Settled → v.WindowClosed) (e : ConnectEvent) (a : EventArg)
    (hconnect : e = .doConnect → v.WindowClosed)
    (hregain : e = .networkChange → v.state = .waitingForNetwork → a.data ≠ .network .notConnected →
      v.connectedOnce = false → v.noConnectAttempts = false → v.WindowClosed)
    (hs : (performTransition e a v).1.Settled) : (performTransition e a v).1.WindowClosed := by
  rcases perform_cases e a v with ⟨hno, -⟩ | ⟨r, hr, hmem, ⟨ht, hstay⟩ | ⟨q, ht, hmove⟩⟩
  · rw [hno] at hs ⊢
    exact h hs
  · rw [hstay] at hs ⊢
    have hsv : v.Settled := by simpa only [Settled, runBefore_state] using hs
    rw [WindowClosed, stay_keeps_window hr hmem ht hsv]
    exact h hsv
  · have hq : q = .connecting ∨ q = .connected := by
      simpa only [hmove, andDo_fst, Settled, enter_fst] using hs
    have hwindow : (performTransition e a v).1.window = (runBefore r a v).1.window := by
      rw [hmove, andDo_fst, enter_fst]
      rfl
    rw [WindowClosed, hwindow]
    rcases hq with rfl | rfl
    · rcases into_connecting r hmem ht with ⟨he, hb⟩ | ⟨he, hsource, hb, hlost, honce, hleft⟩
      · rw [runBefore_some hb]
        exact hconnect (hr.event.symm.trans he)
      rw [runBefore_some hb, run_window rfl (by simp [Action.putsOff])]
      refine hregain (hr.event.symm.trans he) (hr.state_eq hsource) ?_ ?_ ?_
      · simpa [machine, holds] using Machine.not_holds_of_shadowed hr hlost
      · exact Machine.not_holds_of_shadowed hr honce
      · exact Machine.not_holds_of_shadowed hr hleft
    · rcases into_connected r hmem ht with ⟨hsource, hb⟩ | ⟨-, hb⟩
      · rw [runBefore_some hb, run_window rfl (by simp [Action.putsOff])]
        exact h (.inl (hr.state_eq hsource))
      · rw [runBefore_some hb]
        simp [run, window]

/-! ## Calls -/

theorem window_step (hord : v.Ordered) (h : v.Settled → v.WindowClosed) (c : Call)
    (hc : ¬v.RegainsWithOpenWindow c) (hs : (v.step c).1.Settled) : (v.step c).1.WindowClosed := by
  have hdoes := does_step v c
  generalize v.step c = r at hdoes hs ⊢
  -- the work of the call keeps state and window, and what its event needs holds
  have hfinish : ∀ i : Intake, i.vpn.state = v.state → i.vpn.window = v.window →
      (∀ e a, i.event = some (e, a) → (e = .doConnect → i.vpn.WindowClosed) ∧
        (e = .networkChange → i.vpn.state = .waitingForNetwork → a.data ≠ .network .notConnected →
          i.vpn.connectedOnce = false → i.vpn.noConnectAttempts = false → i.vpn.WindowClosed)) →
      (finish i).1.Settled → (finish i).1.WindowClosed := by
    intro i hstate hwindow hevent
    have hi : i.vpn.Settled → i.vpn.WindowClosed := by
      intro hi
      rw [WindowClosed, hwindow]
      exact h (by simpa only [Settled, hstate] using hi)
    refine finish_inv (P := fun w => w.Settled → w.WindowClosed) (fun _ => hi) fun e a he => ?_
    exact window_perform hi e a (hevent e a he).1 (hevent e a he).2
  cases hdoes with
  | notes c i hn =>
    refine hfinish i (by rw [hn.vpn]; rfl) (by rw [hn.vpn]; rfl) (fun e a he => ?_) hs
    obtain ⟨hconnect, -, -, hnetwork, -⟩ := ConnectEvent.of_report (hn.event e a he)
    exact ⟨fun hd => absurd hd hconnect, fun hd => absurd hd hnetwork⟩
  | resets c hreset => rfl
  | task t rest env hq hl =>
    have hwindow : ((v.pop rest).runTask env t).vpn.window = v.window := by rw [runTask_vpn]; rfl
    refine hfinish _ (by rw [runTask_vpn]; rfl) hwindow (fun e a he => ?_) hs
    obtain ⟨hconnect, -, -, -, hnetwork⟩ := runTask_event he
    refine ⟨fun hd => ?_, fun hn hst hdata honce hleft => ?_⟩
    · rw [WindowClosed, hwindow]
      exact (hord.clean (.inr ⟨t, by simp [hq], hconnect hd⟩)).windowClosed
    obtain ⟨s, rfl, hstatus⟩ := hnetwork hn
    have hregained : s = .connected := by
      cases s with
      | connected => rfl
      | notConnected => exact absurd hstatus hdata
    subst hregained
    by_contra hopen
    exact hc ⟨by simp [taskOf, hq, hl, isNetworkRegained], hst, honce, hleft, hopen⟩
  | timer ht =>
    -- the timer would not be armed
    have hclosed : v.WindowClosed := h (by simpa [Settled] using hs)
    rw [WindowClosed, window, ht] at hclosed
    cases hclosed
  | _ => exact h hs

/-! ## Runs -/

theorem postponementTimer_of_closed (h : v.WindowClosed) : v.step .postponementTimer = (v, []) := by
  have htimer : v.postponementWindowTimer = false := congrArg Prod.fst h
  simp [step, intake, htimer, ignored, finish]

/-- If the network never comes back with the window of a recovery open before the first connection,
the window is closed in every `CONNECTED` state, and the timer completes no request there. -/
theorem connected_windowClosed (k : Bool) (es : List Call)
    (hes : (system k).Meets (fun v c => ¬v.RegainsWithOpenWindow c) (system k).init es) :
    (((system k).exec (system k).init es).state = .connected →
      ((system k).exec (system k).init es).postponementWindowTimer = false ∧
      ((system k).exec (system k).init es).postponedRequests = [] ∧
      ((system k).exec (system k).init es).bypassedConnectionIds = []) ∧
    ∀ r ∈ (system k).trace (system k).init es,
      r.before.state = .connected → r.call = .postponementTimer → r.outs = [] := by
  have hrun := (system k).inv_run (J := fun h v => v.Ordered ∧ (v.Settled → v.WindowClosed) ∧ ∀ r ∈ h,
      r.before.state = .connected → r.call = .postponementTimer → r.outs = [])
    ⟨ordered_opened k 0, fun _ => rfl, by simp⟩ ?_ es hes
  · obtain ⟨-, hclosed, htrace⟩ := hrun
    refine ⟨fun hs => ?_, htrace⟩
    simpa only [WindowClosed, window, Prod.mk.injEq] using hclosed (.inr hs)
  · rintro h v c ⟨hord, hclosed, htrace⟩ hc
    refine ⟨ordered_step hord c, window_step hord hclosed c hc,
      List.forall_mem_append.mpr ⟨htrace, List.forall_mem_singleton.mpr fun hs hcall => ?_⟩⟩
    rw [show c = .postponementTimer from hcall]
    exact congrArg Prod.snd (postponementTimer_of_closed (hclosed (.inr hs)))

def connectsAtOnce : List Call :=
  [.connect ⟨someConfig, .severalAttempts 5⟩, .runTask (goodEnv 1), .pingerResult pinged (goodEnv 2),
   .clientConnected (goodEnv 3), .postponementTimer, .clientDisconnected none (goodEnv 4),
   .completeConnectRequest someRequest, .runTask (goodEnv 5), .recoveryTask (goodEnv 1004),
   .clientConnected (goodEnv 1005)]

theorem connected_windowClosed_connectsAtOnce :
    (system false).Meets (fun v c => ¬v.RegainsWithOpenWindow c) (system false).init connectsAtOnce ∧
      ((system false).exec (system false).init connectsAtOnce).state = .connected ∧
      ((system false).exec (system false).init connectsAtOnce).postponedRequests = [] :=
  have hmeets : (system false).Meets (fun v c => ¬v.RegainsWithOpenWindow c) (system false).init
      connectsAtOnce := by decide +kernel
  have hstate : ((system false).exec (system false).init connectsAtOnce).state = .connected := by
    decide +kernel
  ⟨hmeets, hstate, ((connected_windowClosed false connectsAtOnce hmeets).1 hstate).2.1⟩

/-- The network is lost during the first attempt to connect, before the report that the client could
not connect is handled; that report starts a recovery, and the network is lost again. -/
def lostTwice : List Call :=
  [.connect ⟨someConfig, .severalAttempts 5⟩, .runTask (goodEnv 1),
   .notifyNetworkChange .notConnected, .pingerResult pinged (badConnectEnv 2),
   .runTask (goodEnv 3), .runTask (goodEnv 4), .completeConnectRequest someRequest, .runTask (goodEnv 5),
   .notifyNetworkChange .notConnected, .runTask (goodEnv 6),
   .notifyNetworkChange .connected, .runTask (goodEnv 7), .runTask (goodEnv 8),
   .pingerResult pinged (goodEnv 9), .clientConnected (goodEnv 10)]

/-- The session is connected and the timer completes a request. -/
theorem connected_window_open : ((system false).exec (system false).init lostTwice).state = .connected ∧
      ((system false).exec (system false).init lostTwice).postponementWindowTimer = true ∧
      ((system false).exec (system false).init lostTwice).postponedRequests = [someRequest] ∧
      (step ((system false).exec (system false).init lostTwice) .postponementTimer).2 =
        [.completed 7 (some .forceBypass)] := by
  decide +kernel

end Vpn

end TrustTunnel
