import TrustTunnel.Vpn.Invariant

/-!
# Vpn.Recovery

Recovery attempts: how many are scheduled, that at most one is armed, and how a session ends that has
made them all.
-/

namespace TrustTunnel

open Lib

def Out.isRecoveryScheduled : Out → Bool
  | .recoveryScheduled _ => true
  | _ => false

def Call.isRunTask : Call → Bool
  | .runTask _ => true
  | _ => false

theorem Call.eq_runTask {c : Call} (h : c.isRunTask = true) : ∃ env, c = .runTask env := by
  cases c with
  | runTask env => exact ⟨env, rfl⟩
  | _ => cases h

def Action.startsRecovery : Action → Bool
  | .prepareForRecovery | .prepareForRecoveryNc => true
  | _ => false

def Action.resetsRecovery : Action → Bool
  | .completeConnect | .failConnectWithNoAttempts | .finalizeRecovery | .doDisconnect => true
  | _ => false

namespace Vpn

/-! ## The armed task -/

structure Armed (v : Vpn) : Prop where
  deferred : v.deferred = v.recovery.task.toList
  fresh : ∀ i, v.recovery.task = some i → i < v.nextTaskId

theorem cancel_toList (t : Option Nat) : cancel t t.toList = [] := by
  cases t <;> simp [cancel]

theorem cancel_append {t : Option Nat} {n : Nat} (h : ∀ i, t = some i → i < n) :
    cancel t (t.toList ++ [n]) = [n] := by
  cases t with
  | none => simp [cancel]
  | some i =>
    have hne : i ≠ n := Nat.ne_of_lt (h i rfl)
    simp [cancel, hne]

variable {v : Vpn} {act : Action}

theorem Armed.reset (h : v.Armed) : v.resetRecovery.Armed := by
  refine ⟨?_, by simp [resetRecovery]⟩
  simp only [resetRecovery, h.deferred, cancel_toList]
  rfl

theorem initiateRecovery_armed (h : v.Armed) (env : Env) : (v.initiateRecovery env).1.Armed := by
  by_cases hex : v.exhausted = true
  · refine ⟨by simpa [hex] using h.deferred, by simpa [hex] using h.fresh⟩
  · refine ⟨?_, by simp [hex]⟩
    simp [hex, h.deferred, cancel_append h.fresh]

attribute [local simp] run cancelRecoveryTask

theorem run_armed (h : v.Armed) (act : Action) (a : EventArg) : (run act a v).1.Armed := by
  have hreset := h.reset
  have hinit := initiateRecovery_armed h a.env
  cases act with
  | prepareForRecovery => exact ⟨by simpa using hinit.deferred, by simpa using hinit.fresh⟩
  | prepareForRecoveryNc =>
    exact ⟨by simpa using hinit.deferred, by simpa using hinit.fresh⟩
  | runPing =>
    refine ⟨?_, by simp⟩
    simp [h.deferred, cancel_toList]
  | _ =>
    first
    | exact ⟨by simpa using h.deferred, by simpa using h.fresh⟩
    | exact ⟨by simpa [resetRecovery] using hreset.deferred, by simp⟩

theorem Armed.congr {w : Vpn} (h : v.Armed) (hd : w.deferred = v.deferred)
    (ht : w.recovery.task = v.recovery.task) (hn : w.nextTaskId = v.nextTaskId) : w.Armed := by
  refine ⟨by rw [hd, ht, h.deferred], fun i hi => ?_⟩
  rw [hn]
  exact h.fresh i (ht ▸ hi)

theorem runTask_recovery (v : Vpn) (env : Env) (t : Task) : (t = .recoveryFailed ∧
      (v.runTask env t).vpn = { v.resetRecovery with pendingError := some recoveryFailedError }) ∨
    ((v.runTask env t).vpn.recovery = v.recovery ∧ (v.runTask env t).vpn.deferred = v.deferred) := by
  cases t with
  | recoveryFailed => exact .inl ⟨rfl, rfl⟩
  | abandonEndpoint e =>
    obtain ⟨s, c, p, b, heq⟩ := abandonEndpoint_vpn v e env
    rw [runTask, heq]
    exact .inr ⟨rfl, rfl⟩
  | forceDisconnect fatal => cases fatal <;> exact .inr ⟨rfl, rfl⟩
  | _ => exact .inr ⟨rfl, rfl⟩

theorem armed_step (h : v.Armed) (c : Call) : (v.step c).1.Armed := by
  have htaken := takenIn_intake v c
  unfold step
  generalize v.intake c = i at htaken ⊢
  have hi : i.vpn.Armed := by
    cases htaken with
    | task t rest env hq hl =>
      have hpop : (v.pop rest).Armed := h.congr rfl rfl rfl
      have hnext : ((v.pop rest).runTask env t).vpn.nextTaskId = v.nextTaskId := by rw [runTask_vpn]; rfl
      rcases runTask_recovery (v.pop rest) env t with ⟨-, hvpn⟩ | ⟨hrec, hdef⟩
      · rw [hvpn]
        exact hpop.reset.congr rfl rfl rfl
      · exact hpop.congr hdef (by rw [hrec]) hnext
    | pinger r env hp =>
      obtain ⟨s, b, heq⟩ := pingerHandler_vpn v r env
      rw [heq]
      exact h.congr rfl rfl rfl
    | unstarted hl | stopped hl => exact ⟨rfl, by simp [reset]⟩
    | recoveryTask env i rest hd =>
      have hrest : rest = [] := by
        have hlist := h.deferred
        cases ht : v.recovery.task <;> simp_all
      exact ⟨by simp [recoveryTask, hd, raises, hrest], by simp [recoveryTask, hd, raises]⟩
    | postponementTimer ht => exact h.congr (by simp) (by simp) (by simp)
    | _ => exact h.congr rfl rfl rfl
  refine finish_inv (fun _ => hi) fun e a _ => ?_
  refine perform_inv hi (fun r act _ _ _ => run_armed hi act a) fun q w hw => ?_
  rw [enter_fst]
  exact hw.congr rfl rfl rfl

/-! ## The number of attempts -/

def scheduled (outs : List Out) : Nat := outs.countP Out.isRecoveryScheduled

/-- The states that end a recovery: connected, disconnected or without a network. -/
def endsRecovery : VpnSessionState → Bool
  | .connected | .disconnected | .waitingForNetwork => true
  | .connecting | .waitingRecovery | .recovering => false

def sinceReset (h : List (Record Vpn Call Out)) : Nat :=
  h.foldl (fun n r => if endsRecovery r.after.state then 0 else n + scheduled r.outs) 0

theorem scheduled_eq_zero {outs : List Out} (h : ∀ o ∈ outs, o.kind ≠ .recovery) : scheduled outs = 0 := by
  rw [scheduled, List.countP_eq_zero]
  intro o ho hs
  refine h o ho ?_
  cases o <;> simp_all [Out.isRecoveryScheduled, Out.kind]

theorem scheduled_append (l m : List Out) : scheduled (l ++ m) = scheduled l + scheduled m :=
  List.countP_append

theorem enter_scheduled (q : VpnSessionState) : scheduled (enter q v).2 = 0 := by
  refine scheduled_eq_zero fun o ho => ?_
  rcases enter_kinds q v o ho with hk | hk <;> simp [hk]

attribute [local simp] Action.startsRecovery

theorem run_scheduled (h : act.startsRecovery = false) (a : EventArg) : scheduled (run act a v).2 = 0 := by
  refine scheduled_eq_zero fun o ho hk => ?_
  have hmem := run_kinds act a v o ho
  cases act <;> simp_all [Action.kinds]

theorem prepareForRecovery_scheduled (d : EventData) (env : Env) :
    scheduled (v.prepareForRecovery d env).2 = if v.exhausted then 0 else 1 := by
  rw [prepareForRecovery_snd, disconnect_snd, initiateRecovery_snd]
  split <;> split <;> simp [scheduled, Out.isRecoveryScheduled]

/-- An action schedules an attempt only while some are left, and counts it. -/
theorem run_recoveryAttempts (h : act.resetsRecovery = false) (a : EventArg) (v : Vpn) :
    (run act a v).1.recovery.attempts = v.recovery.attempts + scheduled (run act a v).2 ∧
      (scheduled (run act a v).2 ≠ 0 → v.recovery.attempts < v.config.attempts) ∧
      scheduled (run act a v).2 ≤ 1 := by
  have hprepare : ∀ d, (v.prepareForRecovery d a.env).1.recovery.attempts =
        v.recovery.attempts + scheduled (v.prepareForRecovery d a.env).2 ∧
      (scheduled (v.prepareForRecovery d a.env).2 ≠ 0 → v.recovery.attempts < v.config.attempts) ∧
      scheduled (v.prepareForRecovery d a.env).2 ≤ 1 := by
    intro d
    rw [prepareForRecovery_scheduled]
    by_cases hex : v.exhausted = true
    · simp [hex]
    · have hlt : v.recovery.attempts < v.config.attempts := by simpa [exhausted] using hex
      simp [hex, hlt]
  cases hs : act.startsRecovery with
  | false =>
    rw [run_scheduled hs]
    cases act <;> simp_all [Action.resetsRecovery]
  | true =>
    cases act with
    | prepareForRecovery | prepareForRecoveryNc => exact hprepare _
    | _ => simp at hs

theorem run_resetsRecovery (h : act.resetsRecovery = true) (a : EventArg) : (run act a v).1.recovery.attempts = 0 := by
  cases act <;> simp_all [Action.resetsRecovery]

/-- A recovery is only reset on the way to a state that ends it, or in such a state. -/
theorem reset_rows : ∀ r ∈ transitionTable, r.before.any Action.resetsRecovery = true →
    r.target.any endsRecovery = true ∨ (r.target = none ∧ r.source = some .disconnected) := by
  decide

theorem perform_recovery (hb : v.recovery.attempts ≤ v.config.attempts) (e : ConnectEvent) (a : EventArg) :
    (performTransition e a v).1.recovery.attempts ≤ v.config.attempts ∧
      (endsRecovery (performTransition e a v).1.state = false → (performTransition e a v).1.recovery.attempts =
          v.recovery.attempts + scheduled (performTransition e a v).2) := by
  -- the action of a row counts what it schedules, or it resets the recovery
  have hbefore : ∀ r, (runBefore r a v).1.recovery.attempts ≤ v.config.attempts ∧
      ((runBefore r a v).1.recovery.attempts = v.recovery.attempts + scheduled (runBefore r a v).2 ∨
        r.before.any Action.resetsRecovery = true) := by
    intro r
    cases hr : r.before with
    | none =>
      rw [runBefore_none hr]
      exact ⟨hb, .inl rfl⟩
    | some act =>
      rw [runBefore_some hr]
      cases hreset : act.resetsRecovery with
      | true =>
        refine ⟨?_, .inr hreset⟩
        rw [run_resetsRecovery hreset]
        exact Nat.zero_le _
      | false =>
        obtain ⟨hcount, hleft, hone⟩ := run_recoveryAttempts hreset a v
        by_cases h0 : scheduled (run act a v).2 = 0
        · omega
        · omega
  rcases perform_cases e a v with ⟨hno, -⟩ | ⟨r, hr, hmem, ⟨ht, hstay⟩ | ⟨q, ht, hmove⟩⟩
  · rw [hno]
    exact ⟨hb, fun _ => rfl⟩
  · obtain ⟨hle, hcount⟩ := hbefore r
    rw [hstay]
    refine ⟨hle, fun hends => ?_⟩
    rcases hcount with hcount | hreset
    · exact hcount
    rw [runBefore_state] at hends
    rcases reset_rows r hmem hreset with htarget | ⟨-, hsrc⟩
    · simp [ht] at htarget
    · rw [show v.state = .disconnected from hr.state_eq hsrc] at hends
      cases hends
  · obtain ⟨hle, hcount⟩ := hbefore r
    rw [hmove]
    refine ⟨by simpa using hle, fun hends => ?_⟩
    rw [andDo_snd, scheduled_append, enter_scheduled]
    rcases hcount with hcount | hreset
    · simpa using hcount
    have hq : endsRecovery q = false := by simpa using hends
    rcases reset_rows r hmem hreset with htarget | ⟨hnone, -⟩
    · simp [ht, hq] at htarget
    · rw [hnone] at ht
      cases ht

theorem shutdown_taken (a : EventArg) (v : Vpn) : ∃ r, machine.Taken r .shutdown a v :=
  Machine.exists_taken (r := row none .shutdown none (some .doDisconnect) (some .disconnected) (some .raiseState))
    (by decide) (.inl rfl) rfl rfl

theorem shutdown_rows : ∀ r ∈ transitionTable, r.event = .shutdown → r.before = some .doDisconnect ∧
      (r.target = some .disconnected ∨ (r.target = none ∧ r.source = some .disconnected)) := by
  decide

theorem perform_shutdown (a : EventArg) (v : Vpn) : (performTransition .shutdown a v).1.state = .disconnected ∧
      (v.state = .disconnected ∨
        Out.stateChanged v.config.locationId .disconnected (.error (v.pendingError.getD noError)) ∈
          (performTransition .shutdown a v).2) := by
  obtain ⟨r, hr⟩ := shutdown_taken a v
  obtain ⟨hb, ht | ⟨ht, hsrc⟩⟩ := shutdown_rows r hr.mem hr.event
  · have hmove : performTransition .shutdown a v = andDo (run .doDisconnect a v) (enter .disconnected) := by
      rw [← runBefore_some hb]
      exact hr.perform_eq.trans (take_move hr.mem ht a v)
    rw [hmove]
    simp [enter, stateInfo]
  · have hstate : v.state = .disconnected := hr.state_eq hsrc
    have hstay : performTransition .shutdown a v = run .doDisconnect a v := by
      rw [← runBefore_some hb]
      exact hr.perform_eq.trans (take_stay hr.mem ht a v)
    rw [hstay, run_state]
    exact ⟨hstate, .inl hstate⟩

theorem finish_scheduled {i : Intake} (h : ∀ o ∈ i.outs, o.kind ≠ .recovery) :
    scheduled (finish i).2 = i.event.elim 0 fun ea => scheduled (performTransition ea.1 ea.2 i.vpn).2 := by
  have houts := scheduled_eq_zero h
  unfold finish
  split
  · next hnone => simp [houts, hnone]
  · next e a hsome => simp [hsome, scheduled_append, houts]

theorem runTask_configAttempts {t : Task} (ht : t.isConnect = false) (env : Env) :
    (v.runTask env t).vpn.config.attempts = v.config.attempts := by
  cases t with
  | connect c i => simp [Task.isConnect] at ht
  | abandonEndpoint e =>
    obtain ⟨s, c, p, b, heq⟩ := abandonEndpoint_vpn v e env
    rw [runTask, heq]
  | forceDisconnect fatal => cases fatal <;> rfl
  | _ => rfl

theorem recovery_step (hord : v.Ordered) (hb : v.recovery.attempts ≤ v.config.attempts) (c : Call) :
    (v.step c).1.recovery.attempts ≤ (v.step c).1.config.attempts ∧ (endsRecovery (v.step c).1.state = false →
        (v.step c).1.recovery.attempts = v.recovery.attempts + scheduled (v.step c).2) := by
  have hdoes := does_step v c
  generalize v.step c = r at hdoes ⊢
  -- the work of the call leaves the attempts as they were, or its event ends the recovery
  have hfinish : ∀ i : Intake, (∀ o ∈ i.outs, o.kind ≠ .recovery) →
      i.vpn.recovery.attempts ≤ i.vpn.config.attempts →
      (i.vpn.recovery.attempts = v.recovery.attempts ∨ endsRecovery (finish i).1.state = true) →
      (finish i).1.recovery.attempts ≤ (finish i).1.config.attempts ∧ (endsRecovery (finish i).1.state = false →
          (finish i).1.recovery.attempts = v.recovery.attempts + scheduled (finish i).2) := by
    intro i houts hi hsame
    rw [finish_scheduled houts]
    cases he : i.event with
    | none =>
      simp only [finish, he, Option.elim_none] at hsame ⊢
      refine ⟨hi, fun hends => ?_⟩
      rw [hends] at hsame
      simpa using hsame
    | some ea =>
      obtain ⟨hle, hcount⟩ := perform_recovery hi ea.1 ea.2
      simp only [finish, he, Option.elim_some, andDo_fst] at hsame ⊢
      refine ⟨by rw [perform_config]; exact hle, fun hends => ?_⟩
      rw [hends] at hsame
      rw [hcount hends, show i.vpn.recovery.attempts = v.recovery.attempts by simpa using hsame]
  cases hdoes with
  | notes c i hn =>
    exact hfinish i (hn.kind_ne (by simp) (by simp)) (by rw [hn.vpn]; exact hb) (.inl (by rw [hn.vpn]; rfl))
  | resets c hreset => exact ⟨Nat.zero_le _, fun hends => by cases hends⟩
  | task t rest env hq hl =>
    have houts : ∀ o ∈ ((v.pop rest).runTask env t).outs, o.kind ≠ .recovery := by simp [runTask_outs]
    rcases runTask_recovery (v.pop rest) env t with ⟨rfl, hvpn⟩ | ⟨hrec, -⟩
    · refine hfinish _ houts (by exact Nat.zero_le _) (.inr ?_)
      rw [runTask, finish_raises, (perform_shutdown _ _).1]
      rfl
    refine hfinish _ houts ?_ (.inl (by rw [hrec]; rfl))
    rw [hrec]
    cases ht : t.isConnect with
    | true =>
      -- the session starts with a new recovery
      have hclean := hord.clean (.inr ⟨t, by simp [hq], ht⟩)
      show v.recovery.attempts ≤ _
      rw [hclean.recovery]
      exact Nat.zero_le _
    | false =>
      rw [runTask_configAttempts ht]
      exact hb
  | timer ht =>
    refine ⟨by simpa using hb, fun _ => ?_⟩
    rw [scheduled_eq_zero fun o ho => by simp [timer_kinds v o ho]]
    simp
  | _ => exact ⟨hb, fun _ => rfl⟩

/-! ## Exhaustion -/

theorem into_waitingRecovery : ∀ r ∈ transitionTable, r.target = some .waitingRecovery →
    (r.before = some .prepareForRecovery ∨ r.before = some .prepareForRecoveryNc) ∧
      r.event ≠ .doConnect ∧ r.event ≠ .shutdown := by
  decide

theorem perform_exhausted {e : ConnectEvent} {a : EventArg} (hs : v.state ≠ .waitingRecovery)
    (hs' : (performTransition e a v).1.state = .waitingRecovery) : e ≠ .doConnect ∧ e ≠ .shutdown ∧
      (v.exhausted = true → scheduled (performTransition e a v).2 = 0 ∧
        (performTransition e a v).1.queue = v.queue ++ [.recoveryFailed]) := by
  rcases perform_cases e a v with ⟨hno, -⟩ | ⟨r, hr, hmem, ⟨ht, hstay⟩ | ⟨q, ht, hmove⟩⟩
  · rw [hno] at hs'
    exact absurd hs' hs
  · rw [hstay, runBefore_state] at hs'
    exact absurd hs' hs
  have hq : q = .waitingRecovery := by simpa [hmove] using hs'
  subst hq
  obtain ⟨hb, hconnect, hshutdown⟩ := into_waitingRecovery r hmem ht
  rw [hr.event] at hconnect hshutdown
  refine ⟨hconnect, hshutdown, fun hex => ?_⟩
  rw [hmove, andDo_snd, scheduled_append, enter_scheduled]
  rcases hb with hb | hb
  all_goals
    rw [runBefore_some hb]
    refine ⟨by simp [prepareForRecovery_scheduled, hex, -prepareForRecovery_snd], ?_⟩
    simp [hex]

theorem exhausted_step {c : Call} (hs : v.state ≠ .waitingRecovery)
    (hs' : (v.step c).1.state = .waitingRecovery) (hex : v.exhausted = true) :
    scheduled (v.step c).2 = 0 ∧ ∃ l, (v.step c).1.queue = l ++ [.recoveryFailed] := by
  have hdoes := does_step v c
  generalize v.step c = r at hdoes hs' ⊢
  have hfinish : ∀ i : Intake, (∀ o ∈ i.outs, o.kind ≠ .recovery) → i.vpn.state = v.state →
      (∀ e a, i.event = some (e, a) → e ≠ .doConnect → e ≠ .shutdown → i.vpn.exhausted = true) →
      (finish i).1.state = .waitingRecovery →
      scheduled (finish i).2 = 0 ∧ ∃ l, (finish i).1.queue = l ++ [.recoveryFailed] := by
    intro i houts hstate hevent hs'
    rw [finish_scheduled houts]
    cases he : i.event with
    | none =>
      simp only [finish, he] at hs'
      exact absurd (hstate.symm.trans hs') hs
    | some ea =>
      simp only [finish, he] at hs' ⊢
      obtain ⟨hconnect, hshutdown, hend⟩ := perform_exhausted (hstate ▸ hs) hs'
      obtain ⟨hnone, hqueue⟩ := hend (hevent ea.1 ea.2 he hconnect hshutdown)
      exact ⟨hnone, i.vpn.queue, hqueue⟩
  cases hdoes with
  | notes c i hn =>
    exact hfinish i (hn.kind_ne (by simp) (by simp)) (by rw [hn.vpn]; rfl)
      (fun _ _ _ _ _ => by rw [hn.vpn]; exact hex) hs'
  | resets c hreset => cases hs'
  | task t rest env hq hl =>
    refine hfinish _ (by simp [runTask_outs]) (by rw [runTask_vpn]; rfl) (fun e a he hconnect hshutdown => ?_) hs'
    rcases runTask_recovery (v.pop rest) env t with ⟨rfl, -⟩ | ⟨hrec, -⟩
    · cases he
      exact absurd rfl hshutdown
    cases ht : t.isConnect with
    | true =>
      cases t with
      | connect c i =>
        cases he
        exact absurd rfl hconnect
      | _ => simp [Task.isConnect] at ht
    | false =>
      rw [exhausted, runTask_configAttempts ht, hrec]
      exact hex
  | timer ht => exact absurd (by simpa using hs') hs
  | _ => exact absurd hs' hs

theorem recoveryFailed_step (hl : v.loop.runs = true) {rest : List Task}
    (hq : v.queue = .recoveryFailed :: rest) (env : Env) : (v.step (.runTask env)).1.state = .disconnected ∧
      (v.state = .disconnected ∨ Out.stateChanged v.config.locationId .disconnected (.error recoveryFailedError) ∈
          (v.step (.runTask env)).2) := by
  have hstep : v.step (.runTask env) = performTransition .shutdown ⟨.null, env⟩
      { (v.pop rest).resetRecovery with pendingError := some recoveryFailedError } := by
    rw [step_task hl hq env]
    rfl
  rw [hstep]
  exact perform_shutdown _ _

/-! ## Runs -/

theorem sinceReset_append (h : List (Record Vpn Call Out)) (r : Record Vpn Call Out) : sinceReset (h ++ [r]) =
      if endsRecovery r.after.state then 0 else sinceReset h + scheduled r.outs := by
  simp [sinceReset]

structure RecoveryInv (h : List (Record Vpn Call Out)) (v : Vpn) : Prop where
  ordered : v.Ordered
  armed : v.Armed
  attempts : v.recovery.attempts ≤ v.config.attempts
  counted : sinceReset h ≤ v.recovery.attempts
  exhausted : ∀ r ∈ h, r.before.state ≠ .waitingRecovery → r.after.state = .waitingRecovery →
    r.before.config.attempts ≤ r.before.recovery.attempts →
    scheduled r.outs = 0 ∧ ∃ l, r.after.queue = l ++ [.recoveryFailed]

theorem recoveryInv_run (k : Bool) (es : List Call) :
    RecoveryInv ((system k).trace (system k).init es) ((system k).exec (system k).init es) := by
  refine (system k).inv_run ?_ ?_ es ((system k).meets_true _ es)
  · refine ⟨ordered_opened k 0, ⟨rfl, ?_⟩, Nat.zero_le _, Nat.le_refl 0, ?_⟩ <;>
      simp [system, opened]
  intro h v c hinv _
  obtain ⟨hle, hcount⟩ := recovery_step hinv.ordered hinv.attempts c
  refine ⟨ordered_step hinv.ordered c, armed_step hinv.armed c, hle, ?_,
    List.forall_mem_append.mpr ⟨hinv.exhausted, List.forall_mem_singleton.mpr fun hs hs' hex => ?_⟩⟩
  · rw [sinceReset_append]
    show (if endsRecovery (v.step c).1.state = true then 0
      else sinceReset h + scheduled (v.step c).2) ≤ (v.step c).1.recovery.attempts
    split
    · exact Nat.zero_le _
    next hends =>
    have := hcount (by simpa using hends)
    have := hinv.counted
    omega
  · exact exhausted_step hs hs' (decide_eq_true hex)

/-- Between two ends of a recovery at most the configured number of attempts is scheduled, and at most
one of them is armed. One that starts with no attempts left submits its failure; once the loop has come to
it, the session is disconnected, with the location-unavailable error unless it was disconnected by then. -/
theorem recovery_bounded (k : Bool) (es : List Call) : sinceReset ((system k).trace (system k).init es) ≤
        ((system k).exec (system k).init es).config.attempts ∧
    ((system k).exec (system k).init es).deferred.length ≤ 1 ∧ (∀ r ∈ (system k).trace (system k).init es,
      r.before.state ≠ .waitingRecovery → r.after.state = .waitingRecovery →
      r.before.config.attempts ≤ r.before.recovery.attempts →
      scheduled r.outs = 0 ∧ ∃ l, r.after.queue = l ++ [.recoveryFailed]) ∧
    ∀ before after, ((system k).exec (system k).init es).queue = before ++ .recoveryFailed :: after →
      ∀ fs, (∀ c ∈ fs, c.isStopped = false) → before.length < fs.countP Call.isRunTask →
      ∃ r ∈ (system k).trace ((system k).exec (system k).init es) fs,
        (∃ rest, r.before.queue = .recoveryFailed :: rest) ∧ r.after.state = .disconnected ∧
        (r.before.state = .disconnected ∨ Out.stateChanged r.before.config.locationId .disconnected
              (.error ⟨.locationUnavailable, "Maximum number of recovery attempts has been made"⟩) ∈ r.outs) := by
  have hinv := recoveryInv_run k es
  refine ⟨Nat.le_trans hinv.counted hinv.attempts, ?_, hinv.exhausted, ?_⟩
  · rw [hinv.armed.deferred]
    cases ((system k).exec (system k).init es).recovery.task <;> simp
  intro before after hq fs hfs hn
  -- the loop runs, and goes on
  have hruns : ((system k).exec (system k).init es).loop.runs = true := by
    by_contra hl
    have hreq := hinv.ordered.resting (by simpa using hl) .recoveryFailed (by simp [hq])
    cases hreq
  have hkeeps : ∀ v c, v.loop.runs = true → Call.isStopped c = false → ((system k).step v c).1.loop.runs = true :=
    fun v c hl hc => runs_step hl c (Call.ne_stopped hc)
  have happend : ∀ v c, v.loop.runs = true ∧ c.isStopped = false → c.isRunTask = false →
      ∃ l, ((system k).step v c).1.queue = v.queue ++ l := by
    rintro v c ⟨hl, hc⟩ hpops
    have hno : v.taskOf c = none := by
      cases c with
      | runTask env => cases hpops
      | _ => rfl
    exact step_queue_append hl c (Call.ne_stopped hc) hno
  have hpop : ∀ v c t rest, v.loop.runs = true ∧ c.isStopped = false → c.isRunTask = true →
      v.queue = t :: rest → ∃ l, ((system k).step v c).1.queue = rest ++ l := by
    rintro v c t rest ⟨hl, -⟩ hpops hhead
    obtain ⟨env, rfl⟩ := Call.eq_runTask hpops
    exact step_queue_pop hl hhead env
  obtain ⟨r, hr, hpops, ⟨hl, -⟩, ⟨rest, hhead⟩, hrec⟩ :=
    (system k).served happend hpop hq fs ((system k).meets_of_inv hkeeps hruns fs hfs) hn
  obtain ⟨env, henv⟩ := Call.eq_runTask hpops
  refine ⟨r, hr, ⟨rest, hhead⟩, ?_⟩
  rw [hrec, henv]
  exact recoveryFailed_step hl hhead env

def oneAttempt : UpstreamConfig := { someConfig with attempts := 1 }

/-- The ping of the only recovery attempt fails after the application asked to disconnect. -/
def disconnectedFirst : List Call :=
  [.connect ⟨oneAttempt, .fallIntoRecovery⟩, .runTask (goodEnv 1),
   .pingerResult ⟨-1, someEndpoint, none⟩ (goodEnv 2), .recoveryTask (goodEnv 1002),
   .forceDisconnect false, .pingerResult ⟨-1, someEndpoint, none⟩ (goodEnv 1003)]

def Out.isLocationUnavailable : Out → Bool
  | .stateChanged _ .disconnected (.error e) => e.code == .locationUnavailable
  | _ => false

/-- All attempts have been made; the session is disconnected without the error. -/
theorem exhausted_without_error : ((system false).exec (system false).init disconnectedFirst).exhausted = true ∧
    ((system false).exec (system false).init disconnectedFirst).state = .waitingRecovery ∧
    ((system false).exec (system false).init
      (disconnectedFirst ++ [.runTask (goodEnv 1004), .runTask (goodEnv 1005)])).state = .disconnected ∧
    ((system false).exec (system false).init
      (disconnectedFirst ++ [.runTask (goodEnv 1004), .runTask (goodEnv 1005)])).queue.isEmpty ∧
    (System.outputs ((system false).trace (system false).init
      (disconnectedFirst ++ [.runTask (goodEnv 1004), .runTask (goodEnv 1005)]))).any
        Out.isLocationUnavailable = false := by
  decide +kernel

end Vpn

end TrustTunnel
