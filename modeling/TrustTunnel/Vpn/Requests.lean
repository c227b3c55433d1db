import TrustTunnel.Vpn.Invariant

/-!
# Vpn.Requests

What becomes of connect requests. A request is raised as `CE_COMPLETE_REQUEST` by its task and then
completed, rejected, bypassed or put off; a request that was put off is completed when the recovery
is finalized, or released by the postponement timer.
-/

namespace TrustTunnel

open Lib List

def Out.resolvedId : Out → Option ConnId
  | .completed id _ => some id
  | .rejected id => some id
  | _ => none

def Out.resetId : Out → Option ConnId
  | .resetConnection id => some id
  | _ => none

/-- The id of a request that was completed with `VPN_CA_FORCE_BYPASS`. -/
def Out.bypassedId : Out → Option ConnId
  | .completed id (some .forceBypass) => some id
  | _ => none

def Action.isRequest : Action → Bool
  | .completeRequest | .postponeRequest | .rejectRequest | .bypassUntilConnected => true
  | _ => false

def Task.requestId : Task → Option ConnId
  | .completeConnectRequest r => some r.id
  | _ => none

variable (a : EventArg) (l : List ConnectRequestResult)

namespace Vpn

def resolvedIds (outs : List Out) : List ConnId := outs.filterMap Out.resolvedId

def resetIds (outs : List Out) : List ConnId := outs.filterMap Out.resetId

def bypassedIds (outs : List Out) : List ConnId := outs.filterMap Out.bypassedId

def postponedIds (v : Vpn) : List ConnId := v.postponedRequests.map (·.id)

/-! ## Actions -/

def Unrelated (outs : List Out) : Prop := ∀ o ∈ outs, o.kind ≠ .request ∧ o.kind ≠ .reset

variable {outs : List Out} {v : Vpn}

attribute [local simp] Out.resolvedId

theorem Unrelated.resolvedIds (h : Unrelated outs) : resolvedIds outs = [] := by
  rw [Vpn.resolvedIds, filterMap_eq_nil_iff]
  intro o ho
  have hkind := (h o ho).1
  cases o <;> simp_all [Out.kind]

attribute [local simp] Out.resetId

theorem Unrelated.resetIds (h : Unrelated outs) : resetIds outs = [] := by
  rw [Vpn.resetIds, filterMap_eq_nil_iff]
  intro o ho
  have hkind := (h o ho).2
  cases o <;> simp_all [Out.kind]

theorem run_others {act : Action} (hreq : act.isRequest = false) (hfin : act ≠ .finalizeRecovery)
    (a : EventArg) (v : Vpn) : Unrelated (run act a v).2 ∧ (run act a v).1.postponedRequests = v.postponedRequests ∧
      (run act a v).1.bypassedConnectionIds = v.bypassedConnectionIds := by
  refine ⟨fun o ho => ?_, ?_⟩
  · have hmem := run_kinds act a v o ho
    have hacts : OutKind.request ∉ act.kinds ∧ OutKind.reset ∉ act.kinds := by
      cases act <;> simp_all [Action.kinds, Action.isRequest]
    exact ⟨fun hk => hacts.1 (hk ▸ hmem), fun hk => hacts.2 (hk ▸ hmem)⟩
  · cases act <;> simp_all [run, Action.isRequest]

@[simp] theorem resolvedIds_completed (f : ConnectRequestResult → Option VpnConnectAction) :
    resolvedIds (l.map fun r => .completed r.id (f r)) = l.map (·.id) := by
  induction l <;> simp_all [resolvedIds]

@[simp] theorem resolvedIds_rejected : resolvedIds (l.map fun r => .rejected r.id) = l.map (·.id) := by
  induction l <;> simp_all [resolvedIds]

@[simp] theorem resolvedIds_reset (l : List ConnId) : resolvedIds (l.map .resetConnection) = [] := by
  induction l <;> simp_all [resolvedIds]

@[simp] theorem resetIds_completed (f : ConnectRequestResult → Option VpnConnectAction) :
    resetIds (l.map fun r => .completed r.id (f r)) = [] := by
  induction l <;> simp_all [resetIds]

@[simp] theorem resetIds_rejected : resetIds (l.map fun r => .rejected r.id) = [] := by
  induction l <;> simp_all [resetIds]

@[simp] theorem resetIds_reset (l : List ConnId) : resetIds (l.map .resetConnection) = l := by
  induction l <;> simp_all [resetIds]

@[simp] theorem resolvedIds_append (l m : List Out) :
    resolvedIds (l ++ m) = resolvedIds l ++ resolvedIds m := filterMap_append

@[simp] theorem resetIds_append (l m : List Out) : resetIds (l ++ m) = resetIds l ++ resetIds m :=
  filterMap_append

theorem run_request {act : Action} (h : act.isRequest = true) (a : EventArg) (id : ConnId) :
    (resolvedIds (run act a v).2).count id + (run act a v).1.postponedIds.count id =
      ((requestsOf a.data).map (·.id)).count id + v.postponedIds.count id := by
  cases act with
  | postponeRequest =>
    simp only [run, postponedIds]
    simp [resolvedIds]
    omega
  | _ => simp_all [run, Action.isRequest, postponedIds]

theorem run_finalizeRecovery (v : Vpn) : resolvedIds (run .finalizeRecovery a v).2 = v.postponedIds ∧
      (run .finalizeRecovery a v).1.postponedRequests = [] ∧
      resetIds (run .finalizeRecovery a v).2 = v.bypassedConnectionIds ∧
      (run .finalizeRecovery a v).1.bypassedConnectionIds = [] := by
  simp [run, postponedIds]

/-! ## Events -/

theorem request_rows : ∀ r ∈ transitionTable,
    r.before.any Action.isRequest = decide (r.event = .completeRequest) ∧
      (r.event = .completeRequest → r.target = none) := by
  decide

theorem finalize_rows : ∀ r ∈ transitionTable, r.before = some .finalizeRecovery →
    r.event = .clientReady ∧ r.source = some .recovering ∧ r.target = some .connected := by
  decide

def askedIds (e : ConnectEvent) (a : EventArg) : List ConnId :=
  if e = .completeRequest then (requestsOf a.data).map (·.id) else []

theorem enter_unrelated (q : VpnSessionState) (v : Vpn) : Unrelated (enter q v).2 := by
  intro o ho
  rcases enter_kinds q v o ho with hk | hk <;> simp [hk]

theorem completeRequest_taken (v : Vpn) : ∃ r, machine.Taken r .completeRequest a v :=
  Machine.exists_taken (r := row none .completeRequest none (some .bypassUntilConnected) none none)
    (by decide) (.inl rfl) rfl rfl

theorem perform_requests (e : ConnectEvent) (a : EventArg) (v : Vpn) (id : ConnId) :
    (resolvedIds (performTransition e a v).2).count id + (performTransition e a v).1.postponedIds.count id =
      (askedIds e a).count id + v.postponedIds.count id := by
  -- what the action of the row does to the requests
  have hbefore : ∀ r, machine.Taken r e a v → r ∈ transitionTable →
      (resolvedIds (runBefore r a v).2).count id + (runBefore r a v).1.postponedIds.count id =
        (askedIds e a).count id + v.postponedIds.count id := by
    intro r hr hmem
    have hrow := (request_rows r hmem).1
    rw [hr.event] at hrow
    cases hb : r.before with
    | none =>
      have he : e ≠ .completeRequest := by simpa [hb] using hrow
      simp [runBefore_none hb, askedIds, he, resolvedIds]
    | some act =>
      rw [runBefore_some hb]
      rw [hb] at hrow
      by_cases hact : act.isRequest = true
      · have he : e = .completeRequest := by simpa [hact] using hrow
        rw [run_request hact, askedIds, if_pos he]
      have he : e ≠ .completeRequest := by simpa [hact] using hrow
      rw [askedIds, if_neg he]
      by_cases hfin : act = .finalizeRecovery
      · subst hfin
        obtain ⟨hres, hpost, -⟩ := run_finalizeRecovery a v
        simp [hres, postponedIds, hpost]
      · obtain ⟨hun, hpost, -⟩ := run_others (by simpa using hact) hfin a v
        simp [hun.resolvedIds, postponedIds, hpost]
  rcases perform_cases e a v with ⟨hno, hnot⟩ | ⟨r, hr, hmem, ⟨-, hstay⟩ | ⟨q, -, hmove⟩⟩
  · have he : e ≠ .completeRequest := by
      rintro rfl
      exact hnot (completeRequest_taken a v)
    simp [hno, askedIds, he, resolvedIds]
  · rw [hstay]
    exact hbefore r hr hmem
  · rw [hmove]
    simpa [(enter_unrelated q _).resolvedIds, postponedIds] using hbefore r hr hmem

/-! ## Calls -/

def raisedIds (v : Vpn) (c : Call) : List ConnId := ((v.taskOf c).bind Task.requestId).toList

theorem runTask_asked (v : Vpn) (env : Env) (t : Task) :
    ((v.runTask env t).event.elim [] fun ea => askedIds ea.1 ea.2) = t.requestId.toList := by
  cases t with
  | abandonEndpoint n =>
    unfold runTask abandonEndpoint
    dsimp only
    split
    · rfl
    · split <;> rfl
  | _ => rfl

theorem resolvedIds_timer : resolvedIds v.postponementWindowTimerCb.2 = v.postponedIds := by
  rw [postponementWindowTimerCb_snd]
  cases v.killSwitchOn <;> simp [postponedIds]

theorem Noted.unrelated {c : Call} {i : Intake} (h : Noted v c i) : Unrelated i.outs := fun o ho =>
  ⟨h.kind_ne (by simp) (by simp) o ho, h.kind_ne (by simp) (by simp) o ho⟩

theorem requests_step (hord : v.Ordered) (c : Call) (hc : c ≠ .stopped) (id : ConnId) :
    (resolvedIds (v.step c).2).count id + (v.step c).1.postponedIds.count id =
      (v.raisedIds c).count id + v.postponedIds.count id := by
  have hdoes := does_step v c
  generalize v.step c = r at hdoes ⊢
  -- a call that raises the requests of its event
  have hfinish : ∀ i : Intake, resolvedIds i.outs = [] → i.vpn.postponedRequests = v.postponedRequests →
      (i.event.elim [] fun ea => askedIds ea.1 ea.2) = v.raisedIds c →
      (resolvedIds (finish i).2).count id + (finish i).1.postponedIds.count id =
        (v.raisedIds c).count id + v.postponedIds.count id := by
    intro i hres hpost hasked
    have hids : i.vpn.postponedIds = v.postponedIds := by rw [postponedIds, hpost]; rfl
    rw [← hasked]
    unfold finish
    split
    · next he => simp [he, hres, hids]
    · next e a he =>
      have hperform := perform_requests e a i.vpn id
      simpa [he, hres, hids] using hperform
  cases hdoes with
  | notes c i hn =>
    refine hfinish i hn.unrelated.resolvedIds (by rw [hn.vpn]; rfl) ?_
    rw [raisedIds, hn.task]
    cases he : i.event with
    | none => rfl
    | some ea =>
      obtain ⟨-, -, -, -, hrequest⟩ := ConnectEvent.of_report (hn.event ea.1 ea.2 he)
      exact if_neg hrequest
  | resets c hreset =>
    obtain ⟨rfl, hrests⟩ := hreset.resolve_left hc
    simp [postponedIds, (hord.clean (.inl hrests)).postponed, reset, resolvedIds, raisedIds, taskOf]
  | task t rest env hq hl =>
    refine hfinish _ (by rw [runTask_outs]; rfl) (by rw [runTask_vpn]; rfl) ?_
    have hraised : v.raisedIds (.runTask env) = t.requestId.toList := by
      simp [raisedIds, taskOf, hq, hl]
    rw [hraised]
    exact runTask_asked (v.pop rest) env t
  | timer ht =>
    rw [resolvedIds_timer]
    simp [postponedIds, raisedIds, taskOf]
  | _ => rfl

/-! ## Bypassed because of a recovery -/

@[simp] theorem bypassedIds_forced :
    bypassedIds (l.map fun r => .completed r.id (some .forceBypass)) = l.map (·.id) := by
  induction l <;> simp_all [bypassedIds, Out.bypassedId]

theorem bypass_rows : ∀ r ∈ transitionTable, r.before = some .bypassUntilConnected →
    Machine.shadowed transitionTable r .canComplete = true := by
  decide

/-- A recovery was finalized by a step from `v` to `w`: what was recorded is reset and forgotten. -/
def Finalized (v : Vpn) (outs : List Out) (w : Vpn) : Prop :=
  v.state = .recovering ∧ w.state = .connected ∧ resetIds outs = v.bypassedConnectionIds ∧
    w.bypassedConnectionIds = []

def Records (v : Vpn) (outs : List Out) (w : Vpn) (ids : List ConnId) : Prop :=
  (v.state = .recovering → w.state ≠ .connected) ∧ resetIds outs = [] ∧
    w.bypassedConnectionIds = v.bypassedConnectionIds ++ ids

theorem perform_request (v : Vpn) {r : ConnectRequestResult} (hr : a.data = .request r) :
    Records v (performTransition .completeRequest a v).2 (performTransition .completeRequest a v).1
      (if r.action = some .forceBypass then []
        else bypassedIds (performTransition .completeRequest a v).2) := by
  obtain ⟨row, hrow⟩ := completeRequest_taken a v
  have hstay : performTransition .completeRequest a v = runBefore row a v :=
    hrow.perform_eq.trans (take_stay hrow.mem ((request_rows row hrow.mem).2 hrow.event) a v)
  rw [hstay]
  refine ⟨fun hs => by simp [runBefore_state, hs], ?_⟩
  have hact : row.before.any Action.isRequest = true := by
    rw [(request_rows row hrow.mem).1, hrow.event]
    rfl
  cases hb : row.before with
  | none => simp [hb] at hact
  | some act =>
    rw [hb] at hact
    rw [runBefore_some hb]
    cases act with
    | bypassUntilConnected =>
      -- the request cannot be completed, so it is not to be bypassed anyway
      have hno := Machine.not_holds_of_shadowed hrow (bypass_rows row hrow.mem hb)
      have haction : r.action ≠ some .forceBypass := by
        simp only [machine, holds, hr, canComplete, Bool.or_eq_false_iff] at hno
        simpa using hno.1.1.1.1.1
      simp [run, hr, requestsOf, haction, resetIds, bypassedIds, Out.bypassedId]
    | completeRequest =>
      by_cases haction : r.action = some .forceBypass
      · simp [run, haction, resetIds]
      have hnone : (Out.completed r.id r.action).bypassedId = none := by
        unfold Out.bypassedId
        split <;> simp_all
      simp [run, hr, requestsOf, resetIds, bypassedIds, hnone]
    | postponeRequest => simp [run, resetIds, bypassedIds]
    | rejectRequest =>
      simp [run, bypassedIds, Out.bypassedId]
    | _ => simp [Action.isRequest] at hact

theorem perform_bypassed {e : ConnectEvent} (he : e ≠ .completeRequest) (a : EventArg) (v : Vpn) :
    Finalized v (performTransition e a v).2 (performTransition e a v).1 ∨
      Records v (performTransition e a v).2 (performTransition e a v).1 [] := by
  have hbefore : ∀ r, machine.Taken r e a v → r ∈ transitionTable → r.before ≠ some .finalizeRecovery →
      resetIds (runBefore r a v).2 = [] ∧ (runBefore r a v).1.bypassedConnectionIds = v.bypassedConnectionIds := by
    intro r hr hmem hfin
    cases hb : r.before with
    | none => simp [runBefore_none hb, resetIds]
    | some act =>
      have hrow := (request_rows r hmem).1
      rw [hr.event, hb] at hrow
      have hact : act ≠ .finalizeRecovery := by
        rintro rfl
        exact hfin hb
      rw [runBefore_some hb]
      obtain ⟨hun, -, hby⟩ := run_others (by simpa [he] using hrow) hact a v
      exact ⟨hun.resetIds, hby⟩
  rcases perform_cases e a v with ⟨hno, -⟩ | ⟨r, hr, hmem, ⟨ht, hstay⟩ | ⟨q, ht, hmove⟩⟩
  · rw [hno]
    exact .inr ⟨fun hs => by simp [hs], rfl, by simp⟩
  · rw [hstay]
    have hfin : r.before ≠ some .finalizeRecovery := by
      intro hb
      rw [(finalize_rows r hmem hb).2.2] at ht
      cases ht
    obtain ⟨hreset, hby⟩ := hbefore r hr hmem hfin
    exact .inr ⟨fun hs => by simp [runBefore_state, hs], hreset, by simp [hby]⟩
  · rw [hmove]
    by_cases hb : r.before = some .finalizeRecovery
    · obtain ⟨-, hsrc, htarget⟩ := finalize_rows r hmem hb
      obtain ⟨-, -, hreset, hby⟩ := run_finalizeRecovery a v
      refine .inl ⟨hr.state_eq hsrc, ?_, ?_, ?_⟩
      · rw [htarget] at ht
        cases ht
        simp
      · simp [(enter_unrelated q _).resetIds, runBefore_some hb, hreset]
      · simp [runBefore_some hb, hby]
    · obtain ⟨hreset, hby⟩ := hbefore r hr hmem hb
      refine .inr ⟨fun hs hq => ?_, by simp [(enter_unrelated q _).resetIds, hreset], by simp [hby]⟩
      have hq : q = .connected := by simpa using hq
      subst hq
      rcases into_connected r hmem ht with ⟨hsrc, -⟩ | ⟨-, hb'⟩
      · have hconnecting : v.state = .connecting := hr.state_eq hsrc
        rw [hs] at hconnecting
        cases hconnecting
      · exact hb hb'

/-- The ids a call bypassed because of a recovery: those it completed with `VPN_CA_FORCE_BYPASS`
although that was not the action of the request. -/
def bypassedIn (v : Vpn) (c : Call) (outs : List Out) : List ConnId :=
  match c, v.taskOf c with
  | .runTask env, some (.completeConnectRequest r) =>
    if env.finalizeConnectAction r = some .forceBypass then [] else bypassedIds outs
  | .postponementTimer, _ => bypassedIds outs
  | _, _ => []

theorem bypassedIn_request {r : ConnectRequestResult} {rest : List Task}
    (hq : v.queue = .completeConnectRequest r :: rest) (hl : v.loop.runs = true) (env : Env) :
    v.bypassedIn (.runTask env) outs =
      if env.finalizeConnectAction r = some .forceBypass then [] else bypassedIds outs := by
  simp [bypassedIn, taskOf, hq, hl]

theorem bypassedIds_timer : bypassedIds v.postponementWindowTimerCb.2 =
      if v.killSwitchOn then [] else v.postponedIds := by
  rw [postponementWindowTimerCb_snd]
  cases v.killSwitchOn with
  | false => simp [postponedIds]
  | true =>
    simp only [if_true, bypassedIds, filterMap_map, filterMap_eq_nil_iff]
    intro r _
    rfl

theorem bypassedIn_nil (v : Vpn) (c : Call) : v.bypassedIn c [] = [] := by
  unfold bypassedIn
  split
  · exact ite_self _
  · rfl
  · rfl

theorem bypassed_step (hord : v.Ordered) (c : Call) (hc : c ≠ .stopped) :
    (Finalized v (v.step c).2 (v.step c).1 ∧ v.bypassedIn c (v.step c).2 = []) ∨
      Records v (v.step c).2 (v.step c).1 (v.bypassedIn c (v.step c).2) := by
  have htaken := takenIn_intake v c
  unfold step
  generalize v.intake c = i at htaken ⊢
  -- a call that is not about requests
  have hfinish : resetIds i.outs = [] → i.vpn.state = v.state →
      i.vpn.bypassedConnectionIds = v.bypassedConnectionIds →
      (∀ e a, i.event = some (e, a) → e ≠ .completeRequest) →
      v.bypassedIn c (finish i).2 = [] →
      (Finalized v (finish i).2 (finish i).1 ∧ v.bypassedIn c (finish i).2 = []) ∨
        Records v (finish i).2 (finish i).1 (v.bypassedIn c (finish i).2) := by
    intro hreset hstate hby hevent hnone
    rw [hnone]
    unfold finish
    split
    · exact .inr ⟨fun hs => by simp [hstate, hs], hreset, by simp [hby]⟩
    next e a he =>
    rcases perform_bypassed (hevent e a he) a i.vpn with hfin | hrec
    · refine .inl ⟨?_, rfl⟩
      simpa [Finalized, hreset, hstate, hby] using hfin
    · refine .inr ?_
      simpa [Records, hreset, hstate, hby] using hrec
  cases htaken with
  | nothing c hno | submit c hno t ht hl => exact hfinish rfl rfl rfl (by simp) (bypassedIn_nil v c)
  | refused p e | connect p hl | stop hl => exact hfinish rfl rfl rfl (by simp) rfl
  | unstarted hl =>
    have hclean := hord.clean (.inl (by rw [hl]; rfl))
    exact hfinish rfl hclean.state.symm hclean.bypassed.symm (by simp) rfl
  | stopped hl => exact absurd rfl hc
  | task t rest env hq hl =>
    cases t with
    | completeConnectRequest r =>
      right
      have hrec := perform_request ⟨.request { r with action := env.finalizeConnectAction r }, env⟩ (v.pop rest) rfl
      rw [runTask, finish_raises, bypassedIn_request hq hl]
      exact hrec
    | _ =>
      refine hfinish (by rw [runTask_outs]; rfl) (by rw [runTask_vpn]; rfl) (by rw [runTask_vpn]; rfl)
        (fun e a he hreq => ?_) (by simp [bypassedIn, taskOf, hq])
      obtain ⟨-, -, -, hrequest, -⟩ := runTask_event he
      obtain ⟨r, hr⟩ := hrequest hreq
      cases hr
  | pinger r env hp =>
    obtain ⟨s, b, heq⟩ := pingerHandler_vpn v r env
    refine hfinish ?_ (by rw [heq]) (by rw [heq]) ?_ rfl
    · rw [pingerHandler_outs]
      split <;> rfl
    · intro e a he
      rcases pingerHandler_event he with h | h <;> simp [h]
  | clientConnected env hcl => exact hfinish rfl rfl rfl (by simp [raises]) rfl
  | clientDisconnected error env hl =>
    exact hfinish rfl rfl rfl (by simp [clientDisconnected, raises]) rfl
  | recoveryTask env i rest hd =>
    refine hfinish ?_ ?_ ?_ ?_ rfl <;> simp [recoveryTask, hd, raises, resetIds]
  | postponementTimer ht =>
    right
    show Records v v.postponementWindowTimerCb.2 v.postponementWindowTimerCb.1
      (bypassedIds v.postponementWindowTimerCb.2)
    refine ⟨fun hs => by simp [hs], ?_, ?_⟩
    · rw [postponementWindowTimerCb_snd]
      cases v.killSwitchOn <;> simp
    · rw [bypassedIds_timer, postponementWindowTimerCb_fst]
      cases v.killSwitchOn <;> simp [postponedIds]

/-! ## Sessions -/

def raised (h : List (Record Vpn Call Out)) : List ConnId :=
  h.flatMap fun r => r.before.raisedIds r.call

def bypassedRecovering (h : List (Record Vpn Call Out)) : List ConnId :=
  h.flatMap fun r => r.before.bypassedIn r.call r.outs

open System

theorem raised_append (k : Bool) (h : List (Record Vpn Call Out)) (c : Call) :
    raised (h ++ [(system k).record v c]) = raised h ++ v.raisedIds c := by
  simp [raised, record]

theorem bypassedRecovering_append (k : Bool) (h : List (Record Vpn Call Out)) (c : Call) :
    bypassedRecovering (h ++ [(system k).record v c]) = bypassedRecovering h ++ v.bypassedIn c (v.step c).2 := by
  simp [bypassedRecovering, record]

/-- What holds of a history and the state it leads to: every request that was raised is resolved or
still put off, counted with multiplicity; every id bypassed because of a recovery is reset or still
recorded; and ids are reset exactly when a recovery is finalized, all that are recorded then. -/
structure Conserved (h : List (Record Vpn Call Out)) (v : Vpn) : Prop where
  resolved : ∀ id, (resolvedIds (outputs h)).count id + v.postponedIds.count id = (raised h).count id
  bypassed : ∀ id, (resetIds (outputs h)).count id + v.bypassedConnectionIds.count id =
    (bypassedRecovering h).count id
  finalized : ∀ r ∈ h, (r.before.state = .recovering → r.after.state = .connected →
      resetIds r.outs = r.before.bypassedConnectionIds ∧ r.after.bypassedConnectionIds = []) ∧
    (resetIds r.outs ≠ [] → r.before.state = .recovering ∧ r.after.state = .connected)

theorem conserved_run {k : Bool} (hord : v.Ordered) (hclean : v.Clean) (es : List Call)
    (hes : ∀ c ∈ es, c.isStopped = false) : Conserved ((system k).trace v es) ((system k).exec v es) := by
  have hrun := (system k).inv_from
    (J := fun h v => v.Ordered ∧ Conserved h v) ⟨hord, ?_⟩ ?_ es ((system k).meets_of_forall v es hes)
  · exact hrun.2
  · constructor <;> simp [resolvedIds, resetIds, postponedIds, raised, bypassedRecovering,
      hclean.postponed, hclean.bypassed]
  rintro h v c ⟨hord, hresolved, hbypassed, htrace⟩ hc
  have hc := Call.ne_stopped hc
  have hstep := requests_step hord c hc
  have hby := bypassed_step hord c hc
  refine ⟨ordered_step hord c, fun id => ?_, fun id => ?_,
    forall_mem_append.mpr ⟨htrace, forall_mem_singleton.mpr ?_⟩⟩
  · have hold := hresolved id
    have hnew := hstep id
    simp only [outputs_append, outputs_record, resolvedIds_append, count_append, raised_append, system_step]
    omega
  · have hold := hbypassed id
    simp only [outputs_append, outputs_record, resetIds_append, count_append, bypassedRecovering_append, system_step]
    rcases hby with ⟨⟨-, -, hreset, hafter⟩, hnone⟩ | ⟨-, hreset, hafter⟩
    · rw [hreset, hafter, hnone]
      simp only [count_nil]
      omega
    · rw [hreset, hafter]
      simp only [count_nil, count_append]
      omega
  · rcases hby with ⟨⟨hrec, hcon, hreset, hafter⟩, -⟩ | ⟨hnot, hreset, -⟩
    · exact ⟨fun _ _ => ⟨hreset, hafter⟩, fun _ => ⟨hrec, hcon⟩⟩
    · exact ⟨fun hrec hcon => absurd hcon (hnot hrec), fun hne => absurd hreset hne⟩

/-- In a session every request is resolved exactly once or still put off: as often as an id is raised,
it is resolved or put off, and an id that is raised once is one of the two. Every id bypassed because
of a recovery is reset once or still recorded, and finalizing a recovery resets all that are
recorded. -/
theorem requests_conserved (k : Bool) (earlier : List Call) (p : ConnectParameters) (es : List Call)
    (hrests : ((system k).exec (system k).init earlier).loop.runs = false) (hes : ∀ c ∈ es, c.isStopped = false) :
    (∀ id, (resolvedIds (outputs (sessionTrace k earlier p es))).count id +
        (sessionEnd k earlier p es).postponedIds.count id = (raised (sessionTrace k earlier p es)).count id) ∧
    (∀ id, (raised (sessionTrace k earlier p es)).count id = 1 →
      ((resolvedIds (outputs (sessionTrace k earlier p es))).count id = 1 ∧
        id ∉ (sessionEnd k earlier p es).postponedIds) ∨
      (id ∉ resolvedIds (outputs (sessionTrace k earlier p es)) ∧
        (sessionEnd k earlier p es).postponedIds.count id = 1)) ∧
    (∀ id, (resetIds (outputs (sessionTrace k earlier p es))).count id +
        (sessionEnd k earlier p es).bypassedConnectionIds.count id =
      (bypassedRecovering (sessionTrace k earlier p es)).count id) ∧ ∀ r ∈ sessionTrace k earlier p es,
      (r.before.state = .recovering → r.after.state = .connected →
        resetIds r.outs = r.before.bypassedConnectionIds ∧ r.after.bypassedConnectionIds = []) ∧
      (resetIds r.outs ≠ [] → r.before.state = .recovering ∧ r.after.state = .connected) := by
  have hrun : Conserved (sessionTrace k earlier p es) (sessionEnd k earlier p es) :=
    conserved_run (sessionStart_ordered k earlier p) (sessionStart_clean hrests p) es hes
  refine ⟨hrun.resolved, fun id hone => ?_, hrun.bypassed, hrun.finalized⟩
  have hcount := hrun.resolved id
  simp only [← count_eq_zero]
  omega

/-- A request that is put off during a recovery and released by the timer, and one that comes after
the postponement window: both are bypassed until the recovery is finalized. -/
def recoveredRequests : List Call :=
  [.runTask (goodEnv 1), .pingerResult pinged (goodEnv 2), .clientConnected (goodEnv 3),
   .clientDisconnected none (goodEnv 4), .completeConnectRequest someRequest,
   .runTask (goodEnv 5), .postponementTimer,
   .completeConnectRequest { someRequest with id := 8 }, .runTask (goodEnv 6),
   .recoveryTask (goodEnv 1004), .clientConnected (goodEnv 1005)]

theorem requests_conserved_recovered : bypassedRecovering
        (sessionTrace false [] ⟨someConfig, .severalAttempts 1⟩ recoveredRequests) = [7, 8] ∧
    ∀ id, (resetIds (outputs
          (sessionTrace false [] ⟨someConfig, .severalAttempts 1⟩ recoveredRequests))).count id +
        (sessionEnd false [] ⟨someConfig, .severalAttempts 1⟩ recoveredRequests).bypassedConnectionIds.count id =
      (bypassedRecovering (sessionTrace false [] ⟨someConfig, .severalAttempts 1⟩ recoveredRequests)).count id :=
  ⟨by decide +kernel,
    (requests_conserved false [] ⟨someConfig, .severalAttempts 1⟩ recoveredRequests rfl
      (by decide +kernel)).2.2.1⟩

end Vpn

end TrustTunnel
