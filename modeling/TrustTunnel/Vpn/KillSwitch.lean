import TrustTunnel.Vpn.Requests

/-!
# Vpn.KillSwitch

Connect requests while the kill switch is on: a request is completed with the action that was decided
for it, by the session machine at once or when a recovery is finalized, and with no other
(`completions_step`).
-/

namespace TrustTunnel

open Lib List

/-- The request an output completes and the action it completes it with. -/
def Out.completion : Out → Option (ConnId × Option VpnConnectAction)
  | .completed id action => some (id, action)
  | _ => none

def Task.decision (env : Env) : Task → Option (ConnId × Option VpnConnectAction)
  | .completeConnectRequest r => some (r.id, env.finalizeConnectAction r)
  | _ => none

namespace Vpn

def completions (outs : List Out) : List (ConnId × Option VpnConnectAction) :=
  outs.filterMap Out.completion

def decisionsOf (l : List ConnectRequestResult) : List (ConnId × Option VpnConnectAction) :=
  l.map fun r => (r.id, r.action)

@[simp] theorem completions_append (l m : List Out) :
    completions (l ++ m) = completions l ++ completions m := filterMap_append

attribute [local simp] decisionsOf Out.completion

@[simp] theorem completions_completed (l : List ConnectRequestResult) :
    completions (l.map fun r => .completed r.id r.action) = decisionsOf l := by
  induction l <;> simp_all [completions]

@[simp] theorem completions_rejected (l : List ConnectRequestResult) :
    completions (l.map fun r => .rejected r.id) = [] := by
  induction l <;> simp_all [completions]

@[simp] theorem completions_reset (l : List ConnId) : completions (l.map .resetConnection) = [] := by
  induction l <;> simp_all [completions]

theorem Unrelated.completions {outs : List Out} (h : Unrelated outs) : completions outs = [] := by
  rw [Vpn.completions, filterMap_eq_nil_iff]
  intro o ho
  have hkind := (h o ho).1
  cases o <;> simp_all [Out.kind]

/-! ## Events -/

def asked (e : ConnectEvent) (a : EventArg) : List ConnectRequestResult :=
  if e = .completeRequest then requestsOf a.data else []

/-- What a step completes and what it leaves put off comes from `l` and from what was put off. -/
def Completes (v : Vpn) (l : List (ConnId × Option VpnConnectAction)) (r : Vpn × List Out) : Prop :=
  completions r.2 ++ decisionsOf r.1.postponedRequests ⊆ l ++ decisionsOf v.postponedRequests

theorem bypass_rows_killSwitch : ∀ r ∈ transitionTable, r.before = some .bypassUntilConnected →
    Machine.shadowed transitionTable r .isKillSwitchOn = true := by
  decide

attribute [local simp] Completes

theorem run_request_completes {act : Action} (h : act.isRequest = true)
    (hact : act ≠ .bypassUntilConnected) (a : EventArg) (v : Vpn) :
    Completes v (decisionsOf (requestsOf a.data)) (run act a v) := by
  cases act with
  | bypassUntilConnected => exact absurd rfl hact
  | postponeRequest =>
    intro p hp
    simp [run, completions] at hp ⊢
    exact hp.symm
  | _ => simp_all [run, Action.isRequest]

theorem perform_completes {v : Vpn} (hk : v.killSwitchOn = true) (e : ConnectEvent) (a : EventArg) :
    Completes v (decisionsOf (asked e a)) (performTransition e a v) := by
  refine perform_spec (by simp [completions]) ?_ fun q w hw => ?_
  · intro r act hr hmem hb
    have hrow := (request_rows r hmem).1
    rw [hr.event, hb] at hrow
    by_cases hact : act.isRequest = true
    · have he : e = .completeRequest := by simpa [hact] using hrow
      rw [asked, if_pos he]
      refine run_request_completes hact ?_ a v
      rintro rfl
      have hoff := Machine.not_holds_of_shadowed hr (bypass_rows_killSwitch r hmem hb)
      simp [machine, holds, hk] at hoff
    · by_cases hfin : act = .finalizeRecovery
      · subst hfin
        simp [run]
      · obtain ⟨hun, hpost, -⟩ := run_others (by simpa using hact) hfin a v
        simp [hun.completions, hpost]
  · simpa [(enter_unrelated q _).completions] using hw

/-! ## Calls -/

def decisions (v : Vpn) : Call → List (ConnId × Option VpnConnectAction)
  | .runTask env => ((v.taskOf (.runTask env)).bind (Task.decision env)).toList
  | _ => []

theorem decisions_fst (v : Vpn) (c : Call) : (v.decisions c).map (·.1) = v.raisedIds c := by
  cases c with
  | runTask env =>
    simp only [decisions, raisedIds]
    cases v.taskOf (.runTask env) with
    | none => rfl
    | some t => cases t <;> rfl
  | _ => rfl

theorem runTask_decisions (v : Vpn) (env : Env) (t : Task) :
    ((v.runTask env t).event.elim [] fun ea => decisionsOf (asked ea.1 ea.2)) = (t.decision env).toList := by
  cases t with
  | abandonEndpoint n =>
    unfold runTask abandonEndpoint
    dsimp only
    split
    · rfl
    · split <;> rfl
  | _ => rfl

theorem completions_step {v : Vpn} (hk : v.killSwitchOn = true) (c : Call) :
    Completes v (v.decisions c) (v.step c) := by
  have hdoes := does_step v c
  generalize v.step c = r at hdoes ⊢
  -- a call that raises the requests of its event
  have hfinish : ∀ i : Intake, completions i.outs = [] → i.vpn.postponedRequests = v.postponedRequests →
      i.vpn.killSwitchOn = true → (∀ ea, i.event = some ea → decisionsOf (asked ea.1 ea.2) ⊆ v.decisions c) →
      Completes v (v.decisions c) (finish i) := by
    intro i hnone hpost hon hasked
    unfold finish
    split
    · simp [hnone, hpost]
    next e a he =>
    have hperform := perform_completes hon e a
    simp only [Completes, andDo, completions_append, hnone, hpost] at hperform ⊢
    exact List.Subset.trans hperform
      (append_subset.mpr ⟨subset_append_of_subset_left _ (hasked (e, a) he), subset_append_right _ _⟩)
  cases hdoes with
  | notes c i hn =>
    refine hfinish i hn.unrelated.completions (by rw [hn.vpn]; rfl) (by rw [hn.vpn]; exact hk) fun ea he => ?_
    simp [asked, (ConnectEvent.of_report (hn.event ea.1 ea.2 he)).2.2.2.2]
  | resets c hreset => simp [reset, completions]
  | task t rest env hq hl =>
    refine hfinish _ (by rw [runTask_outs]; rfl) (by rw [runTask_vpn]; rfl) (by rw [runTask_vpn]; exact hk) ?_
    intro ea hea
    have hraised : v.decisions (.runTask env) = (t.decision env).toList := by
      simp [decisions, taskOf, hq, hl]
    have hevent := runTask_decisions (v.pop rest) env t
    rw [hea, Option.elim_some] at hevent
    rw [hraised, hevent]
    exact fun _ hp => hp
  | timer ht =>
    -- the timer rejects what was put off
    simp [hk]
  | _ => exact subset_append_right _ _

end Vpn

end TrustTunnel
