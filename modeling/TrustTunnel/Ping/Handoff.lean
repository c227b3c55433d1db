import TrustTunnel.Ping.Locations
import Mathlib.Data.List.Perm.Basic

/-!
# Ping.Handoff

Who owns the connections that pings hand over: a record of a location, the handler that got it with a
result, or nobody any more because it was destroyed.
-/

namespace TrustTunnel.Ping

open Lib List

namespace LocationsPinger

/-! ## Places -/

def heldIn (l : List PingedEndpoint) : List ConnState := l.filterMap (·.connState)

def LocationsCtx.held (l : LocationsCtx) : List ConnState := heldIn l.pingedIpv4 ++ heldIn l.pingedIpv6

/-- The connections in the records of started and waiting locations. -/
def held (s : LocationsPinger) : List ConnState :=
  s.locations.flatMap (fun e => LocationsCtx.held e.2) ++ s.pending.flatMap LocationsCtx.held

def destroyed (o : List Out) : List ConnState :=
  o.filterMap fun
    | .connDestroyed c => some c
    | _ => none

def passed (o : List Out) : List ConnState :=
  o.filterMap fun
    | .handler (some r) => r.connState
    | _ => none

/-- The connection a call hands over: with a `PING_OK` of a ping that is there. -/
def handedBy (s : LocationsPinger) : Call → List ConnState
  | .ping p (.ok _ _ _ _ connState) => if (extract p s.locations).isSome then connState.toList else []
  | _ => []

def handed (h : List (Record LocationsPinger Call Out)) : List ConnState :=
  h.flatMap fun r => handedBy r.before r.call

/-! ## Calls that lose nothing -/

def recordOf (e : VpnEndpoint) (l : List PingedEndpoint) : Option PingedEndpoint :=
  l.find? (·.endpoint = e)

def recordOfIn (e : VpnEndpoint) (l : LocationsCtx) : Option PingedEndpoint :=
  if isIpv6 e.address then recordOf e l.pingedIpv6 else recordOf e l.pingedIpv4

def found (s : LocationsPinger) (p : PingId) (e : VpnEndpoint) : Option PingedEndpoint :=
  (extract p s.locations).bind fun r => recordOfIn e r.1

def Keeps (s : LocationsPinger) : Call → Prop
  | .ping p (.ok e ms _ isQuic connState) =>
    connState = none ∨ ∀ it ∈ s.found p e, correctedMs ms isQuic < correctedMs it.pingMs it.isQuic
  | .stop => s.held = []
  | _ => True

instance (s : LocationsPinger) : (c : Call) → Decidable (s.Keeps c)
  | .ping p (.ok e _ _ _ connState) =>
    inferInstanceAs (Decidable (connState = none ∨ ∀ it ∈ s.found p e, _))
  | .ping _ (.socketError _ _) => isTrue trivial
  | .ping _ (.timedOut _) => isTrue trivial
  | .ping _ .finished => isTrue trivial
  | .stop => inferInstanceAs (Decidable (s.held = []))
  | .startTask _ => isTrue trivial
  | .endTask => isTrue trivial

attribute [local simp] destroyed

@[simp] theorem destroyed_append (o o' : List Out) : destroyed (o ++ o') = destroyed o ++ destroyed o' := by simp

attribute [local simp] passed

@[simp] theorem passed_append (o o' : List Out) : passed (o ++ o') = passed o ++ passed o' := by
  simp

theorem count_heldIn_cons (e : PingedEndpoint) (l : List PingedEndpoint) (c : ConnState) :
    (heldIn (e :: l)).count c = e.connState.toList.count c + (heldIn l).count c := by
  cases hc : e.connState with
  | none => simp [heldIn, hc]
  | some d => simp [heldIn, hc, count_cons, Nat.add_comm]

attribute [local simp] destroyConnState

theorem destroyed_flatMap (l : List PingedEndpoint) : destroyed (l.flatMap destroyConnState) = heldIn l := by
  induction l with
  | nil => rfl
  | cons e l ih =>
    rw [flatMap_cons, destroyed_append, ih]
    cases hc : e.connState with
    | none | some c => simp [heldIn, hc]

theorem passed_flatMap (l : List PingedEndpoint) : passed (l.flatMap destroyConnState) = [] := by
  induction l with
  | nil => rfl
  | cons e l ih =>
    rw [flatMap_cons, passed_append, ih]
    cases hc : e.connState with
    | none => simp [hc]
    | some c => simp

/-! ## Selecting keeps one and destroys the others -/

theorem selectFrom_index (priority : PingedEndpoint → Nat) (l : List PingedEndpoint) (i : Nat)
    (selected : Option (Nat × Nat)) {j n : Nat} (h : selectFrom priority l i selected = some (j, n)) :
    selected = some (j, n) ∨ (i ≤ j ∧ j < i + l.length) := by
  induction l generalizing i selected with
  | nil => exact .inl h
  | cons e l ih =>
    rcases ih _ _ h with hsel | ⟨hle, hlt⟩
    · split at hsel
      · obtain ⟨rfl, -⟩ : i = j ∧ priority e = n := by simpa using hsel
        exact .inr ⟨Nat.le_refl _, by simp⟩
      · exact .inl hsel
    · exact .inr ⟨by omega, by simp only [length_cons]; omega⟩

theorem selectEndpointFromList_lt {priority : PingedEndpoint → Nat} {l : List PingedEndpoint} {i : Nat}
    (h : selectEndpointFromList priority l = some i) : i < l.length := by
  obtain ⟨⟨j, n⟩, hj, rfl⟩ := Option.map_eq_some_iff.mp h
  rcases selectFrom_index priority l 0 none hj with hnone | ⟨-, hlt⟩
  · cases hnone
  · omega

theorem others_perm {l : List PingedEndpoint} {i : Option Nat} (h : ∀ j ∈ i, j < l.length) :
    (((i.bind fun j => l[j]?).bind (·.connState)).toList ++ heldIn (others l i)).Perm (heldIn l) := by
  cases i with
  | none => exact List.Perm.refl _
  | some j =>
    have hj := h j rfl
    have hget : l[j]? = some l[j] := List.getElem?_eq_getElem hj
    have hperm := (getElem_cons_eraseIdx_perm hj).filterMap (·.connState)
    simp only [Option.bind_some, hget, others, heldIn]
    cases hc : l[j].connState with
    | none | some c => simpa [hc] using hperm

theorem connState_resultFor (location : VpnLocation) (selected : Option PingedEndpoint) :
    (resultFor location selected).connState = selected.bind (·.connState) := by
  cases selected with
  | none | some e => rfl

section

variable (s : LocationsPinger) (l : LocationsCtx) (isLast : Bool)
include s l isLast

theorem destroyed_finalizeLocation : destroyed (finalizeLocation s l isLast) =
      heldIn (others l.pingedIpv4 (selectEndpoint l (s.priority l)).2) ++
        heldIn (others l.pingedIpv6 (selectEndpoint l (s.priority l)).1) := by
  simp only [finalizeLocation, destroyed_append, destroyed_flatMap]
  cases isLast <;> simp

theorem passed_finalizeLocation : passed (finalizeLocation s l isLast) =
      ((selectedIn l (selectEndpoint l (s.priority l))).bind (·.connState)).toList := by
  simp only [finalizeLocation, passed_append, passed_flatMap]
  rw [← connState_resultFor l.info]
  cases hc : (resultFor l.info (selectedIn l (selectEndpoint l (s.priority l)))).connState with
  | none | some c => cases isLast <;> simp [hc]

theorem finalizeLocation_conserves :
    (destroyed (finalizeLocation s l isLast) ++ passed (finalizeLocation s l isLast)).Perm (LocationsCtx.held l) := by
  rw [destroyed_finalizeLocation, passed_finalizeLocation, perm_iff_count]
  intro c
  unfold selectEndpoint
  cases h6 : selectEndpointFromList (s.priority l) l.pingedIpv6 with
  | some i =>
    have hlt : ∀ j ∈ some i, j < l.pingedIpv6.length := by
      intro j hj
      exact selectEndpointFromList_lt (h6.trans hj)
    have hsel : selectedIn l (some i, none) = (some i).bind fun j => l.pingedIpv6[j]? := by
      simp [selectedIn]
    have hperm := (others_perm hlt).count_eq c
    simp only [hsel, others, LocationsCtx.held, count_append] at hperm ⊢
    omega
  | none =>
    have hlt : ∀ j ∈ selectEndpointFromList (s.priority l) l.pingedIpv4, j < l.pingedIpv4.length :=
      fun j hj => selectEndpointFromList_lt hj
    have hsel : selectedIn l (none, selectEndpointFromList (s.priority l) l.pingedIpv4) =
        (selectEndpointFromList (s.priority l) l.pingedIpv4).bind fun j => l.pingedIpv4[j]? := by
      simp [selectedIn]
    have hperm := (others_perm hlt).count_eq c
    simp only [hsel, others, LocationsCtx.held, count_append] at hperm ⊢
    omega

end

/-! ## Recording a result -/

section Record

variable (e : VpnEndpoint) (ms : Int) (relay : Option VpnRelay) (isQuic : Bool)
  (connState : Option ConnState)

theorem passed_recordResult (l : List PingedEndpoint) : passed (recordResult e ms relay isQuic connState l).2 = [] := by
  induction l with
  | nil => rfl
  | cons it l ih =>
    rw [recordResult]
    split
    · split
      · simpa using passed_flatMap [it]
      · rfl
    · exact ih

/-- Whether a result is recorded: there is no record of the endpoint, or a slower one. -/
def Recorded (l : List PingedEndpoint) : Prop :=
  ∀ it ∈ recordOf e l, correctedMs ms isQuic < correctedMs it.pingMs it.isQuic

theorem count_recordResult (l : List PingedEndpoint) (c : ConnState) : (Recorded e ms isQuic l →
      (destroyed (recordResult e ms relay isQuic connState l).2).count c +
        (heldIn (recordResult e ms relay isQuic connState l).1).count c =
          (heldIn l).count c + connState.toList.count c) ∧ (¬ Recorded e ms isQuic l →
      (destroyed (recordResult e ms relay isQuic connState l).2).count c +
        (heldIn (recordResult e ms relay isQuic connState l).1).count c = (heldIn l).count c) := by
  induction l with
  | nil =>
    refine ⟨fun _ => ?_, fun h => absurd (fun it hit => by cases hit) h⟩
    cases connState <;> simp [recordResult, heldIn]
  | cons it l ih =>
    rw [recordResult]
    by_cases he : it.endpoint = e
    · have hrec : recordOf e (it :: l) = some it := by simp [recordOf, he]
      rw [if_pos he]
      by_cases hlt : correctedMs ms isQuic < correctedMs it.pingMs it.isQuic
      · rw [if_pos hlt]
        refine ⟨fun _ => ?_, fun h => absurd (fun i hi => ?_) h⟩
        · have hd : destroyed (destroyConnState it) = it.connState.toList := by
            cases hc : it.connState <;> simp [hc]
          rw [hd, count_heldIn_cons, count_heldIn_cons]
          dsimp only
          omega
        · rw [hrec, Option.mem_some_iff] at hi
          rwa [← hi]
      · rw [if_neg hlt]
        refine ⟨fun h => absurd (h it (by rw [hrec]; rfl)) hlt, fun _ => ?_⟩
        simp
    · have hrec : recordOf e (it :: l) = recordOf e l := by simp [recordOf, he]
      rw [if_neg he]
      simp only [Recorded, hrec, count_heldIn_cons] at ih ⊢
      constructor
      · intro h
        have := ih.1 h
        omega
      · intro h
        have := ih.2 h
        omega

end Record

section

variable (l : LocationsCtx) (e : VpnEndpoint) (ms : Int) (relay : Option VpnRelay) (isQuic : Bool)
  (connState : Option ConnState)

theorem passed_recordIn : passed (recordIn l e ms relay isQuic connState).2 = [] := by
  unfold recordIn
  split
  all_goals exact passed_recordResult ..

theorem count_recordIn (c : ConnState) :
    ((∀ it ∈ recordOfIn e l, correctedMs ms isQuic < correctedMs it.pingMs it.isQuic) →
      (destroyed (recordIn l e ms relay isQuic connState).2).count c +
        (LocationsCtx.held (recordIn l e ms relay isQuic connState).1).count c =
          (LocationsCtx.held l).count c + connState.toList.count c) ∧
    (¬ (∀ it ∈ recordOfIn e l, correctedMs ms isQuic < correctedMs it.pingMs it.isQuic) →
      (destroyed (recordIn l e ms relay isQuic connState).2).count c +
        (LocationsCtx.held (recordIn l e ms relay isQuic connState).1).count c = (LocationsCtx.held l).count c) := by
  unfold recordIn recordOfIn
  split
  · have hcount := count_recordResult e ms relay isQuic connState l.pingedIpv6 c
    simp only [LocationsCtx.held, count_append]
    constructor
    · intro h
      have := hcount.1 h
      omega
    · intro h
      have := hcount.2 h
      omega
  · have hcount := count_recordResult e ms relay isQuic connState l.pingedIpv4 c
    simp only [LocationsCtx.held, count_append]
    constructor
    · intro h
      have := hcount.1 h
      omega
    · intro h
      have := hcount.2 h
      omega

end

/-! ## One call -/

def Conserves (s : LocationsPinger) (c : Call) : Prop :=
  (destroyed (s.step c).2 ++ passed (s.step c).2 ++ (s.step c).1.held).Perm (s.held ++ handedBy s c)

theorem count_held_extract {s : LocationsPinger} {p : PingId} {l : LocationsCtx}
    {rest : List (PingId × LocationsCtx)} (h : extract p s.locations = some (l, rest)) (c : ConnState) :
    s.held.count c = (LocationsCtx.held l).count c +
      (({ s with locations := rest } : LocationsPinger).held).count c := by
  have hperm := (extract_perm h).flatMap_right fun e => LocationsCtx.held e.2
  have := hperm.count_eq c
  simp only [held, count_append, flatMap_cons] at this ⊢
  omega

theorem startLocationPing_conserves (s : LocationsPinger) (started : Bool) :
    (destroyed (s.startLocationPing started).2 ++ passed (s.startLocationPing started).2 ++
      (s.startLocationPing started).1.held).Perm s.held := by
  unfold startLocationPing
  cases hp : s.pending with
  | nil => simp
  | cons l rest =>
    dsimp only
    rw [perm_iff_count]
    intro c
    split
    · simp only [destroyed, passed, filterMap_nil, nil_append, held, hp, flatMap_cons, count_append]
      omega
    · have hfinal := (finalizeLocation_conserves s l (rest.isEmpty && s.locations.isEmpty)).count_eq c
      simp only [count_append, held, hp, flatMap_cons] at hfinal ⊢
      omega

attribute [local simp] processPingResult

theorem conserves_iff (s : LocationsPinger) (c : Call) : Conserves s c ↔ s.Keeps c := by
  unfold Conserves
  cases c with
  | startTask started =>
    refine ⟨fun _ => trivial, fun _ => ?_⟩
    simp only [step, handedBy, append_nil]
    split
    · exact startLocationPing_conserves s started
    · exact List.Perm.refl _
  | endTask =>
    refine ⟨fun _ => trivial, fun _ => ?_⟩
    simp only [step, handedBy, append_nil]
    split
    · simp [held]
    · exact List.Perm.refl _
  | stop =>
    have hnone : ∀ es : List (PingId × LocationsCtx),
        destroyed (es.map fun e => Out.pingDestroyed e.1) = [] ∧
          passed (es.map fun e => Out.pingDestroyed e.1) = [] := by
      simp
    simp only [step, locationsPingerStop, (hnone _).1, (hnone _).2, handedBy, Keeps, held, flatMap_nil, append_nil]
    exact ⟨fun h => h.nil_eq.symm, fun h => by rw [h]⟩
  | ping p result =>
    cases hx : extract p s.locations with
    | none =>
      cases result <;> simp [step, hx, handedBy, Keeps, found]
    | some r =>
      obtain ⟨l, rest⟩ := r
      have hheld := count_held_extract hx
      cases result with
      | ok e ms relay isQuic connState =>
        have hstep : s.step (.ping p (.ok e ms relay isQuic connState)) =
            ({ s with locations := (p, (recordIn l e ms relay isQuic connState).1) :: rest },
              (recordIn l e ms relay isQuic connState).2) := by
          simp [step, hx]
        have hfound : s.found p e = recordOfIn e l := by simp [found, hx]
        have hhanded : handedBy s (.ping p (.ok e ms relay isQuic connState)) = connState.toList := by
          simp [handedBy, hx]
        have hafter : ∀ c, (({ s with
            locations := (p, (recordIn l e ms relay isQuic connState).1) :: rest }).held).count c =
            (LocationsCtx.held (recordIn l e ms relay isQuic connState).1).count c +
              (({ s with locations := rest }).held).count c := by
          simp only [held, flatMap_cons, count_append]
          omega
        rw [hstep, hhanded, perm_iff_count]
        simp only [passed_recordIn, append_nil, count_append, hafter, hheld, Keeps, hfound]
        by_cases hrec : ∀ it ∈ recordOfIn e l, correctedMs ms isQuic < correctedMs it.pingMs it.isQuic
        · refine ⟨fun _ => .inr hrec, fun _ c => ?_⟩
          have := (count_recordIn l e ms relay isQuic connState c).1 hrec
          omega
        have hcount := fun c => (count_recordIn l e ms relay isQuic connState c).2 hrec
        constructor
        · intro hall
          refine .inl ?_
          cases hc : connState with
          | none => rfl
          | some c =>
            subst hc
            have hone := hall c
            have hsame := hcount c
            have : (some c).toList.count c = 1 := by simp
            omega
        · rintro (rfl | h) c
          · have hsame := hcount c
            have : none.toList.count c = 0 := rfl
            omega
          · exact absurd h hrec
      | socketError e error | timedOut e =>
        simp [step, hx, handedBy, Keeps]
      | finished =>
        have hstep : s.step (.ping p .finished) = ({ s with locations := rest },
              [.pingDestroyed p] ++ finalizeLocation s l (rest.isEmpty && s.pending.isEmpty)) := by
          simp [step, hx]
        have hd : destroyed [Out.pingDestroyed p] = [] ∧ passed [Out.pingDestroyed p] = [] := ⟨rfl, rfl⟩
        refine ⟨fun _ => trivial, fun _ => ?_⟩
        rw [hstep, perm_iff_count]
        intro c
        have hfinal := (finalizeLocation_conserves s l (rest.isEmpty && s.pending.isEmpty)).count_eq c
        have hsplit := hheld c
        simp only [destroyed_append, passed_append, hd.1, hd.2, nil_append, count_append,
          handedBy, append_nil] at hfinal ⊢
        omega

/-! ## Runs -/

/-- After the calls `es`, every connection handed over is destroyed, passed on or held, and once. -/
def Conserved (infos : List VpnLocation) (queryAllInterfaces : Bool) (es : List Call) : Prop :=
  (destroyed (raised infos queryAllInterfaces es) ++ passed (raised infos queryAllInterfaces es) ++
    (after infos queryAllInterfaces es).held).Perm
      (handed ((pinger infos queryAllInterfaces).trace (start infos queryAllInterfaces) es))

section Runs

variable (infos : List VpnLocation) (queryAllInterfaces : Bool)

theorem conserved_nil : Conserved infos queryAllInterfaces [] := by
  have hheld : (start infos queryAllInterfaces).held = [] := by
    simp [held, start, LocationsCtx.held, heldIn]
  have hnone : (after infos queryAllInterfaces []).held = [] := hheld
  simp [Conserved, hnone, raised, System.trace, handed]

theorem conserved_snoc (es : List Call) (c : Call) (h : Conserved infos queryAllInterfaces es) :
    Conserved infos queryAllInterfaces (es ++ [c]) ↔ Conserves (after infos queryAllInterfaces es) c := by
  have hraised : raised infos queryAllInterfaces (es ++ [c]) =
      raised infos queryAllInterfaces es ++ ((after infos queryAllInterfaces es).step c).2 := by
    simp only [raised, System.trace_append, System.outputs_append]
    exact congrArg _ (System.outputs_record (pinger infos queryAllInterfaces) _ c)
  have hafter : after infos queryAllInterfaces (es ++ [c]) = ((after infos queryAllInterfaces es).step c).1 := by
    simp only [after, System.exec_append]
    rfl
  have hhanded : handed ((pinger infos queryAllInterfaces).trace (start infos queryAllInterfaces) (es ++ [c])) =
      handed ((pinger infos queryAllInterfaces).trace (start infos queryAllInterfaces) es) ++
        handedBy (after infos queryAllInterfaces es) c := by
    simp only [handed, System.trace_append]
    simp [System.trace, System.record, after]
  unfold Conserved Conserves at *
  rw [hraised, hafter, hhanded, destroyed_append, passed_append, perm_iff_count, perm_iff_count]
  refine forall_congr' fun d => ?_
  have := h.count_eq d
  simp only [count_append] at this ⊢
  omega

/-- For every set of locations and every order of ping results, starts and stops: the connections
handed over are accounted for at every point of a run exactly when each second result for an endpoint
is faster than the first and a stop comes when no record holds a connection. When no location is left
each of them has then been destroyed or passed on, once. -/
theorem handed_over_once (es : List Call) :
    ((pinger infos queryAllInterfaces).Meets Keeps (start infos queryAllInterfaces) es ↔
      ∀ n, Conserved infos queryAllInterfaces (es.take n)) ∧
    (Conserved infos queryAllInterfaces es → (after infos queryAllInterfaces es).unreported = [] →
      (destroyed (raised infos queryAllInterfaces es) ++ passed (raised infos queryAllInterfaces es)).Perm
        (handed ((pinger infos queryAllInterfaces).trace (start infos queryAllInterfaces) es))) := by
  constructor
  · refine System.meets_iff_forall_take _ (conserved_nil infos queryAllInterfaces) ?_ es
    intro es c _ hes
    rw [conserved_snoc infos queryAllInterfaces es c hes, conserves_iff]
    rfl
  · intro hcons hnone
    have hheld : (after infos queryAllInterfaces es).held = [] := by
      simp only [unreported, append_eq_nil_iff, map_eq_nil_iff] at hnone
      simp [held, hnone.1, hnone.2]
    simpa [Conserved, hheld] using hcons

end Runs

/-- An endpoint answers over two interfaces, the second time slower: the second connection is
neither destroyed nor passed on, and no record holds it. So are those of a location that is stopped. -/
theorem slower_connection_lost :
    let e : VpnEndpoint := ⟨⟨[10, 0, 0, 1], 443⟩, [], []⟩
    let slower : List Call :=
      [.startTask true, .ping 0 (.ok e 20 none false (some 1)), .ping 0 (.ok e 30 none false (some 2)),
        .ping 0 .finished]
    let stopped : List Call := [.startTask true, .ping 0 (.ok e 20 none false (some 1)), .stop]
    handed ((pinger [⟨[], [e]⟩] false).trace (start [⟨[], [e]⟩] false) slower) = [1, 2] ∧
      destroyed (raised [⟨[], [e]⟩] false slower) = [] ∧
      passed (raised [⟨[], [e]⟩] false slower) = [1] ∧ (after [⟨[], [e]⟩] false slower).held = [] ∧
      handed ((pinger [⟨[], [e]⟩] false).trace (start [⟨[], [e]⟩] false) stopped) = [1] ∧
      destroyed (raised [⟨[], [e]⟩] false stopped) = [] ∧
      passed (raised [⟨[], [e]⟩] false stopped) = [] ∧ (after [⟨[], [e]⟩] false stopped).held = [] := by
  decide

end LocationsPinger

end TrustTunnel.Ping
