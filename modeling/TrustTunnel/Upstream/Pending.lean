import TrustTunnel.Upstream.Session

/-!
# Upstream.Pending

Where the connections are that `open_connection` has handed out.

Two branches of the event handler lose pending connections: a session error of a child does, and a
connection refused by the child it waited for is dropped when the first upstream of the pool is still
opening. `lossless` names the calls that take neither.
-/

namespace TrustTunnel.Upstream

open Lib List

variable {m : Mux}

namespace Mux

/-! ## The property -/

/-- The id is in exactly one of the two tables, with its upstream in the pool. -/
def Placed (m : Mux) (id : ConnId) : Prop :=
  (∃ c, m.pending.lookup id = some c ∧ (m.pool.lookup c.upstreamId).isSome ∧ m.connections.lookup id = none) ∨
  (∃ u, m.connections.lookup id = some u ∧ (m.pool.lookup u).isSome ∧ m.pending.lookup id = none)

def firstTakes (m : Mux) (u : Nat) : Bool :=
  m.firstUpstream.any fun v =>
    v == u || (m.pool.lookup v).any fun info => info.state == .sessionOpened

/-- No pending connection is lost by the call. A child that opens takes the connections that waited
for it, or the first upstream can take them. A child session fails only when no connection waits for
an upstream that is closed for it. -/
def lossless (m : Mux) : Call → Bool
  | .child u .sessionOpened r =>
    (m.pool.lookup u).isNone || (m.pendingOf u).all (fun e => r.openConnection e.1) || m.firstTakes u
  | .child u (.error id e) _ =>
    (m.pool.lookup u).isNone || id != nonId ||
      (if isFatalError e then m.pending.entries.isEmpty else (m.pendingOf u).isEmpty)
  | _ => true

def PendingPlaced (m : Mux) : Prop :=
  ∀ id c, m.pending.lookup id = some c → (m.pool.lookup c.upstreamId).isSome

theorem placed_of_holds (h : m.WellFormed) (hp : m.PendingPlaced) {id : ConnId} (hid : m.Holds id) : m.Placed id := by
  cases hc : m.pending.lookup id with
  | some c => exact .inl ⟨c, hc, hp id c hc, h.apart id c hc⟩
  | none =>
    rcases hid with hid | hid
    · rw [hc] at hid
      cases hid
    · obtain ⟨u, hu⟩ := Option.isSome_iff_exists.mp hid
      obtain ⟨info, hinfo, -⟩ := h.connected id u hu
      exact .inr ⟨u, hu, by rw [hinfo]; rfl, hc⟩

/-! ## A child opens -/

theorem lossless_opened {u : Nat} {r : Replies} (hu : (m.pool.lookup u).isSome)
    (h : m.lossless (.child u .sessionOpened r) = true) :
    (∀ e ∈ m.pendingOf u, r.openConnection e.1 = true) ∨ (m.markOpened u).FirstOpened := by
  simp only [lossless, Bool.or_eq_true, all_eq_true] at h
  rcases h with (h | h) | h
  · rw [Option.isNone_iff_eq_none] at h
    rw [h] at hu
    cases hu
  · exact .inl h
  refine .inr ?_
  have hkeys : (m.markOpened u).firstUpstream = m.firstUpstream := by
    simp [firstUpstream, markOpened]
  cases hv : m.firstUpstream with
  | none => rw [firstTakes, hv] at h; cases h
  | some v =>
    rw [firstTakes, hv, Option.any_some, Bool.or_eq_true, beq_iff_eq] at h
    refine ⟨v, hkeys.trans hv, ?_⟩
    by_cases hvu : v = u
    · subst hvu
      exact opened_markOpened hu
    have hopen := h.resolve_left hvu
    cases hlook : m.pool.lookup v with
    | none => rw [hlook] at hopen; cases hopen
    | some info =>
      rw [hlook] at hopen
      exact ⟨info, by simp [markOpened, hvu, hlook], by simpa using hopen⟩

attribute [local simp] connect

theorem keeps_proceedAndErase {u : Nat} (hu : m.Opened u) {r : Replies}
    {e : (_ : ConnId) × PendingConnection} (htaken : r.openConnection e.1 = true ∨ m.FirstOpened) :
    m.Keeps (proceedAndErase u r e m) := by
  obtain ⟨P, hP, hspec⟩ := proceedAndErase_spec hu r e
  intro j hj
  -- another id stays where it is
  have hother : j ≠ e.1 → ({ m with pending := P }).Holds j := by
    intro hne
    rcases hj with hj | hj
    · exact .inl (by rw [hP, if_neg hne]; exact hj)
    · exact .inr hj
  rcases hspec with ⟨v, hv, heq⟩ | ⟨heq, hrep⟩
  · refine .inl ?_
    rw [heq]
    by_cases hne : j = e.1
    · exact .inr (by simp [hne])
    · rcases hother hne with h | h
      · exact .inl h
      · exact .inr (by simpa [hne] using h)
  · by_cases hne : j = e.1
    · rcases hrep with hrep | ⟨hrefused, hnot⟩
      · exact .inr (hne ▸ hrep)
      rcases htaken with htaken | htaken
      · rw [htaken] at hrefused
        cases hrefused
      · exact absurd htaken hnot
    · refine .inl ?_
      rw [heq]
      exact hother hne

theorem pending_proceedAndErase {u : Nat} (hu : m.Opened u) (r : Replies)
    (e : (_ : ConnId) × PendingConnection) {id : ConnId} {c : PendingConnection}
    (hc : (proceedAndErase u r e m).1.pending.lookup id = some c) : m.pending.lookup id = some c := by
  obtain ⟨P, hP, hspec⟩ := proceedAndErase_spec hu r e
  have hpending : (proceedAndErase u r e m).1.pending = P := by
    rcases hspec with ⟨v, -, heq⟩ | ⟨heq, -⟩
    · rw [heq]; rfl
    · rw [heq]
  rw [hpending, hP] at hc
  split at hc
  · cases hc
  · exact hc

theorem childOpened_accounts (hp : m.PendingPlaced) {u : Nat} {r : Replies}
    (hu : (m.pool.lookup u).isSome) (h : m.lossless (.child u .sessionOpened r) = true) :
    m.Keeps (m.childOpened u r) ∧ (m.childOpened u r).1.PendingPlaced := by
  have hcase := lossless_opened hu h
  let outs : List Output := if m.sessionOpen then [] else [.raised .sessionOpened]
  -- along the loop: nothing lost so far, the same children open, no new pending connections
  have hloop := forEach_inv (f := proceedAndErase u r) (l := (m.markOpened u).pendingOf u)
    (s := m.markOpened u) (o := outs)
    (J := fun o s => m.Keeps (s, o) ∧ PassFrame (m.markOpened u) s ∧
      ∀ id c, s.pending.lookup id = some c → m.pending.lookup id = some c)
    ⟨fun id hid => .inl hid, PassFrame.refl _, fun _ _ hc => hc⟩ ?_
  · obtain ⟨hkeeps, hframe, hpending⟩ := hloop
    refine ⟨hkeeps, fun id c hc => ?_⟩
    have hin := hp id c (hpending id c hc)
    rw [AList.lookup_isSome, AList.mem_keys] at hin ⊢
    rw [show (m.childOpened u r).1.pool.keys = (m.markOpened u).pool.keys from hframe.keys]
    simpa [markOpened] using hin
  · rintro e he o s ⟨hkeeps, hframe, hpending⟩
    have hopen : s.Opened u := (hframe.opened u).mpr (opened_markOpened hu)
    have htaken : r.openConnection e.1 = true ∨ s.FirstOpened := by
      rcases hcase with hall | hfirst
      · exact .inl (hall e he)
      · exact .inr (hframe.firstOpened.mpr hfirst)
    refine ⟨Keeps.andDo (p := (s, o)) hkeeps (keeps_proceedAndErase hopen htaken),
      hframe.trans (passFrame_proceedAndErase hopen r e), fun id c hc => ?_⟩
    exact hpending id c (pending_proceedAndErase hopen r e hc)

/-! ## Children that close -/

theorem childReports_pending (m : Mux) (u : Nat) (fault : ConnId → Option VpnError) :
    (childReports u fault m).1.pending = m.pending := by
  cases hu : m.pool.lookup u with
  | none => rw [childReports_none hu]
  | some info =>
    obtain ⟨connections, -, heq⟩ := childReports_eq hu fault
    rw [heq]

theorem pendingPlaced_childReports (hp : m.PendingPlaced) (u : Nat)
    (fault : ConnId → Option VpnError) : (childReports u fault m).1.PendingPlaced := by
  intro id c hc
  rw [childReports_pending] at hc
  have := hp id c hc
  rw [AList.lookup_isSome, AList.mem_keys] at this ⊢
  rwa [childReports_keys]

theorem pendingPlaced_closeUpstream (hp : m.PendingPlaced) {u : Nat}
    (hu : ∀ id c, m.pending.lookup id = some c → c.upstreamId ≠ u) : (closeUpstream u m).1.PendingPlaced := by
  obtain ⟨sessionOpen, pendingError, heq⟩ := closeUpstream_state m u
  rw [heq]
  intro id c hc
  have hne := hu id c hc
  simpa [hne] using hp id c hc

theorem pending_forEach_refuse (l : List ((_ : ConnId) × PendingConnection)) (m : Mux) (id : ConnId) :
    (forEach refusePending l m).1.pending.lookup id = if ∃ e ∈ l, e.1 = id then none else m.pending.lookup id := by
  induction l generalizing m with
  | nil => simp [forEach]
  | cons e l ih =>
    simp only [forEach, andDo, ih, refusePending]
    by_cases h1 : ∃ e ∈ l, e.1 = id
    · simp [h1]
    · by_cases h2 : id = e.1
      · simp [h2]
      · simp [h1, h2, Ne.symm h2]

theorem pendingPlaced_childClosed (hp : m.PendingPlaced) (u : Nat) : (m.childClosed u).1.PendingPlaced := by
  have hlook := pending_forEach_refuse (m.pendingOf u) m
  have hpool : (forEach refusePending (m.pendingOf u) m).1.pool = m.pool :=
    forEach_state (I := fun s : Mux => s.pool = m.pool) rfl fun _ _ _ h => h
  refine pendingPlaced_closeUpstream ?_ ?_
  · intro id c hc
    rw [hlook] at hc
    rw [hpool]
    split at hc
    · cases hc
    · exact hp id c hc
  · intro id c hc heq
    rw [hlook] at hc
    split at hc
    · cases hc
    · rename_i hnot
      exact hnot ⟨⟨id, c⟩, pendingOf_mem hc heq, rfl⟩

theorem pendingPlaced_of_empty (h : m.pending.entries = []) : m.PendingPlaced := by
  intro id c hc
  simp [AList.lookup, h] at hc

theorem pendingPlaced_childFailed (hp : m.PendingPlaced) {u : Nat} {e : VpnError} {r : Replies}
    (hu : (m.pool.lookup u).isSome) (h : m.lossless (.child u (.error nonId e) r) = true) :
    (m.childFailed u e r).1.PendingPlaced := by
  have hnone : (m.pool.lookup u).isNone = false := by
    rw [← Option.not_isSome, hu]
    rfl
  simp only [lossless, hnone, bne_self_eq_false, Bool.false_or] at h
  unfold childFailed
  split_ifs with hfatal
  · rw [if_pos hfatal, List.isEmpty_iff] at h
    refine pendingPlaced_of_empty ?_
    refine forEach_state (I := fun s : Mux => s.pending.entries = []) h fun v _ s hs => ?_
    obtain ⟨sessionOpen, pendingError, heq⟩ :=
      closeUpstream_state (childCloseSession v r.fault s).1 v
    simp only [andDo, heq]
    exact (congrArg AList.entries (childReports_pending s v r.fault)).trans hs
  · rw [if_neg hfatal, List.isEmpty_iff] at h
    refine pendingPlaced_closeUpstream (pendingPlaced_childReports hp u r.fault) ?_
    intro id c hc heq
    rw [childReports_pending] at hc
    have hmem := pendingOf_mem hc heq
    rw [h] at hmem
    cases hmem

/-! ## The session is closed -/

theorem closed_children (fault : ConnId → Option VpnError) (us : List Nat) (m : Mux) : ∀ u ∈ us, ∀ info,
      (forEach (fun u => childCloseSession u fault) us m).1.pool.lookup u = some info → info.connections = [] := by
  -- a child without connections stays without, and the child that is closed loses them
  have hkeep : ∀ (u v : Nat) (s : Mux), (∀ info, s.pool.lookup u = some info → info.connections = []) →
      ∀ info, (childCloseSession v fault s).1.pool.lookup u = some info → info.connections = [] := by
    intro u v s hs info hinfo
    change (childReports v fault s).1.pool.lookup u = some info at hinfo
    cases hv : s.pool.lookup v with
    | none => rw [childReports_none hv] at hinfo; exact hs info hinfo
    | some i =>
      obtain ⟨connections, -, heq⟩ := childReports_eq hv fault
      rw [heq] at hinfo
      simp only [Map.lookup_modify_eq] at hinfo
      split at hinfo
      · obtain ⟨i', -, rfl⟩ := Option.map_eq_some_iff.mp hinfo
        rfl
      · exact hs info hinfo
  have hself : ∀ (u : Nat) (s : Mux) info,
      (childCloseSession u fault s).1.pool.lookup u = some info → info.connections = [] := by
    intro u s info hinfo
    change (childReports u fault s).1.pool.lookup u = some info at hinfo
    cases hu : s.pool.lookup u with
    | none => rw [childReports_none hu, hu] at hinfo; cases hinfo
    | some i =>
      obtain ⟨connections, -, heq⟩ := childReports_eq hu fault
      rw [heq] at hinfo
      simp only [Map.lookup_modify_eq] at hinfo
      obtain ⟨i', -, rfl⟩ := Option.map_eq_some_iff.mp hinfo
      rfl
  induction us generalizing m with
  | nil => intro u hu; cases hu
  | cons v us ih =>
    intro u hu
    rcases mem_cons.mp hu with rfl | hu
    · exact forEach_state (s := (childCloseSession u fault m).1) (hself u m) fun w _ s hs => hkeep u w s hs
    · exact ih (childCloseSession v fault m).1 u hu

attribute [local simp] ServerEvent.reports

theorem closeSession_accounts (h : m.WellFormed) (r : Replies) :
    m.Keeps (m.closeSession r) ∧ (m.closeSession r).1.PendingPlaced := by
  refine ⟨?_, fun id c hc => by cases hc⟩
  refine Keeps.andDo (Keeps.forEach fun u _ s => keeps_childCloseSession u r.fault s) ?_
  have hwf : (forEach (fun u => childCloseSession u r.fault) m.pool.keys m).1.WellFormed :=
    forEach_state h fun u _ s hs => wellFormed_childReports hs u r.fault
  have hkeys : (forEach (fun u => childCloseSession u r.fault) m.pool.keys m).1.pool.keys
      = m.pool.keys := closeChildren_keys m m.pool.keys r.fault
  have hclosed := closed_children r.fault m.pool.keys m
  intro id hid
  rcases hid with hid | hid
  · obtain ⟨c, hc⟩ := Option.isSome_iff_exists.mp hid
    refine .inr ⟨.raised (.error id ⟨.connReset, "Session closed"⟩), ?_, ?_⟩
    · exact mem_map.mpr ⟨⟨id, c⟩, of_mem_dlookup hc, rfl⟩
    · simp [Output.reports]
  · -- every child was asked to close, so none has a connection left
    obtain ⟨u, hu⟩ := Option.isSome_iff_exists.mp hid
    obtain ⟨info, hinfo, hmem⟩ := hwf.connected id u hu
    have hin : u ∈ m.pool.keys := by
      rw [← hkeys, ← AList.mem_keys, ← AList.lookup_isSome, hinfo]
      rfl
    rw [hclosed u hin info hinfo] at hmem
    cases hmem

/-! ## Connections are opened -/

theorem openConnectionOn_accounts (hp : m.PendingPlaced) (u : Nat) (id : ConnId) (request : Request) (ok : Bool) :
    (∀ j, m.Holds j → (m.openConnectionOn u id request ok).2.1.Holds j) ∧
    (m.openConnectionOn u id request ok).2.1.PendingPlaced ∧ ((m.openConnectionOn u id request ok).1 = true →
      (m.openConnectionOn u id request ok).2.1.Holds id) := by
  unfold openConnectionOn
  split
  · exact ⟨fun _ h => h, hp, fun h => by cases h⟩
  rename_i info hinfo
  split
  · refine ⟨fun j hj => ?_, fun j c hc => ?_, fun _ => .inl (by simp)⟩
    · by_cases hji : j = id
      · exact .inl (by simp [hji])
      · simpa [Holds, hji] using hj
    simp only [Map.lookup_emplace_eq] at hc
    split at hc
    · cases hl : m.pending.lookup id with
      | some d => rw [hl] at hc; cases hc; exact hp id _ hl
      | none => rw [hl] at hc; cases hc; simp [hinfo]
    · exact hp j c hc
  · split
    · refine ⟨fun j hj => ?_, fun j c hc => ?_, fun _ => .inr (by simp)⟩
      · by_cases hji : j = id
        · exact .inr (by simp [hji])
        · simpa [Holds, hji] using hj
      · have hin := hp j c hc
        by_cases hcu : c.upstreamId = u
        · rw [hcu] at hin ⊢
          simp [hinfo]
        · simpa [hcu] using hin
    · exact ⟨fun _ h => h, hp, fun h => by cases h⟩

theorem openConnection_accounts (hp : m.PendingPlaced) (request : Request) (r : Replies) :
    m.Keeps (m.openConnection request r) ∧ (m.openConnection request r).1.PendingPlaced ∧
    ∀ id, id ≠ nonId → .returned id ∈ (m.openConnection request r).2 →
      (m.openConnection request r).1.Holds id := by
  have hasked : ∀ {outs : List Output} {id : ConnId}, (∀ o ∈ outs, ∃ v c, o = .asked v c) →
    .returned id ∉ outs := by
    intro outs id h hmem
    obtain ⟨v, c, hvc⟩ := h _ hmem
    cases hvc
  rcases openConnection_cases m request r with heq | ⟨n, -, -, hcases⟩
  · rw [heq]
    refine ⟨Keeps.refl m _, hp, fun id hid hmem => ?_⟩
    simp only [mem_singleton, Output.returned.injEq] at hmem
    exact absurd hmem hid
  · rcases hcases with ⟨u, asked, -, hask, heq⟩ | ⟨u, hu, -, heq⟩ | ⟨asked, hask, heq⟩
    · obtain ⟨hkeep, hplaced, hheld⟩ := openConnectionOn_accounts
        (m := { m with nextUpstreamId := n, nextConnId := m.nextConnId + 1 }) hp u m.nextConnId
        request (r.openConnection m.nextConnId)
      have hask' : ∀ o ∈ (openConnectionOn
          { m with nextUpstreamId := n, nextConnId := m.nextConnId + 1 } u m.nextConnId request
          (r.openConnection m.nextConnId)).2.2, ∃ v c, o = .asked v c := by
        unfold openConnectionOn
        repeat' split
        all_goals simp
      rw [heq]
      refine ⟨fun j hj => .inl (hkeep j hj), hplaced, fun id hid hmem => ?_⟩
      simp only [mem_append, mem_singleton] at hmem
      rcases hmem with (hmem | hmem) | hmem
      · exact absurd hmem (hasked hask)
      · exact absurd hmem (hasked hask')
      cases hmem
      split_ifs at hid with hok
      · rw [if_pos hok]
        exact hheld hok
      · exact absurd rfl hid
    · rw [heq]
      refine ⟨fun j hj => .inl ?_, fun j c hc => ?_, fun id _ hmem => ?_⟩
      · by_cases hji : j = m.nextConnId
        · exact .inl (by simp [hji])
        · simpa [Holds, hji] using hj
      · simp only [Map.lookup_emplace_eq] at hc
        simp only [Map.lookup_insert_eq]
        split_ifs with hcu
        · rfl
        split at hc
        · cases hl : m.pending.lookup m.nextConnId with
          | some d => rw [hl] at hc; cases hc; exact hp _ _ hl
          | none => rw [hl] at hc; cases hc; exact absurd rfl hcu
        · exact hp j c hc
      · simp only [mem_cons, not_mem_nil, or_false, reduceCtorEq, false_or, Output.returned.injEq] at hmem
        exact .inl (by simp [hmem])
    · rw [heq]
      refine ⟨fun j hj => .inl hj, hp, fun id hid hmem => ?_⟩
      simp only [mem_append, mem_singleton, Output.returned.injEq] at hmem
      rcases hmem with hmem | hmem
      · exact absurd hmem (hasked hask)
      · exact absurd hmem hid

/-! ## Calls -/

theorem openSession_accounts (hp : m.PendingPlaced) (timeout : Option Nat) (r : Replies) :
    m.Keeps (m.openSession timeout r) ∧ (m.openSession timeout r).1.PendingPlaced := by
  rcases openSession_cases m timeout r with ⟨n, heq⟩ | ⟨u, n, -, -, heq⟩
  · exact ⟨fun id hid => .inl (by rw [heq]; exact hid), by rw [heq]; exact hp⟩
  refine ⟨fun id hid => .inl (by rw [heq]; exact hid), ?_⟩
  rw [heq]
  intro id c hc
  simp only [Map.lookup_insert_eq]
  split
  · rfl
  · exact hp id c hc

theorem childUpstreamHandler_accounts (hp : m.PendingPlaced) (u : Nat) (what : ServerEvent)
    (r : Replies) (hl : m.lossless (.child u what r) = true) : m.Keeps (m.childUpstreamHandler u what r) ∧
      (m.childUpstreamHandler u what r).1.PendingPlaced := by
  have hforget : ∀ id (e : ServerEvent), e.reports id = true →
      m.Keeps (m.forgetConnection u id, [.raised e]) ∧ (m.forgetConnection u id).PendingPlaced := by
    intro id e he
    refine ⟨keeps_forgetConnection m u id he, fun j c hc => ?_⟩
    have hin := hp j c hc
    rw [AList.lookup_isSome, AList.mem_keys] at hin ⊢
    simpa [forgetConnection] using hin
  unfold childUpstreamHandler
  split_ifs with hin
  · exact ⟨Keeps.refl m [], hp⟩
  have hu : (m.pool.lookup u).isSome := by simpa [Option.isSome_iff_ne_none] using hin
  cases what with
  | sessionOpened => exact childOpened_accounts hp hu hl
  | sessionClosed => exact ⟨keeps_childClosed m u, pendingPlaced_childClosed hp u⟩
  | connectionClosed id => exact hforget id _ (by simp)
  | error id e =>
    dsimp only
    split_ifs with hid
    · exact hforget id _ (by simp)
    · have hid' : id = nonId := Decidable.not_not.mp hid
      subst hid'
      exact ⟨keeps_childFailed m u e r, pendingPlaced_childFailed hp hu hl⟩
  | _ => exact ⟨Keeps.refl m _, hp⟩

theorem returned_openConnection (h : m.WellFormed) {c : Call} {id : ConnId}
    (hmem : .returned id ∈ (m.step c).2) : ∃ request r, c = .openConnection request r := by
  cases c with
  | openConnection request r => exact ⟨request, r, rfl⟩
  | openSession timeout r =>
    simp only [step, openSession, openNewUpstream] at hmem
    repeat' split at hmem
    all_goals simp at hmem
  | closeSession r =>
    rcases mem_append.mp hmem with hmem | hmem
    · exact absurd hmem ((effect_closeChildren h r.fault).noReturn id)
    · simp at hmem
  | child u what r =>
    by_cases hwhat : what = .sessionOpened
    · simp only [hwhat, step, childUpstreamHandler] at hmem
      split at hmem
      · cases hmem
      · rcases mem_append.mp hmem with hmem | hmem
        · split at hmem <;> simp at hmem
        · exact absurd hmem ((effect_waiting (wellFormed_markOpened h u) u r).noReturn id)
    · exact absurd hmem ((effect_child h u what hwhat r).noReturn id)
  | closeConnection i graceful async =>
    simp only [step, closeConnection] at hmem
    repeat' split at hmem
    all_goals simp at hmem
  | otherIds upstreams connections => cases hmem
  | reorderPool u | reorderPending i =>
    simp only [step] at hmem
    split at hmem <;> cases hmem

theorem step_accounts (h : m.WellFormed) (hp : m.PendingPlaced) {c : Call}
    (hl : m.lossless c = true) : m.Keeps (m.step c) ∧ (m.step c).1.PendingPlaced := by
  cases c with
  | openSession timeout r => exact openSession_accounts hp timeout r
  | closeSession r => exact closeSession_accounts h r
  | openConnection request r =>
    obtain ⟨hkeeps, hplaced, -⟩ := openConnection_accounts hp request r
    exact ⟨hkeeps, hplaced⟩
  | closeConnection id graceful async =>
    simp only [step, closeConnection]
    repeat' split
    all_goals exact ⟨Keeps.refl m _, hp⟩
  | child u what r =>
    by_cases hwhat : what = .sessionClosed
    · subst hwhat
      obtain ⟨hkeeps, hplaced⟩ := childUpstreamHandler_accounts
        (pendingPlaced_childReports hp u r.fault) u .sessionClosed r rfl
      exact ⟨Keeps.andDo (keeps_childReports u r.fault m) hkeeps, hplaced⟩
    · have hstep : m.step (.child u what r) = m.childUpstreamHandler u what r := by
        cases what <;> first | rfl | exact absurd rfl hwhat
      rw [hstep]
      exact childUpstreamHandler_accounts hp u what r hl
  | otherIds upstreams connections => exact ⟨fun id hid => .inl hid, hp⟩
  | reorderPool u =>
    simp only [step]
    split
    · rename_i info hu
      refine ⟨fun id hid => .inl hid, fun id c hc => ?_⟩
      rw [Map.lookup_reinsert hu]
      exact hp id c hc
    · exact ⟨Keeps.refl m _, hp⟩
  | reorderPending i =>
    simp only [step]
    split
    · rename_i d hd
      have hsame := Map.lookup_reinsert hd
      refine ⟨fun id hid => .inl ?_, fun id c hc => hp id c (hsame id ▸ hc)⟩
      simpa only [Holds, hsame] using hid
    · exact ⟨Keeps.refl m _, hp⟩

/-! ## Runs -/

def Accounted (outs : List Output) (m : Mux) : Prop :=
  ∀ id, id ≠ nonId → .returned id ∈ outs → m.Holds id ∨ ∃ o ∈ outs, o.reports id = true

theorem accounted_step {outs : List Output} {m : Mux} (h : m.WellFormed) (hp : m.PendingPlaced)
    {c : Call} (hl : m.lossless c = true) (ha : Accounted outs m) : Accounted (outs ++ (m.step c).2) (m.step c).1 := by
  intro id hid hmem
  rcases mem_append.mp hmem with hmem | hmem
  · rcases ha id hid hmem with hheld | ⟨o, ho, hrep⟩
    · -- handed out before and still held: the call keeps it or reports it
      rcases (step_accounts h hp hl).1 id hheld with hheld | ⟨o, ho, hrep⟩
      · exact .inl hheld
      · exact .inr ⟨o, mem_append_right _ ho, hrep⟩
    · exact .inr ⟨o, mem_append_left _ ho, hrep⟩
  · obtain ⟨request, r, rfl⟩ := returned_openConnection h hmem
    exact .inl ((openConnection_accounts hp request r).2.2 id hid hmem)

/-- No id is silently dropped: it is in exactly one of the tables, or the parent was told. -/
theorem connection_accounted (upstreamsNum : Nat) (calls : List Call)
    (hmeets : (system upstreamsNum).Meets (fun m c => m.lossless c = true) (init upstreamsNum) calls)
    (id : ConnId) (hid : id ≠ nonId)
    (hret : .returned id ∈ System.outputs ((system upstreamsNum).trace (init upstreamsNum) calls)) :
    ((system upstreamsNum).exec (init upstreamsNum) calls).Placed id ∨
      ∃ o ∈ System.outputs ((system upstreamsNum).trace (init upstreamsNum) calls), o.reports id = true := by
  have hrun := (system upstreamsNum).inv_run
    (J := fun h m => m.WellFormed ∧ m.PendingPlaced ∧ Accounted (System.outputs h) m)
    ⟨wellFormed_init upstreamsNum, pendingPlaced_of_empty rfl, fun _ _ hmem => nomatch hmem⟩ (fun h m c hJ hl => by
      obtain ⟨hwf, hp, ha⟩ := hJ
      refine ⟨wellFormed_step hwf c, (step_accounts hwf hp hl).2, ?_⟩
      rw [System.outputs_append, System.outputs_record]
      exact accounted_step hwf hp hl ha) calls hmeets
  obtain ⟨hwf, hp, ha⟩ := hrun
  exact (ha id hid hret).imp_left (placed_of_holds hwf hp)

def openedWhileWaiting : List Call :=
  [.openSession none allAccepted, .openConnection anyRequest allAccepted, .child 0 .sessionOpened allAccepted]

theorem accounted_openedWhileWaiting : ((system 1).exec (init 1) openedWhileWaiting).Placed 1 ∨
      ∃ o ∈ System.outputs ((system 1).trace (init 1) openedWhileWaiting), o.reports 1 = true :=
  connection_accounted 1 openedWhileWaiting (by decide +kernel) 1 (by decide) (by decide +kernel)

def failedWhileWaiting : List Call :=
  [.openSession none allAccepted, .openConnection anyRequest allAccepted,
    .child 0 (.error nonId ⟨.connReset, "reset"⟩) allAccepted]

/-- The id was handed out and stays in the pending table without an upstream; the parent never
hears of it. -/
theorem pending_lost : .returned 1 ∈ System.outputs ((system 1).trace (init 1) failedWhileWaiting) ∧
      ¬ ((system 1).exec (init 1) failedWhileWaiting).Placed 1 ∧
      ¬ ∃ o ∈ System.outputs ((system 1).trace (init 1) failedWhileWaiting), o.reports 1 = true := by
  have hempty : ((system 1).exec (init 1) failedWhileWaiting).pool.entries = [] := by
    decide +kernel
  refine ⟨by decide +kernel, ?_, by decide +kernel⟩
  rintro (⟨c, -, hpool, -⟩ | ⟨u, -, hpool, -⟩) <;> rw [lookup_of_empty hempty] at hpool <;>
    cases hpool

end Mux
end TrustTunnel.Upstream
