import TrustTunnel.Upstream.Invariant

/-!
# Upstream.Session

The session events the parent sees: one `SESSION_OPENED` when the first child opens, one
`SESSION_CLOSED` or session `ERROR` when the pool becomes empty.

`close_session` empties the pool but leaves the flag that `SESSION_OPENED` was raised, so a session
opened after it is never announced.
-/

namespace TrustTunnel.Upstream

open Lib List

def Output.opensSession : Output → Bool
  | .raised .sessionOpened => true
  | _ => false

def Output.endsSession : Output → Bool
  | .raised e => e.endsSession
  | _ => false

namespace Mux

/-! ## What the parts of a call do to the session -/

open Output

structure Quiet (m : Mux) (p : Part) : Prop where
  noEnd : p.2.countP endsSession = 0
  flag : p.1.sessionOpen = m.sessionOpen
  pool : p.1.pool.entries = [] ↔ m.pool.entries = []

structure Ended (m : Mux) (p : Part) : Prop where
  oneEnd : p.2.countP endsSession = 1
  flag : p.1.sessionOpen = false
  pool : p.1.pool.entries = []
  before : m.pool.entries ≠ []

/-- A part that neither announces the session nor answers a call of the parent. -/
structure Effect (m : Mux) (p : Part) : Prop where
  noReturn : ∀ id, .returned id ∉ p.2
  noOpen : p.2.countP opensSession = 0
  session : m.Quiet p ∨ m.Ended p

theorem Quiet.nil (m : Mux) : m.Quiet (m, []) := ⟨rfl, rfl, Iff.rfl⟩

theorem Effect.nil (m : Mux) : m.Effect (m, []) := ⟨by simp, rfl, .inl (Quiet.nil m)⟩

variable {m : Mux} {p : Part} {c : Call}

theorem Effect.andDo {g : Mux → Part} (hp : m.Effect p) (hg : p.1.Effect (g p.1)) : m.Effect (andDo p g) := by
  refine ⟨fun id h => ?_, ?_, ?_⟩
  · rcases mem_append.mp h with h | h
    · exact hp.noReturn id h
    · exact hg.noReturn id h
  · simp [Lib.andDo, countP_append, hp.noOpen, hg.noOpen]
  have hcount : (Lib.andDo p g).2.countP endsSession = p.2.countP endsSession + (g p.1).2.countP endsSession :=
    countP_append
  rcases hp.session with hq | he
  · rcases hg.session with hq' | he'
    · exact .inl ⟨by rw [hcount, hq.noEnd, hq'.noEnd], hq'.flag.trans hq.flag, hq'.pool.trans hq.pool⟩
    · exact .inr ⟨by rw [hcount, hq.noEnd, he'.oneEnd], he'.flag, he'.pool, fun h => he'.before (hq.pool.mpr h)⟩
  · -- the pool is empty now, so it cannot become empty again
    rcases hg.session with hq' | he'
    · exact .inr ⟨by rw [hcount, he.oneEnd, hq'.noEnd], hq'.flag.trans he.flag, hq'.pool.mpr he.pool, he.before⟩
    · exact absurd he.pool he'.before

theorem Effect.quiet (h : m.Effect p) (hkeys : p.1.pool.keys = m.pool.keys) : m.Quiet p := by
  rcases h.session with hq | he
  · exact hq
  have hnil : m.pool.entries.map Sigma.fst = [] := by
    rw [← List.keys, ← AList.keys, ← hkeys, AList.keys, he.pool]
    rfl
  exact absurd (map_eq_nil_iff.mp hnil) he.before

theorem Effect.forEach {α : Type} {f : α → Mux → Part} {I : Mux → Prop} {l : List α} (h0 : I m)
    (hf : ∀ a ∈ l, ∀ s, I s → s.Effect (f a s) ∧ I (f a s).1) : m.Effect (forEach f l m) := by
  have hloop := forEach_inv (J := fun o s => m.Effect (s, o) ∧ I s) ⟨Effect.nil m, h0⟩ fun a ha o s h =>
      ⟨Effect.andDo h.1 (hf a ha s h.2).1, (hf a ha s h.2).2⟩
  simpa using hloop.1

attribute [local simp] Output.endsSession

theorem effect_reportConnection (fault : ConnId → Option VpnError) {id : ConnId} (hid : id ≠ nonId)
    (m : Mux) : m.Effect (reportConnection fault id m) := by
  refine ⟨by simp [reportConnection], ?_, .inl ⟨?_, rfl, Iff.rfl⟩⟩
  · simp only [reportConnection]
    cases fault id <;> rfl
  simp only [reportConnection]
  cases fault id with
  | none => rfl
  | some e => simp [ServerEvent.endsSession, hid]

theorem entries_modify (m : Map Nat UpstreamInfo) (u : Nat) (f : UpstreamInfo → UpstreamInfo) :
    (m.modify u f).entries = [] ↔ m.entries = [] := by
  have h := Map.size_modify m u f
  simp only [Map.size] at h
  rw [← length_eq_zero_iff, ← length_eq_zero_iff, h]

theorem effect_childReports (h : m.WellFormed) (u : Nat) (fault : ConnId → Option VpnError) :
    m.Effect (childReports u fault m) := by
  unfold childReports
  split
  · exact Effect.nil m
  rename_i info hinfo
  refine Effect.andDo (Effect.forEach (I := fun _ => True) trivial fun id hid s _ =>
    ⟨effect_reportConnection fault (h.connId_ne (h.childId u info hinfo id hid)) s, trivial⟩) ?_
  exact ⟨by simp, rfl, .inl ⟨rfl, rfl, entries_modify _ _ _⟩⟩

theorem effect_childCloseSession (h : m.WellFormed) (u : Nat) (fault : ConnId → Option VpnError) :
    m.Effect (childCloseSession u fault m) :=
  Effect.andDo ⟨by simp, rfl, .inl ⟨rfl, rfl, Iff.rfl⟩⟩ (effect_childReports h u fault)

theorem effect_closeUpstream (m : Mux) (u : Nat) : m.Effect (closeUpstream u m) := by
  unfold closeUpstream
  split_ifs with hu
  · exact Effect.nil m
  have hin : m.pool.entries ≠ [] := by
    intro hnil
    exact hu (by rw [lookup_of_empty hnil]; rfl)
  dsimp only
  split_ifs with hleft
  · have hleft' : (m.pool.erase u).entries ≠ [] := by simpa using hleft
    exact ⟨by simp, rfl, .inl ⟨rfl, rfl, ⟨fun h => absurd h hleft', fun h => absurd h hin⟩⟩⟩
  have hleft' : (m.pool.erase u).entries = [] := by simpa using hleft
  split
  all_goals exact ⟨by simp, rfl, .inr ⟨rfl, rfl, hleft', hin⟩⟩

theorem effect_closeChild (h : m.WellFormed) (u : Nat) (fault : ConnId → Option VpnError) :
    m.Effect (andDo (childCloseSession u fault m) (closeUpstream u)) :=
  Effect.andDo (effect_childCloseSession h u fault) (effect_closeUpstream _ u)

theorem effect_childFailed (h : m.WellFormed) (u : Nat) (e : VpnError) (r : Replies) :
    m.Effect (m.childFailed u e r) := by
  unfold childFailed
  split
  · have hm : ({ m with pendingError := some e }).WellFormed :=
      ⟨h.nextConn, h.pendingId, h.childId, h.connected, h.apart⟩
    obtain ⟨h1, h2, h3⟩ := Effect.forEach hm fun v _ s hs =>
      ⟨effect_closeChild hs v r.fault, wellFormed_closeChild hs v r.fault⟩
    refine ⟨h1, h2, ?_⟩
    rcases h3 with hq | he
    · exact .inl ⟨hq.noEnd, hq.flag, hq.pool⟩
    · exact .inr ⟨he.oneEnd, he.flag, he.pool, he.before⟩
  · exact effect_closeChild h u r.fault

theorem effect_refusePending {e : (_ : ConnId) × PendingConnection} (he : e.1 ≠ nonId) (m : Mux) :
    m.Effect (refusePending e m) := by
  refine ⟨by simp [refusePending], rfl, .inl ⟨?_, rfl, Iff.rfl⟩⟩
  simp [refusePending, ServerEvent.endsSession, he]

theorem effect_childClosed (h : m.WellFormed) (u : Nat) : m.Effect (m.childClosed u) :=
  Effect.andDo (Effect.forEach (I := fun _ => True) trivial fun e he s _ =>
    ⟨effect_refusePending (h.connId_ne (h.pendingId e.1 e.2 (mem_pendingOf he).1)) s, trivial⟩)
    (effect_closeUpstream _ u)

theorem effect_openConnectionOn (m : Mux) (u : Nat) (id : ConnId) (request : Request) (ok : Bool) :
    m.Effect (m.openConnectionOn u id request ok).2 := by
  unfold openConnectionOn
  split
  · exact Effect.nil m
  split
  · exact ⟨by simp, rfl, .inl ⟨rfl, rfl, Iff.rfl⟩⟩
  · split
    · exact ⟨by simp, rfl, .inl ⟨rfl, rfl, entries_modify _ _ _⟩⟩
    · exact ⟨by simp, rfl, .inl ⟨rfl, rfl, Iff.rfl⟩⟩

theorem effect_fallBack {id : ConnId} (hid : id ≠ nonId) (request : Request) (r : Replies)
    (m : Mux) : m.Effect (fallBack id request r m) := by
  unfold fallBack
  split
  · exact Effect.nil m
  rename_i v _
  have htry := effect_openConnectionOn m v id request (r.fallback id)
  split
  · rename_i part heq
    rw [heq] at htry
    exact htry
  · rename_i part heq
    rw [heq] at htry
    refine Effect.andDo htry ⟨by simp, rfl, .inl ⟨?_, rfl, Iff.rfl⟩⟩
    simp [ServerEvent.endsSession, hid]

theorem effect_proceedAndErase (u : Nat) (r : Replies) {e : (_ : ConnId) × PendingConnection}
    (he : e.1 ≠ nonId) (m : Mux) : m.Effect (proceedAndErase u r e m) := by
  have hproceed : m.Effect (m.proceedPendingConnection u e.1 e.2.request r) := by
    have htry := effect_openConnectionOn m u e.1 e.2.request (r.openConnection e.1)
    unfold proceedPendingConnection
    split
    · rename_i part heq
      rw [heq] at htry
      exact htry
    · rename_i part heq
      rw [heq] at htry
      exact Effect.andDo htry (effect_fallBack he e.2.request r _)
  exact Effect.andDo hproceed ⟨by simp, rfl, .inl ⟨rfl, rfl, Iff.rfl⟩⟩

theorem effect_waiting (h : m.WellFormed) (u : Nat) (r : Replies) :
    m.Effect (forEach (proceedAndErase u r) (m.pendingOf u) m) :=
  Effect.forEach (I := fun _ => True) trivial fun _ he s _ =>
    ⟨effect_proceedAndErase u r (h.connId_ne (h.pendingId _ _ (mem_pendingOf he).1)) s, trivial⟩

theorem effect_forgetConnection (m : Mux) (u : Nat) (id : ConnId) {e : ServerEvent}
    (hopen : e ≠ .sessionOpened) (hend : e.endsSession = false) :
    m.Effect (m.forgetConnection u id, [.raised e]) := by
  refine ⟨by simp, ?_, .inl ⟨?_, rfl, entries_modify _ _ _⟩⟩
  · cases e <;> first | rfl | exact absurd rfl hopen
  · simp [hend]

section

variable (h : m.WellFormed) (u : Nat) (what : ServerEvent) (hwhat : what ≠ .sessionOpened)
  (r : Replies)
include h hwhat

theorem effect_childUpstreamHandler : m.Effect (m.childUpstreamHandler u what r) := by
  unfold childUpstreamHandler
  split
  · exact Effect.nil m
  cases what with
  | sessionOpened => exact absurd rfl hwhat
  | sessionClosed => exact effect_childClosed h u
  | connectionClosed id => exact effect_forgetConnection m u id (by simp) rfl
  | error id e =>
    dsimp only
    split_ifs with hid
    · exact effect_forgetConnection m u id (by simp) (by simpa [ServerEvent.endsSession] using hid)
    · exact effect_childFailed h u e r
  | _ => exact ⟨by simp, rfl, .inl ⟨rfl, rfl, Iff.rfl⟩⟩

theorem effect_child : m.Effect (m.step (.child u what r)) := by
  cases what with
  | sessionOpened => exact absurd rfl hwhat
  | sessionClosed =>
    have hafter := wellFormed_childReports h u r.fault
    exact Effect.andDo (g := fun m' => m'.childUpstreamHandler u .sessionClosed r)
      (effect_childReports h u r.fault) (effect_childUpstreamHandler hafter u .sessionClosed hwhat r)
  | _ => exact effect_childUpstreamHandler h u _ hwhat r

end

/-! ## What a call does to the session -/

def startsCycle (m : Mux) : Call → Bool
  | .openSession _ r => m.pool.entries.isEmpty && r.openSession
  | _ => false

def childOpens (m : Mux) : Call → Bool
  | .child u .sessionOpened _ => (m.pool.lookup u).isSome
  | _ => false

/-- What a call other than `open_session` and the opening of a child does. -/
structure Passes (m : Mux) (p : Part) : Prop where
  noOpen : p.2.countP opensSession = 0
  session : m.Quiet p ∨ m.Ended p ∨ (p.2.countP endsSession = 0 ∧ p.1.pool.entries = [])

theorem Effect.passes (h : m.Effect p) : m.Passes p :=
  ⟨h.noOpen, h.session.imp_right .inl⟩

attribute [local simp] Output.opensSession

theorem countP_asked {outs : List Output} (h : ∀ o ∈ outs, ∃ u c, o = .asked u c) :
    outs.countP opensSession = 0 ∧ outs.countP endsSession = 0 := by
  constructor <;>
  · rw [countP_eq_zero]
    intro o ho
    obtain ⟨u, c, rfl⟩ := h o ho
    simp

theorem passes_openConnection (m : Mux) (request : Request) (r : Replies) : m.Passes (m.openConnection request r) := by
  rcases openConnection_cases m request r with heq | ⟨n, hne, -, hcases⟩
  · rw [heq]
    exact ⟨rfl, .inl ⟨rfl, rfl, Iff.rfl⟩⟩
  rcases hcases with ⟨u, asked, -, hasked, heq⟩ | ⟨u, hu, -, heq⟩ | ⟨asked, hasked, heq⟩
  · have htry := effect_openConnectionOn
      { m with nextUpstreamId := n, nextConnId := m.nextConnId + 1 } u m.nextConnId request
      (r.openConnection m.nextConnId)
    obtain ⟨ho, he⟩ := countP_asked hasked
    rw [heq]
    refine ⟨?_, ?_⟩
    · simp [ho, htry.noOpen]
    · rcases htry.session with hq | hend
      · exact .inl ⟨by simp [he, hq.noEnd], hq.flag, hq.pool⟩
      · exact .inr (.inl ⟨by simp [he, hend.oneEnd], hend.flag, hend.pool, hend.before⟩)
  · rw [heq]
    refine ⟨rfl, .inl ⟨rfl, rfl, ?_⟩⟩
    simp [hne]
  · obtain ⟨ho, he⟩ := countP_asked hasked
    rw [heq]
    refine ⟨?_, .inl ⟨?_, rfl, Iff.rfl⟩⟩
    · simp [ho]
    · simp [he]

theorem openSession_outs (m : Mux) (timeout : Option Nat) (r : Replies) :
    (m.openSession timeout r).2.countP opensSession = 0 ∧ (m.openSession timeout r).2.countP endsSession = 0 := by
  unfold openSession openNewUpstream
  split
  · cases r.openSession <;> exact ⟨rfl, rfl⟩
  · exact ⟨rfl, rfl⟩

theorem openSession_flag (m : Mux) (timeout : Option Nat) (r : Replies) :
    (m.openSession timeout r).1.sessionOpen = m.sessionOpen := by
  rcases openSession_cases m timeout r with ⟨n, heq⟩ | ⟨u, n, -, -, heq⟩ <;> rw [heq]

theorem passes_openSession {timeout : Option Nat} {r : Replies}
    (h : m.startsCycle (.openSession timeout r) = false) : m.Passes (m.openSession timeout r) := by
  obtain ⟨ho, he⟩ := openSession_outs m timeout r
  refine ⟨ho, .inl ⟨he, openSession_flag m timeout r, ?_⟩⟩
  simp only [startsCycle, Bool.and_eq_false_iff] at h
  obtain ⟨n, hn⟩ := select_state m
  unfold openSession
  split_ifs with hempty
  · have hrefused : r.openSession = false := h.resolve_left (by simp [hempty])
    simp [openNewUpstream, hrefused, hn]
  · exact Iff.rfl

theorem effect_closeChildren (h : m.WellFormed) (fault : ConnId → Option VpnError) :
    m.Effect (forEach (fun u => childCloseSession u fault) m.pool.keys m) :=
  Effect.forEach h fun u _ _ hs =>
    ⟨effect_childCloseSession hs u fault, wellFormed_childReports hs u fault⟩

theorem passes_closeSession (h : m.WellFormed) (r : Replies) : m.Passes (m.closeSession r) := by
  have hloop := effect_closeChildren h r.fault
  have hwf : (forEach (fun u => childCloseSession u r.fault) m.pool.keys m).1.WellFormed :=
    forEach_state h fun u _ s hs => wellFormed_childReports hs u r.fault
  have hnoEnd := (hloop.quiet (closeChildren_keys m m.pool.keys r.fault)).noEnd
  unfold closeSession
  refine ⟨?_, .inr (.inr ⟨?_, rfl⟩)⟩
  · simp only [andDo, countP_append, hloop.noOpen, Nat.zero_add, countP_eq_zero, mem_map]
    rintro o ⟨e, -, rfl⟩
    simp
  · simp only [andDo, countP_append, hnoEnd, Nat.zero_add, countP_eq_zero, mem_map]
    rintro o ⟨e, he, rfl⟩
    have hid : e.1 ≠ nonId := hwf.connId_ne (hwf.pendingId e.1 e.2 (AList.mem_lookup_iff.mpr he))
    simp [ServerEvent.endsSession, hid]

theorem passes_step (h : m.WellFormed) (hs : m.startsCycle c = false) (ho : m.childOpens c = false) :
    m.Passes (m.step c) := by
  cases c with
  | openSession timeout r => exact passes_openSession hs
  | closeSession r => exact passes_closeSession h r
  | openConnection request r => exact passes_openConnection m request r
  | child u what r =>
    by_cases hwhat : what = .sessionOpened
    · have hu : (m.pool.lookup u).isNone := by simpa [hwhat, childOpens] using ho
      simp only [hwhat, step, childUpstreamHandler, hu]
      exact (Effect.nil m).passes
    · exact (effect_child h u what hwhat r).passes
  | closeConnection id graceful async =>
    simp only [step, closeConnection]
    split
    · exact (Effect.nil m).passes
    · split
      · exact ⟨rfl, .inl ⟨rfl, rfl, Iff.rfl⟩⟩
      · exact (Effect.nil m).passes
  | otherIds upstreams connections => exact ⟨rfl, .inl ⟨rfl, rfl, Iff.rfl⟩⟩
  | reorderPool u =>
    simp only [step]
    split
    · rename_i info hu
      refine ⟨rfl, .inl ⟨rfl, rfl, ?_⟩⟩
      have hne : m.pool.entries ≠ [] := fun hnil => by simp [lookup_of_empty hnil] at hu
      simp [hne]
    · exact (Effect.nil m).passes
  | reorderPending id =>
    simp only [step]
    split
    · exact ⟨rfl, .inl ⟨rfl, rfl, Iff.rfl⟩⟩
    · exact (Effect.nil m).passes

theorem childOpened_session (h : m.WellFormed) {u : Nat} (hu : (m.pool.lookup u).isSome) (r : Replies) :
    (m.childOpened u r).1.sessionOpen = true ∧
      (m.childOpened u r).2.countP opensSession = (if m.sessionOpen then 0 else 1) ∧
      (m.childOpened u r).2.countP endsSession = 0 := by
  have hloop := effect_waiting (wellFormed_markOpened h u) u r
  have hquiet := hloop.quiet (childOpened_frame h hu r).2.keys
  rw [childOpened_eq]
  refine ⟨hquiet.flag, ?_, ?_⟩
  · simp only [andDo, countP_append, hloop.noOpen]
    cases m.sessionOpen <;> rfl
  · simp only [andDo, countP_append, hquiet.noEnd]
    cases m.sessionOpen <;> rfl

theorem childOpens_step (h : m.WellFormed) (ho : m.childOpens c = true) :
    m.pool.entries ≠ [] ∧ (m.step c).1.sessionOpen = true ∧
      (m.step c).2.countP opensSession = (if m.sessionOpen then 0 else 1) ∧ (m.step c).2.countP endsSession = 0 := by
  cases c with
  | child u what r =>
    cases what with
    | sessionOpened =>
      have hu : (m.pool.lookup u).isSome := ho
      have hne : m.pool.entries ≠ [] := fun hnil => by simp [lookup_of_empty hnil] at hu
      have hin : (m.pool.lookup u).isNone = false := by simpa using hu
      have hstep : m.step (.child u .sessionOpened r) = m.childOpened u r := by
        simp [step, childUpstreamHandler, hin]
      rw [hstep]
      exact ⟨hne, childOpened_session h hu r⟩
    | _ => cases ho
  | _ => cases ho

/-! ## Cycles -/

abbrev History := List (Record Mux Call Output)

/-- The records from the last successful `open_session` on. -/
def cycle (h : History) : History :=
  h.foldl (fun c r => if r.before.startsCycle r.call then [r] else c ++ [r]) []

def opening (r : Record Mux Call Output) : Bool := r.before.childOpens r.call

open System

structure CycleEvents (c : History) : Prop where
  openedOnce : (outputs c).countP opensSession = if c.any opening then 1 else 0
  openedFirst : ∀ r ∈ c, r.outs.any opensSession = true → c.find? opening = some r
  endedOnce : (outputs c).countP endsSession ≤ 1
  endedEmpty : ∀ r ∈ c, r.outs.any endsSession = true → r.after.pool.entries = []

@[simp] theorem cycle_snoc (h : History) (r : Record Mux Call Output) :
    cycle (h ++ [r]) = if r.before.startsCycle r.call then [r] else cycle h ++ [r] := by
  simp [cycle]

theorem CycleEvents.nil : CycleEvents [] := ⟨rfl, by simp, Nat.zero_le _, by simp⟩

theorem CycleEvents.snoc {c : History} (h : CycleEvents c) {r : Record Mux Call Output}
    (ho : r.outs.countP opensSession = if opening r && !c.any opening then 1 else 0)
    (he : (outputs c).countP endsSession + r.outs.countP endsSession ≤ 1)
    (hempty : r.outs.countP endsSession ≠ 0 → r.after.pool.entries = []) : CycleEvents (c ++ [r]) := by
  have hr : outputs [r] = r.outs := by simp [outputs]
  refine ⟨?_, ?_, ?_, ?_⟩
  · rw [outputs_append, countP_append, h.openedOnce, hr, ho]
    cases hc : c.any opening <;> cases hop : opening r <;> simp [hc, hop]
  · intro s hs hopens
    rw [List.find?_append]
    rcases mem_append.mp hs with hs | hs
    · rw [h.openedFirst s hs hopens]
      rfl
    obtain rfl := mem_singleton.mp hs
    have hpos : s.outs.countP opensSession ≠ 0 := by
      simpa [countP_eq_zero] using hopens
    have hfirst : (opening s && !c.any opening) = true := by
      by_contra hno
      exact hpos (by rw [ho, if_neg hno])
    obtain ⟨hop, hnone⟩ := Bool.and_eq_true_iff.mp hfirst
    have hfind : c.find? opening = none := by simpa [List.find?_eq_none] using hnone
    simp [hfind, hop]
  · rw [outputs_append, countP_append, hr]
    exact he
  · intro s hs hends
    rcases mem_append.mp hs with hs | hs
    · exact h.endedEmpty s hs hends
    · obtain rfl := mem_singleton.mp hs
      exact hempty (by simpa [countP_eq_zero] using hends)

/-! ## Runs -/

/-- No session is opened while the flag of an earlier one is set. -/
def reopenable (m : Mux) (c : Call) : Bool := !m.startsCycle c || !m.sessionOpen

/-- What a run keeps: while the pool has children, the flag says whether one has opened in this
cycle, and the session has not ended in it. -/
structure Tracks (h : History) (m : Mux) : Prop where
  wellFormed : m.WellFormed
  events : CycleEvents (cycle h)
  flag : m.pool.entries ≠ [] → m.sessionOpen = (cycle h).any opening
  live : m.pool.entries ≠ [] → (outputs (cycle h)).countP endsSession = 0

theorem startsCycle_step (hs : m.startsCycle c = true) :
    m.childOpens c = false ∧ (m.step c).1.sessionOpen = m.sessionOpen ∧ (m.step c).2.countP opensSession = 0 ∧
      (m.step c).2.countP endsSession = 0 := by
  cases c with
  | openSession timeout r =>
    exact ⟨rfl, openSession_flag m timeout r, openSession_outs m timeout r⟩
  | _ => cases hs

variable {n : Nat} {h : History} {m : Mux} {c : Call}

theorem CycleEvents.call {k : History} (hk : CycleEvents k) (ho : (m.step c).2.countP opensSession
      = if m.childOpens c && !k.any opening then 1 else 0)
    (he : (outputs k).countP endsSession + (m.step c).2.countP endsSession ≤ 1)
    (hempty : (m.step c).2.countP endsSession ≠ 0 → (m.step c).1.pool.entries = []) :
    CycleEvents (k ++ [(system n).record m c]) := hk.snoc ho he hempty

theorem ends_call (k : History) : (outputs (k ++ [(system n).record m c])).countP endsSession
      = (outputs k).countP endsSession + (m.step c).2.countP endsSession := by
  rw [outputs_append, countP_append, outputs_record]
  rfl

theorem any_opening_call (k : History) :
    (k ++ [(system n).record m c]).any opening = (k.any opening || m.childOpens c) := by
  simp [opening, record]

theorem Tracks.start (ht : Tracks h m) (hs : m.startsCycle c = true)
    (hc : m.reopenable c = true) : Tracks (h ++ [(system n).record m c]) (m.step c).1 := by
  obtain ⟨hopens, hflag, ho, he⟩ := startsCycle_step hs
  have hclear : m.sessionOpen = false := by simpa [reopenable, hs] using hc
  have hcycle : cycle (h ++ [(system n).record m c]) = [] ++ [(system n).record m c] := by
    simp [record, hs]
  refine ⟨wellFormed_step ht.wellFormed c, ?_, fun _ => ?_, fun _ => ?_⟩
  · rw [hcycle]
    refine CycleEvents.nil.call ?_ ?_ fun hne => absurd he hne
    · rw [ho, hopens]
      rfl
    · rw [he]
      decide
  · rw [hcycle, any_opening_call, hflag, hclear, hopens]
    rfl
  · rw [hcycle, ends_call, he]
    rfl

theorem cycle_goesOn (hs : m.startsCycle c = false) :
    cycle (h ++ [(system n).record m c]) = cycle h ++ [(system n).record m c] := by
  simp [record, hs]

theorem Tracks.open (ht : Tracks h m) (hs : m.startsCycle c = false)
    (ho : m.childOpens c = true) : Tracks (h ++ [(system n).record m c]) (m.step c).1 := by
  obtain ⟨hne, hflag, hopen, hend⟩ := childOpens_step ht.wellFormed ho
  have hlive := ht.live hne
  refine ⟨wellFormed_step ht.wellFormed c, ?_, fun _ => ?_, fun _ => ?_⟩ <;>
    rw [cycle_goesOn hs]
  · refine ht.events.call ?_ (by omega) fun hne' => absurd hend hne'
    -- the flag is clear exactly when no child opened before
    rw [hopen, ht.flag hne, ho]
    cases (cycle h).any opening <;> rfl
  · rw [any_opening_call, hflag, ho, Bool.or_true]
  · rw [ends_call, hlive, hend]

theorem Tracks.pass (ht : Tracks h m) (hs : m.startsCycle c = false)
    (ho : m.childOpens c = false) : Tracks (h ++ [(system n).record m c]) (m.step c).1 := by
  obtain ⟨hopen, hsession⟩ := passes_step ht.wellFormed hs ho
  have hopened : (m.step c).2.countP opensSession = if m.childOpens c && !(cycle h).any opening then 1 else 0 := by
    rw [hopen, ho]
    rfl
  have hwf := wellFormed_step ht.wellFormed c
  have honce := ht.events.endedOnce
  rcases hsession with hq | he | ⟨hend, hempty⟩
  · have hnoEnd := hq.noEnd
    refine ⟨hwf, ?_, fun hne => ?_, fun hne => ?_⟩ <;> rw [cycle_goesOn hs]
    · exact ht.events.call hopened (by omega) fun hne => absurd hnoEnd hne
    · rw [any_opening_call, hq.flag, ht.flag fun hnil => hne (hq.pool.mpr hnil), ho, Bool.or_false]
    · rw [ends_call, hnoEnd, ht.live fun hnil => hne (hq.pool.mpr hnil)]
  · have hlive := ht.live he.before
    have hone := he.oneEnd
    refine ⟨hwf, ?_, fun hne => absurd he.pool hne, fun hne => absurd he.pool hne⟩
    rw [cycle_goesOn hs]
    exact ht.events.call hopened (by omega) fun _ => he.pool
  · refine ⟨hwf, ?_, fun hne => absurd hempty hne, fun hne => absurd hempty hne⟩
    rw [cycle_goesOn hs]
    exact ht.events.call hopened (by omega) fun _ => hempty

theorem Tracks.step (ht : Tracks h m) (hc : m.reopenable c = true) :
    Tracks (h ++ [(system n).record m c]) (m.step c).1 := by
  cases hs : m.startsCycle c with
  | true => exact ht.start hs hc
  | false =>
    cases ho : m.childOpens c with
    | true => exact ht.open hs ho
    | false => exact ht.pass hs ho

theorem Tracks.init (upstreamsNum : Nat) : Tracks [] (init upstreamsNum) :=
  ⟨wellFormed_init upstreamsNum, CycleEvents.nil, fun h => absurd rfl h, fun _ => rfl⟩

/-- Every cycle of a run is the last one of some run, so this is about all of them. -/
theorem cycle_run (upstreamsNum : Nat) (calls : List Call)
    (hmeets : (system upstreamsNum).Meets (fun m c => m.reopenable c = true) (init upstreamsNum) calls) :
    CycleEvents (cycle ((system upstreamsNum).trace (init upstreamsNum) calls)) := by
  have hrun := (system upstreamsNum).inv_run (Tracks.init upstreamsNum) (fun _ _ _ ht hc => ht.step hc) calls hmeets
  exact hrun.events

def endedAndReopened : List Call :=
  [.openSession none allAccepted, .child 0 .sessionOpened allAccepted, .child 0 .sessionClosed allAccepted,
    .openSession none allAccepted, .child 1 .sessionOpened allAccepted]

theorem cycle_endedAndReopened : CycleEvents (cycle ((system 1).trace (init 1) endedAndReopened)) :=
  cycle_run 1 endedAndReopened (by decide +kernel)

def closedAndReopened : List Call :=
  [.openSession none allAccepted, .child 0 .sessionOpened allAccepted, .closeSession allAccepted,
    .openSession none allAccepted, .child 1 .sessionOpened allAccepted]

/-- The child of the second session opens, and the parent is not told. -/
theorem reopened_not_announced : (cycle ((system 1).trace (init 1) closedAndReopened)).any opening = true ∧
      (outputs (cycle ((system 1).trace (init 1) closedAndReopened))).countP opensSession = 0 := by
  decide +kernel

end Mux
end TrustTunnel.Upstream
