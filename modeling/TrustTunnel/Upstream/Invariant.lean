import TrustTunnel.Upstream.Choice

/-!
# Upstream.Invariant

What every part of a call keeps, whatever the children answer.
-/

namespace TrustTunnel.Upstream

open Lib List Option

def Output.reports (id : ConnId) : Output → Bool
  | .raised e => e.reports id
  | _ => false

namespace Mux

structure WellFormed (m : Mux) : Prop where
  nextConn : m.nextConnId ≤ nonId
  pendingId : ∀ id c, m.pending.lookup id = some c → id < m.nextConnId
  childId : ∀ u info, m.pool.lookup u = some info → ∀ id ∈ info.connections, id < m.nextConnId
  connected : ∀ id u, m.connections.lookup id = some u → ∃ info, m.pool.lookup u = some info ∧
    id ∈ info.connections
  apart : ∀ id c, m.pending.lookup id = some c → m.connections.lookup id = none

def Holds (m : Mux) (id : ConnId) : Prop :=
  (m.pending.lookup id).isSome ∨ (m.connections.lookup id).isSome

/-- Every id in the tables is still there after the part, or was reported by it. -/
def Keeps (m : Mux) (p : Part) : Prop :=
  ∀ id, m.Holds id → p.1.Holds id ∨ ∃ o ∈ p.2, o.reports id = true

theorem Keeps.refl (m : Mux) (outs : List Output) : m.Keeps (m, outs) := fun _ h => .inl h

variable {m : Mux} {id : ConnId} {u : Nat}

theorem Keeps.andDo {p : Part} {g : Mux → Part} (hp : m.Keeps p) (hg : p.1.Keeps (g p.1)) : m.Keeps (andDo p g) := by
  intro id h
  rcases hp id h with hheld | ⟨o, ho, hr⟩
  · rcases hg id hheld with hheld | ⟨o, ho, hr⟩
    · exact .inl hheld
    · exact .inr ⟨o, mem_append_right _ ho, hr⟩
  · exact .inr ⟨o, mem_append_left _ ho, hr⟩

theorem Keeps.forEach {α : Type} {f : α → Mux → Part} {l : List α} (hf : ∀ a ∈ l, ∀ s : Mux,
    s.Keeps (f a s)) :
    m.Keeps (forEach f l m) := by
  have := forEach_inv (J := fun o s => m.Keeps (s, o)) (Keeps.refl m []) fun a ha o s h => Keeps.andDo h (hf a ha s)
  simpa using this

theorem WellFormed.connId_ne (h : m.WellFormed) (hid : id < m.nextConnId) : id ≠ nonId :=
  Nat.ne_of_lt (Nat.lt_of_lt_of_le hid h.nextConn)

/-! ## Reports of a child -/

section

variable (fault : ConnId → Option VpnError)
include fault

theorem reports_reportConnection (id : ConnId) (m : Mux) :
    ∃ o ∈ (reportConnection fault id m).2, o.reports id = true := by
  refine ⟨_, mem_singleton.mpr rfl, ?_⟩
  cases hf : fault id with
  | none | some e => simp [Output.reports, ServerEvent.reports]

theorem keeps_reportConnection (id : ConnId) (m : Mux) : m.Keeps (reportConnection fault id m) := by
  intro j hj
  by_cases hid : j = id
  · exact .inr (hid ▸ reports_reportConnection fault id m)
  · refine .inl ?_
    simpa [Holds, reportConnection, hid] using hj

theorem connections_forEach_report (ids : List ConnId) (m : Mux) (id : ConnId) :
    (forEach (reportConnection fault) ids m).1.connections.lookup id
      = if id ∈ ids then none else m.connections.lookup id := by
  induction ids generalizing m with
  | nil => simp [forEach]
  | cons i ids ih =>
    simp only [forEach, andDo, ih, reportConnection]
    by_cases h1 : id ∈ ids
    · simp [h1]
    · by_cases h2 : id = i
      · simp [h2]
      · simp [h1]

theorem forEach_report_frame (ids : List ConnId) (m : Mux) : (forEach (reportConnection fault) ids m).1 =
      { m with connections := (forEach (reportConnection fault) ids m).1.connections } := by
  induction ids generalizing m with
  | nil => rfl
  | cons i ids ih =>
    simp only [forEach, andDo]
    rw [ih]
    rfl

end

theorem keeps_childReports (u : Nat) (fault : ConnId → Option VpnError) (m : Mux) :
    m.Keeps (childReports u fault m) := by
  unfold childReports
  split
  · exact Keeps.refl m []
  · exact Keeps.andDo (Keeps.forEach fun id _ s => keeps_reportConnection fault id s) fun _ h => .inl h

theorem keeps_childCloseSession (u : Nat) (fault : ConnId → Option VpnError) (m : Mux) :
    m.Keeps (childCloseSession u fault m) :=
  Keeps.andDo (Keeps.refl m _) (keeps_childReports u fault m)

theorem childReports_eq {info : UpstreamInfo} (hu : m.pool.lookup u = some info) (fault : ConnId → Option VpnError) :
    ∃ connections : Map ConnId Nat, (∀ id, connections.lookup id
        = if id ∈ info.connections then none else m.connections.lookup id) ∧ (childReports u fault m).1 = { m with
        connections := connections
        pool := m.pool.modify u fun i => { i with connections := [] } } := by
  refine ⟨(forEach (reportConnection fault) info.connections m).1.connections,
    connections_forEach_report fault info.connections m, ?_⟩
  simp only [childReports, hu, andDo]
  rw [forEach_report_frame]

theorem childReports_none (hu : m.pool.lookup u = none) (fault : ConnId → Option VpnError) :
    childReports u fault m = (m, []) := by
  simp [childReports, hu]

theorem childReports_keys (m : Mux) (u : Nat) (fault : ConnId → Option VpnError) :
    (childReports u fault m).1.pool.keys = m.pool.keys := by
  cases hu : m.pool.lookup u with
  | none => rw [childReports_none hu]
  | some info =>
    obtain ⟨connections, -, heq⟩ := childReports_eq hu fault
    rw [heq]
    exact Map.keys_modify _ _ _

theorem closeChildren_keys (m : Mux) (us : List Nat) (fault : ConnId → Option VpnError) :
    (forEach (fun u => childCloseSession u fault) us m).1.pool.keys = m.pool.keys :=
  forEach_state (I := fun s : Mux => s.pool.keys = m.pool.keys) rfl
    fun u _ s hs => (childReports_keys s u fault).trans hs

theorem wellFormed_childReports (h : m.WellFormed) (u : Nat) (fault : ConnId → Option VpnError) :
    (childReports u fault m).1.WellFormed := by
  cases hu : m.pool.lookup u with
  | none => rw [childReports_none hu]; exact h
  | some info =>
    obtain ⟨connections, hconn, heq⟩ := childReports_eq hu fault
    rw [heq]
    refine ⟨h.nextConn, h.pendingId, ?_, ?_, ?_⟩
    · intro v i hv id hid
      simp only [Map.lookup_modify_eq] at hv
      split at hv
      · rw [hu] at hv
        cases hv
        cases hid
      · exact h.childId v i hv id hid
    · intro id v hid
      simp only [hconn] at hid
      split at hid
      · cases hid
      rename_i hnot
      obtain ⟨i, hi, hmem⟩ := h.connected id v hid
      have hv : v ≠ u := by
        rintro rfl
        rw [hu] at hi
        cases hi
        exact hnot hmem
      exact ⟨i, by simp [hv, hi], hmem⟩
    · intro id c hid
      simp only [hconn]
      split
      · rfl
      · exact h.apart id c hid

theorem wellFormed_erase_pool (h : m.WellFormed) (hu : ∀ id, m.connections.lookup id ≠ some u) :
    ({ m with pool := m.pool.erase u } : Mux).WellFormed := by
  refine ⟨h.nextConn, h.pendingId, ?_, ?_, h.apart⟩
  · intro v i hv id hid
    simp only [Map.lookup_erase_eq] at hv
    split at hv
    · cases hv
    · exact h.childId v i hv id hid
  · intro id v hid
    obtain ⟨i, hi, hmem⟩ := h.connected id v hid
    have hv : v ≠ u := fun hvu => hu id (hvu ▸ hid)
    exact ⟨i, by simp [hv, hi], hmem⟩

theorem closeUpstream_state (m : Mux) (u : Nat) : ∃ sessionOpen pendingError, (closeUpstream u m).1 = { m with
      pool := m.pool.erase u, sessionOpen := sessionOpen, pendingError := pendingError } := by
  unfold closeUpstream
  split_ifs with hu
  · have hnot : u ∉ m.pool := AList.lookup_eq_none.mp (by simpa using hu)
    have hpool : m.pool.erase u = m.pool := AList.ext (kerase_of_notMem_keys hnot)
    exact ⟨m.sessionOpen, m.pendingError, by rw [hpool]⟩
  dsimp only
  split
  · exact ⟨_, _, rfl⟩
  · split
    all_goals exact ⟨_, _, rfl⟩

theorem wellFormed_closeUpstream (h : m.WellFormed) (hu : ∀ id, m.connections.lookup id ≠ some u) :
    (closeUpstream u m).1.WellFormed := by
  obtain ⟨sessionOpen, pendingError, heq⟩ := closeUpstream_state m u
  obtain ⟨h1, h2, h3, h4, h5⟩ := wellFormed_erase_pool h hu
  rw [heq]
  exact ⟨h1, h2, h3, h4, h5⟩

theorem keeps_closeUpstream (m : Mux) (u : Nat) : m.Keeps (closeUpstream u m) := by
  obtain ⟨sessionOpen, pendingError, heq⟩ := closeUpstream_state m u
  intro id hid
  rw [heq]
  exact .inl hid

theorem connections_after_reports (h : m.WellFormed) (u : Nat) (fault : ConnId → Option VpnError)
    (id : ConnId) : (childReports u fault m).1.connections.lookup id ≠ some u := by
  intro hid
  cases hu : m.pool.lookup u with
  | none =>
    rw [childReports_none hu] at hid
    obtain ⟨info, hinfo, -⟩ := h.connected id u hid
    rw [hu] at hinfo
    cases hinfo
  | some info =>
    obtain ⟨connections, hconn, heq⟩ := childReports_eq hu fault
    rw [heq] at hid
    simp only [hconn] at hid
    split at hid
    · cases hid
    rename_i hnot
    obtain ⟨i, hi, hmem⟩ := h.connected id u hid
    rw [hu] at hi
    cases hi
    exact hnot hmem

theorem wellFormed_closeChild (h : m.WellFormed) (u : Nat) (fault : ConnId → Option VpnError) :
    (andDo (childCloseSession u fault m) (closeUpstream u)).1.WellFormed :=
  wellFormed_closeUpstream (wellFormed_childReports h u fault) fun id => connections_after_reports h u fault id

theorem keeps_closeChild (m : Mux) (u : Nat) (fault : ConnId → Option VpnError) :
    m.Keeps (andDo (childCloseSession u fault m) (closeUpstream u)) :=
  Keeps.andDo (keeps_childCloseSession u fault m) (keeps_closeUpstream _ u)

/-! ## Connecting -/

def Opened (m : Mux) (u : Nat) : Prop :=
  ∃ info, m.pool.lookup u = some info ∧ info.state = .sessionOpened

theorem opened_connect {v : Nat} (u : Nat) (id : ConnId) (h : m.Opened v) : (m.connect u id).Opened v := by
  obtain ⟨info, hinfo, hstate⟩ := h
  by_cases hv : v = u
  · subst hv
    exact ⟨{ info with connections := id :: info.connections }, by simp [connect, hinfo], hstate⟩
  · exact ⟨info, by simp [connect, hv, hinfo], hstate⟩

theorem wellFormed_connect (h : m.WellFormed) (hu : m.Opened u) (hid : id < m.nextConnId)
    (hp : m.pending.lookup id = none) : (m.connect u id).WellFormed := by
  obtain ⟨info, hinfo, -⟩ := hu
  refine ⟨h.nextConn, h.pendingId, ?_, ?_, ?_⟩
  · intro v i hv j hj
    simp only [connect, Map.lookup_modify_eq] at hv
    split at hv
    · rw [hinfo] at hv
      cases hv
      rcases mem_cons.mp hj with rfl | hj
      · exact hid
      · exact h.childId u info hinfo j hj
    · exact h.childId v i hv j hj
  · intro j v hj
    -- the child of `j`, before the new connection was added to a child
    have hold : ∀ w i, m.pool.lookup w = some i → j ∈ i.connections →
        ∃ i', (m.connect u id).pool.lookup w = some i' ∧ j ∈ i'.connections := by
      intro w i hw hmem
      by_cases hwu : w = u
      · subst hwu
        exact ⟨{ i with connections := id :: i.connections }, by simp [connect, hw], mem_cons_of_mem _ hmem⟩
      · exact ⟨i, by simp [connect, hwu, hw], hmem⟩
    simp only [connect, Map.lookup_emplace_eq] at hj
    split_ifs at hj with hjid
    · subst hjid
      cases hc : m.connections.lookup j with
      | some w =>
        simp only [hc, Option.some.injEq] at hj
        subst hj
        obtain ⟨i, hi, hmem⟩ := h.connected j w hc
        exact hold w i hi hmem
      | none =>
        simp only [hc, Option.some.injEq] at hj
        subst hj
        exact ⟨{ info with connections := j :: info.connections }, by simp [connect, hinfo], by simp⟩
    · obtain ⟨i, hi, hmem⟩ := h.connected j v hj
      exact hold v i hi hmem
  · intro j c hj
    have hne : j ≠ id := by
      rintro rfl
      rw [show (m.connect u j).pending = m.pending from rfl, hp] at hj
      cases hj
    simp only [connect, Map.lookup_emplace_eq, if_neg hne]
    exact h.apart j c hj

theorem wellFormed_fewer_pending (h : m.WellFormed) {P : Map ConnId PendingConnection}
    (hP : ∀ id c, P.lookup id = some c → m.pending.lookup id = some c) :
    ({ m with pending := P } : Mux).WellFormed :=
  ⟨h.nextConn, fun id c hc => h.pendingId id c (hP id c hc), h.childId, h.connected,
    fun id c hc => h.apart id c (hP id c hc)⟩

/-! ## Pending connections -/

theorem mem_pendingOf {e : (_ : ConnId) × PendingConnection} (he : e ∈ m.pendingOf u) :
    m.pending.lookup e.1 = some e.2 ∧ e.2.upstreamId = u := by
  obtain ⟨hmem, hu⟩ := mem_filter.mp he
  exact ⟨mem_dlookup m.pending.nodupKeys hmem, by simpa using hu⟩

theorem pendingOf_mem {c : PendingConnection} (hc : m.pending.lookup id = some c) (hu : c.upstreamId = u) :
    ⟨id, c⟩ ∈ m.pendingOf u :=
  mem_filter.mpr ⟨of_mem_dlookup hc, by simpa using hu⟩

theorem openConnectionOn_opened (hu : m.Opened u) (id : ConnId) (request : Request) (ok : Bool) :
    m.openConnectionOn u id request ok =
      (ok, if ok then m.connect u id else m, [.asked u (.openConnection id request)]) := by
  obtain ⟨info, hinfo, hstate⟩ := hu
  simp only [openConnectionOn, hinfo, hstate]
  cases ok <;> rfl

theorem openConnectionOn_opening {info : UpstreamInfo} (hu : m.pool.lookup u = some info)
    (hs : info.state = .openingSession) (id : ConnId) (request : Request) (ok : Bool) :
    m.openConnectionOn u id request ok = (true, { m with pending := m.pending.emplace id ⟨u, request⟩ }, []) := by
  simp [openConnectionOn, hu, hs]

def FirstOpened (m : Mux) : Prop := ∃ v, m.firstUpstream = some v ∧ m.Opened v

theorem fallBack_spec (m : Mux) (id : ConnId) (request : Request) (r : Replies) :
    (∃ v, m.Opened v ∧ (m.fallBack id request r).1 = m.connect v id) ∨
    ((m.fallBack id request r).1 = m ∧ ∃ o ∈ (m.fallBack id request r).2, o.reports id = true) ∨
    (¬ m.FirstOpened ∧ ∃ P : Map ConnId PendingConnection,
      (∀ j, j ≠ id → P.lookup j = m.pending.lookup j) ∧
      (m.fallBack id request r).1 = { m with pending := P }) := by
  unfold fallBack
  cases hv : m.firstUpstream with
  | none =>
    refine .inr (.inr ⟨?_, m.pending, fun _ _ => rfl, rfl⟩)
    rintro ⟨v, hv', -⟩
    rw [hv] at hv'
    cases hv'
  | some v =>
    dsimp only
    by_cases hvo : m.Opened v
    · rw [openConnectionOn_opened hvo]
      cases r.fallback id with
      | true => exact .inl ⟨v, hvo, rfl⟩
      | false =>
        refine .inr (.inl ⟨rfl, .raised (.error id ⟨.connRefused, "Failed to connect"⟩), ?_, ?_⟩)
        · simp
        · simp [Output.reports, ServerEvent.reports]
    · have hnot : ¬ m.FirstOpened := by
        rintro ⟨w, hw, hwo⟩
        rw [hv] at hw
        cases hw
        exact hvo hwo
      refine .inr (.inr ⟨hnot, ?_⟩)
      cases hlook : m.pool.lookup v with
      | none =>
        refine ⟨m.pending, fun _ _ => rfl, ?_⟩
        simp only [openConnectionOn, hlook]
        rfl
      | some info =>
        have hopening : info.state = .openingSession := by
          cases hs : info.state with
          | openingSession => rfl
          | sessionOpened => exact absurd ⟨info, hlook, hs⟩ hvo
        rw [openConnectionOn_opening hlook hopening]
        refine ⟨m.pending.emplace id ⟨v, request⟩, fun j hj => ?_, rfl⟩
        simp [hj]

/-- One pass over the pending connections of a child that has opened. The id leaves the pending
ones; then it is connected, or reported, or (when the first upstream is still opening) neither. -/
theorem proceedAndErase_spec (hu : m.Opened u) (r : Replies) (e : (_ : ConnId) × PendingConnection) :
    ∃ P : Map ConnId PendingConnection, (∀ j, P.lookup j = if j = e.1 then none else m.pending.lookup j) ∧
      ((∃ v, m.Opened v ∧ (proceedAndErase u r e m).1 = ({ m with pending := P } : Mux).connect v e.1) ∨
        ((proceedAndErase u r e m).1 = { m with pending := P } ∧
          ((∃ o ∈ (proceedAndErase u r e m).2, o.reports e.1 = true) ∨
            (r.openConnection e.1 = false ∧ ¬ m.FirstOpened)))) := by
  have hfirst := openConnectionOn_opened hu e.1 e.2.request (r.openConnection e.1)
  cases hok : r.openConnection e.1 with
  | true =>
    rw [hok] at hfirst
    refine ⟨m.pending.erase e.1, fun j => Map.lookup_erase_eq _ _ _, .inl ⟨u, hu, ?_⟩⟩
    simp only [proceedAndErase, proceedPendingConnection, hok, hfirst]
    rfl
  | false =>
    rw [hok] at hfirst
    have hpass : proceedAndErase u r e m =
        andDo (andDo (m, [.asked u (.openConnection e.1 e.2.request)]) (fallBack e.1 e.2.request r))
          (fun m' => ({ m' with pending := m'.pending.erase e.1 }, [])) := by
      simp only [proceedAndErase, proceedPendingConnection, hok, hfirst]
      rfl
    rw [hpass]
    simp only [andDo, append_nil]
    rcases fallBack_spec m e.1 e.2.request r with ⟨v, hv, heq⟩ | ⟨heq, o, ho, hr⟩ | ⟨hnot, P, hP, heq⟩
    · rw [heq]
      exact ⟨m.pending.erase e.1, fun j => Map.lookup_erase_eq _ _ _, .inl ⟨v, hv, rfl⟩⟩
    · rw [heq]
      exact ⟨m.pending.erase e.1, fun j => Map.lookup_erase_eq _ _ _,
        .inr ⟨rfl, .inl ⟨o, mem_append_right _ ho, hr⟩⟩⟩
    rw [heq]
    refine ⟨P.erase e.1, fun j => ?_, .inr ⟨rfl, .inr ⟨trivial, hnot⟩⟩⟩
    rw [Map.lookup_erase_eq]
    split_ifs with hj
    · rfl
    · exact hP j hj

structure PassFrame (m m' : Mux) : Prop where
  keys : m'.pool.keys = m.pool.keys
  opened : ∀ v, m'.Opened v ↔ m.Opened v
  nextConn : m'.nextConnId = m.nextConnId

theorem PassFrame.refl (m : Mux) : PassFrame m m := ⟨rfl, fun _ => Iff.rfl, rfl⟩

theorem PassFrame.trans {m1 m2 m3 : Mux} (h : PassFrame m1 m2) (h' : PassFrame m2 m3) : PassFrame m1 m3 :=
  ⟨h'.keys.trans h.keys, fun v => (h'.opened v).trans (h.opened v), h'.nextConn.trans h.nextConn⟩

theorem opened_connect_iff (m : Mux) (u : Nat) (id : ConnId) (v : Nat) : (m.connect u id).Opened v ↔ m.Opened v := by
  refine ⟨?_, opened_connect u id⟩
  rintro ⟨info, hinfo, hstate⟩
  simp only [connect, Map.lookup_modify_eq] at hinfo
  split_ifs at hinfo with hv
  · obtain ⟨i, hi, rfl⟩ := map_eq_some_iff.mp hinfo
    exact ⟨i, hv ▸ hi, hstate⟩
  · exact ⟨info, hinfo, hstate⟩

theorem passFrame_proceedAndErase (hu : m.Opened u) (r : Replies) (e : (_ : ConnId) × PendingConnection) :
    PassFrame m (proceedAndErase u r e m).1 := by
  obtain ⟨P, -, hspec⟩ := proceedAndErase_spec hu r e
  rcases hspec with ⟨v, -, heq⟩ | ⟨heq, -⟩
  · rw [heq]
    exact ⟨Map.keys_modify _ _ _, opened_connect_iff { m with pending := P } v e.1, rfl⟩
  · rw [heq]
    exact ⟨rfl, fun _ => Iff.rfl, rfl⟩

theorem PassFrame.firstOpened {m' : Mux} (h : PassFrame m m') : m'.FirstOpened ↔ m.FirstOpened := by
  simp [FirstOpened, firstUpstream, h.keys, h.opened]

theorem wellFormed_proceedAndErase (h : m.WellFormed) (hu : m.Opened u) (r : Replies)
    (e : (_ : ConnId) × PendingConnection) (he : e.1 < m.nextConnId) : (proceedAndErase u r e m).1.WellFormed := by
  obtain ⟨P, hP, hspec⟩ := proceedAndErase_spec hu r e
  have hP' : ({ m with pending := P }).WellFormed := by
    refine wellFormed_fewer_pending h fun j c hj => ?_
    rw [hP] at hj
    split at hj
    · cases hj
    · exact hj
  rcases hspec with ⟨v, hv, heq⟩ | ⟨heq, -⟩
  · rw [heq]
    exact wellFormed_connect hP' hv he (by rw [hP, if_pos rfl])
  · rw [heq]
    exact hP'

/-- The state in which the loop over the pending connections of `u` starts. -/
def markOpened (m : Mux) (u : Nat) : Mux :=
  { m with
    sessionOpen := true
    pool := m.pool.modify u fun i => { i with state := .sessionOpened } }

theorem opened_markOpened (hu : (m.pool.lookup u).isSome) : (m.markOpened u).Opened u := by
  obtain ⟨info, hinfo⟩ := isSome_iff_exists.mp hu
  exact ⟨{ info with state := .sessionOpened }, by simp [markOpened, hinfo], rfl⟩

theorem wellFormed_markOpened (h : m.WellFormed) (u : Nat) : (m.markOpened u).WellFormed := by
  refine ⟨h.nextConn, h.pendingId, ?_, ?_, h.apart⟩
  · intro v i hv
    simp only [markOpened, Map.lookup_modify_eq] at hv
    split at hv
    · obtain ⟨info, hinfo, rfl⟩ := map_eq_some_iff.mp hv
      exact h.childId u info hinfo
    · exact h.childId v i hv
  · intro id v hid
    obtain ⟨info, hinfo, hmem⟩ := h.connected id v hid
    by_cases hv : v = u
    · subst hv
      exact ⟨{ info with state := .sessionOpened }, by simp [markOpened, hinfo], hmem⟩
    · exact ⟨info, by simp [markOpened, hv, hinfo], hmem⟩

theorem childOpened_eq (m : Mux) (u : Nat) (r : Replies) : m.childOpened u r =
      andDo (m.markOpened u, if m.sessionOpen then [] else [.raised .sessionOpened])
        (forEach (proceedAndErase u r) ((m.markOpened u).pendingOf u)) := rfl

theorem childOpened_frame (h : m.WellFormed) (hu : (m.pool.lookup u).isSome) (r : Replies) :
    (m.childOpened u r).1.WellFormed ∧ PassFrame (m.markOpened u) (m.childOpened u r).1 := by
  have hstart := wellFormed_markOpened h u
  refine forEach_state (I := fun s : Mux => s.WellFormed ∧ PassFrame (m.markOpened u) s) ⟨hstart,
    PassFrame.refl _⟩ ?_
  rintro e he s ⟨hs, hframe⟩
  have hopen : s.Opened u := (hframe.opened u).mpr (opened_markOpened hu)
  have hid : e.1 < s.nextConnId := by
    rw [hframe.nextConn]
    exact hstart.pendingId e.1 e.2 (mem_pendingOf he).1
  exact ⟨wellFormed_proceedAndErase hs hopen r e hid, hframe.trans (passFrame_proceedAndErase hopen r e)⟩

/-! ## The other events of a child -/

theorem keeps_refusePending (e : (_ : ConnId) × PendingConnection) (m : Mux) : m.Keeps (refusePending e m) := by
  intro j hj
  by_cases hid : j = e.1
  · refine .inr ⟨_, mem_singleton.mpr rfl, ?_⟩
    simp [Output.reports, ServerEvent.reports, hid]
  · refine .inl ?_
    simpa [Holds, refusePending, hid] using hj

theorem wellFormed_refusePending (h : m.WellFormed) (e : (_ : ConnId) × PendingConnection) :
    (refusePending e m).1.WellFormed := by
  refine wellFormed_fewer_pending h fun j c hj => ?_
  rw [Map.lookup_erase_eq] at hj
  split at hj
  · cases hj
  · exact hj

theorem refused_connections (m : Mux) (l : List ((_ : ConnId) × PendingConnection)) :
    (forEach refusePending l m).1.connections = m.connections :=
  forEach_state (I := fun s : Mux => s.connections = m.connections) rfl fun _ _ _ h => h

theorem wellFormed_childClosed (h : m.WellFormed) (hu : ∀ id, m.connections.lookup id ≠ some u) :
    (m.childClosed u).1.WellFormed := by
  refine wellFormed_closeUpstream ?_ ?_
  · exact forEach_state h fun e _ s hs => wellFormed_refusePending hs e
  · intro id
    rw [refused_connections]
    exact hu id

theorem keeps_childClosed (m : Mux) (u : Nat) : m.Keeps (m.childClosed u) :=
  Keeps.andDo (Keeps.forEach fun e _ s => keeps_refusePending e s) (keeps_closeUpstream _ u)

theorem wellFormed_childFailed (h : m.WellFormed) (u : Nat) (e : VpnError) (r : Replies) :
    (m.childFailed u e r).1.WellFormed := by
  unfold childFailed
  split
  · refine forEach_state ?_ fun v _ s hs => wellFormed_closeChild hs v r.fault
    exact ⟨h.nextConn, h.pendingId, h.childId, h.connected, h.apart⟩
  · exact wellFormed_closeChild h u r.fault

theorem keeps_childFailed (m : Mux) (u : Nat) (e : VpnError) (r : Replies) : m.Keeps (m.childFailed u e r) := by
  unfold childFailed
  split
  · have hloop : ({ m with pendingError := some e }).Keeps
        (forEach (fun v m => andDo (childCloseSession v r.fault m) (closeUpstream v)) m.pool.keys
          { m with pendingError := some e }) :=
      Keeps.forEach fun v _ s => keeps_closeChild s v r.fault
    exact fun id hid => hloop id hid
  · exact keeps_closeChild m u r.fault

theorem wellFormed_forgetConnection (h : m.WellFormed) (u : Nat) (id : ConnId) :
    (m.forgetConnection u id).WellFormed := by
  refine ⟨h.nextConn, h.pendingId, ?_, ?_, ?_⟩
  · intro v i hv j hj
    simp only [forgetConnection, Map.lookup_modify_eq] at hv
    split at hv
    · obtain ⟨info, hinfo, rfl⟩ := map_eq_some_iff.mp hv
      exact h.childId u info hinfo j (mem_of_mem_erase hj)
    · exact h.childId v i hv j hj
  · intro j v hj
    simp only [forgetConnection, Map.lookup_erase_eq] at hj
    split at hj
    · cases hj
    rename_i hne
    obtain ⟨info, hinfo, hmem⟩ := h.connected j v hj
    by_cases hv : v = u
    · subst hv
      exact ⟨{ info with connections := info.connections.erase id },
        by simp [forgetConnection, hinfo], (mem_erase_of_ne hne).mpr hmem⟩
    · exact ⟨info, by simp [forgetConnection, hv, hinfo], hmem⟩
  · intro j c hj
    simp only [forgetConnection, Map.lookup_erase_eq]
    split
    · rfl
    · exact h.apart j c hj

theorem keeps_forgetConnection (m : Mux) (u : Nat) (id : ConnId) {e : ServerEvent}
    (he : e.reports id = true) : m.Keeps (m.forgetConnection u id, [.raised e]) := by
  intro j hj
  by_cases hid : j = id
  · exact .inr ⟨.raised e, mem_singleton.mpr rfl, hid ▸ he⟩
  · refine .inl ?_
    simpa [Holds, forgetConnection, hid] using hj

section

variable (h : m.WellFormed)
include h

theorem wellFormed_childUpstreamHandler (u : Nat) (what : ServerEvent) (r : Replies)
    (hu : what = .sessionClosed → ∀ id, m.connections.lookup id ≠ some u) :
    (m.childUpstreamHandler u what r).1.WellFormed := by
  unfold childUpstreamHandler
  split_ifs with hin
  · exact h
  split
  · exact (childOpened_frame h (isSome_iff_ne_none.mpr (by simpa using hin)) r).1
  · exact wellFormed_childClosed h (hu rfl)
  · exact wellFormed_forgetConnection h u _
  · split
    · exact wellFormed_forgetConnection h u _
    · exact wellFormed_childFailed h u _ r
  all_goals exact h

/-! ## Calls of the parent -/

theorem wellFormed_insert_upstream (hu : m.pool.lookup u = none) :
    ({ m with pool := m.pool.insert u ⟨.openingSession, []⟩ } : Mux).WellFormed := by
  refine ⟨h.nextConn, h.pendingId, ?_, ?_, h.apart⟩
  · intro v i hv id hid
    simp only [Map.lookup_insert_eq] at hv
    split at hv
    · cases hv
      cases hid
    · exact h.childId v i hv id hid
  · intro id v hid
    obtain ⟨info, hinfo, hmem⟩ := h.connected id v hid
    have hv : v ≠ u := by
      rintro rfl
      rw [hu] at hinfo
      cases hinfo
    exact ⟨info, by simp [hv, hinfo], hmem⟩

theorem wellFormed_addPending (c : PendingConnection) (hid : id < m.nextConnId)
    (hc : m.connections.lookup id = none) : ({ m with pending := m.pending.emplace id c } : Mux).WellFormed := by
  refine ⟨h.nextConn, ?_, h.childId, h.connected, ?_⟩
  · intro j d hj
    simp only [Map.lookup_emplace_eq] at hj
    split at hj
    · rename_i hji; rw [hji]; exact hid
    · exact h.pendingId j d hj
  · intro j d hj
    simp only [Map.lookup_emplace_eq] at hj
    split at hj
    · rename_i hji; rw [hji]; exact hc
    · exact h.apart j d hj

theorem WellFormed.fresh : m.pending.lookup m.nextConnId = none ∧ m.connections.lookup m.nextConnId = none := by
  constructor
  · cases hp : m.pending.lookup m.nextConnId with
    | none => rfl
    | some c => exact absurd (h.pendingId _ c hp) (Nat.lt_irrefl _)
  · cases hc : m.connections.lookup m.nextConnId with
    | none => rfl
    | some u =>
      obtain ⟨info, hinfo, hmem⟩ := h.connected _ u hc
      exact absurd (h.childId u info hinfo _ hmem) (Nat.lt_irrefl _)

theorem wellFormed_takeIds (hid : m.nextConnId ≠ nonId) (n : Nat) :
    ({ m with nextUpstreamId := n, nextConnId := m.nextConnId + 1 } : Mux).WellFormed := by
  refine ⟨?_, ?_, ?_, h.connected, h.apart⟩
  · exact Nat.lt_of_le_of_ne h.nextConn hid
  · exact fun id c hc => Nat.lt_succ_of_lt (h.pendingId id c hc)
  · exact fun u info hu id hmem => Nat.lt_succ_of_lt (h.childId u info hu id hmem)

theorem wellFormed_openConnectionOn (hid : id < m.nextConnId)
    (hp : m.pending.lookup id = none) (hc : m.connections.lookup id = none) (u : Nat) (request : Request)
    (ok : Bool) : (m.openConnectionOn u id request ok).2.1.WellFormed := by
  unfold openConnectionOn
  split
  · exact h
  rename_i info hinfo
  split
  · exact wellFormed_addPending h _ hid hc
  rename_i hstate
  split
  · exact wellFormed_connect h ⟨info, hinfo, hstate⟩ hid hp
  · exact h

theorem wellFormed_openConnection (request : Request) (r : Replies) : (m.openConnection request r).1.WellFormed := by
  obtain ⟨hp, hc⟩ := h.fresh
  rcases openConnection_cases m request r with heq | ⟨n, -, hid, hcases⟩
  · rw [heq]
    exact h
  have hids := wellFormed_takeIds h hid n
  rcases hcases with ⟨u, asked, -, -, heq⟩ | ⟨u, hu, -, heq⟩ | ⟨asked, -, heq⟩
  · rw [heq]
    exact wellFormed_openConnectionOn hids (Nat.lt_succ_self _) hp hc u request _
  · rw [heq]
    exact wellFormed_addPending (wellFormed_insert_upstream hids hu) _ (Nat.lt_succ_self _) hc
  · rw [heq]
    exact hids

theorem wellFormed_step (c : Call) : (m.step c).1.WellFormed := by
  cases c with
  | openSession timeout r =>
    rcases openSession_cases m timeout r with ⟨n, heq⟩ | ⟨u, n, hempty, -, heq⟩
    · simp only [step, heq]
      exact ⟨h.nextConn, h.pendingId, h.childId, h.connected, h.apart⟩
    · obtain ⟨h1, h2, h3, h4, h5⟩ := wellFormed_insert_upstream h (lookup_of_empty hempty u)
      simp only [step, heq]
      exact ⟨h1, h2, h3, h4, h5⟩
  | closeSession r =>
    have hloop : (forEach (fun u => childCloseSession u r.fault) m.pool.keys m).1.WellFormed :=
      forEach_state h fun u _ s hs => wellFormed_childReports hs u r.fault
    refine ⟨hloop.nextConn, ?_, ?_, ?_, ?_⟩ <;> intro _ _ hlook <;> cases hlook
  | openConnection request r => exact wellFormed_openConnection h request r
  | closeConnection id graceful async =>
    simp only [step, closeConnection]
    split
    · exact h
    · split
      · exact h
      · exact h
  | child u what r =>
    cases what with
    | sessionClosed =>
      exact wellFormed_childUpstreamHandler (wellFormed_childReports h u r.fault) u .sessionClosed r
        fun _ => connections_after_reports h u r.fault
    | _ => exact wellFormed_childUpstreamHandler h u _ r (fun hw => nomatch hw)
  | otherIds upstreams connections =>
    have hle : m.nextConnId ≤ min (m.nextConnId + connections) nonId :=
      Nat.le_min.mpr ⟨Nat.le_add_right _ _, h.nextConn⟩
    exact ⟨Nat.min_le_right _ _, fun id c hc => Nat.lt_of_lt_of_le (h.pendingId id c hc) hle,
      fun v i hv id hid => Nat.lt_of_lt_of_le (h.childId v i hv id hid) hle, h.connected, h.apart⟩
  | reorderPool u =>
    simp only [step]
    split
    · rename_i info hu
      have hsame := Map.lookup_reinsert hu
      exact ⟨h.nextConn, h.pendingId, fun v i hv => h.childId v i (hsame v ▸ hv), fun id v hid => by
          obtain ⟨i, hi, hmem⟩ := h.connected id v hid
          exact ⟨i, (hsame v).trans hi, hmem⟩, h.apart⟩
    · exact h
  | reorderPending id =>
    simp only [step]
    split
    · rename_i c hc
      have hsame := Map.lookup_reinsert hc
      exact ⟨h.nextConn, fun j d hj => h.pendingId j d (hsame j ▸ hj), h.childId, h.connected,
        fun j d hj => h.apart j d (hsame j ▸ hj)⟩
    · exact h

end

theorem wellFormed_init (upstreamsNum : Nat) : (init upstreamsNum).WellFormed := by
  have hnext : (init upstreamsNum).nextConnId ≤ nonId := Nat.le_of_ble_eq_true rfl
  refine ⟨hnext, ?_, ?_, ?_, ?_⟩ <;> intro _ _ hlook <;> cases hlook

theorem wellFormed_run (upstreamsNum : Nat) (calls : List Call) :
    ((system upstreamsNum).exec (init upstreamsNum) calls).WellFormed :=
  (system upstreamsNum).inv_exec (wellFormed_init upstreamsNum) (fun _ c h => wellFormed_step h c) calls

end Mux
end TrustTunnel.Upstream
