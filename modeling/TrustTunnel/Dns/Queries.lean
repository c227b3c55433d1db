import TrustTunnel.Dns.Resolver

/-!
# Dns.Queries

What `VpnDnsResolver` keeps about the queries it has sent: every resolution in the table waits in a
queue, or has a query with a deadline on the wire for each record type it awaits.

That is so in every run in which each request is encoded and taken by the tunnel (`Ready`): otherwise the
resolution awaits an answer to a query that was never made.

Ids are drawn from a counter that wraps at 2^16. `queries.emplace` keeps the entry of an earlier query under
the same id, and a send that fails erases it.
-/

namespace TrustTunnel.Dns

open Lib List Option

variable (s : VpnDnsResolver) {held' : Nat → Prop} {l : List Nat}

namespace VpnDnsResolver

def queued : List Nat := s.background ++ s.foreground

/-- The query for the type is on the wire, with a deadline. -/
def OnWire (id : Nat) (r : Resolve) (t : RecordType) : Prop :=
  ∃ queryId query due, r.queries t = some queryId ∧ s.queries.lookup queryId = some query ∧
    query.id = id ∧ query.recordType = t ∧ (due, queryId) ∈ s.deadlines

structure Inv (timed : Prop) (held : Nat → Prop) (s : VpnDnsResolver) : Prop where
  bound : ∀ id r, s.resolutions.lookup id = some r → id < s.nextId
  queuedBound : ∀ id ∈ s.queued, id < s.nextId
  nodup : s.queued.Nodup
  requestId : s.nextRequestId < 65536
  unsent : ∀ id ∈ s.queued, ∀ r, s.resolutions.lookup id = some r → ∀ t, r.queries t = none
  owner : ∀ queryId query, s.queries.lookup queryId = some query →
    ∃ r, s.resolutions.lookup query.id = some r ∧ r.queries query.recordType = some queryId ∧
      r.recordTypes.test query.recordType = true
  /-- What an entry has recorded is its own, if it is on the wire at all. -/
  recorded : ∀ id r t queryId, s.resolutions.lookup id = some r → r.queries t = some queryId →
    ∀ query, s.queries.lookup queryId = some query → query.id = id ∧ query.recordType = t
  kind : ∀ i j p q, s.queries.lookup i = some p → s.queries.lookup j = some q → p.id = q.id →
    p.queueKind = q.queueKind
  awaited : ∀ id r, s.resolutions.lookup id = some r → id ∉ s.queued → ¬held id →
    r.recordTypes.none = false ∧ ∀ t, r.recordTypes.test t = true → OnWire s id r t
  due : timed → (s.deadlines.map Prod.snd).Nodup

structure Agree (s t : VpnDnsResolver) : Prop where
  nextId : t.nextId = s.nextId
  resolutions : t.resolutions = s.resolutions
  queued : t.queued = s.queued
  queries : t.queries = s.queries
  deadlines : t.deadlines = s.deadlines
  nextRequestId : t.nextRequestId = s.nextRequestId

variable {timed : Prop} {held : Nat → Prop} {s t : VpnDnsResolver} {id : Nat} {r : Resolve} {env : Env}
  {q : VpnDnsResolverQueue}

section

variable (h : Inv timed held s)
include h

theorem Inv.frame (hn : t.nextId = s.nextId) (hr : t.resolutions = s.resolutions) (hid : t.nextRequestId < 65536)
    (hdue : (t.deadlines.map Prod.snd).Sublist (s.deadlines.map Prod.snd))
    (hqueued : ∀ j ∈ t.queued, j ∈ s.queued) (hnodup : t.queued.Nodup)
    (hqueries : ∀ i p, t.queries.lookup i = some p → s.queries.lookup i = some p)
    (hleft : ∀ j, j ∉ t.queued → ¬held' j → j ∉ s.queued ∧ ¬held j ∧ ∀ i p due,
      s.queries.lookup i = some p → p.id = j → (due, i) ∈ s.deadlines → t.queries.lookup i = some p ∧
      (due, i) ∈ t.deadlines) :
    Inv timed held' t := by
  refine ⟨hr ▸ hn ▸ h.bound, fun j hj => hn ▸ h.queuedBound j (hqueued j hj), hnodup, hid,
    fun j hj => hr ▸ h.unsent j (hqueued j hj), fun i p hp => hr ▸ h.owner i p (hqueries i p hp),
    fun id r u i hlook hu p hp => h.recorded id r u i (hr ▸ hlook) hu p (hqueries i p hp),
    fun i j p q hp hq => h.kind i j p q (hqueries i p hp) (hqueries j q hq), fun id r hlook hnot hheld => ?_,
    fun ht => (h.due ht).sublist hdue⟩
  obtain ⟨hnot', hheld', hwire⟩ := hleft id hnot hheld
  obtain ⟨hsome, hall⟩ := h.awaited id r (hr ▸ hlook) hnot' hheld'
  refine ⟨hsome, fun u hu => ?_⟩
  obtain ⟨i, p, due, hri, hp, hpid, hpt, hdue⟩ := hall u hu
  obtain ⟨hp', hdue'⟩ := hwire i p due hp hpid hdue
  exact ⟨i, p, due, hri, hp', hpid, hpt, hdue'⟩

theorem Inv.agree (ha : Agree s t) : Inv timed held t := by
  obtain ⟨hn, hr, hq, hw, hd, hid⟩ := ha
  exact h.frame hn hr (hid ▸ h.requestId) (by rw [hd]) (fun _ hj => hq ▸ hj) (hq ▸ h.nodup)
    (fun _ _ hp => hw ▸ hp) fun _ hj hheld =>
    ⟨hq ▸ hj, hheld, fun _ _ _ hp _ hdue => ⟨hw ▸ hp, hd ▸ hdue⟩⟩

theorem Inv.release (hh : ∀ id r, s.resolutions.lookup id = some r → held id → held' id) : Inv timed held' s :=
  { h with awaited := fun id r hr hq hn => h.awaited id r hr hq fun hid => hn (hh id r hr hid) }

theorem Inv.fewerQueries (hn : t.nextId = s.nextId) (hr : t.resolutions = s.resolutions)
    (hq : t.queued = s.queued) (hd : t.deadlines = s.deadlines) (hid : t.nextRequestId = s.nextRequestId)
    (hsub : ∀ i p, t.queries.lookup i = some p → s.queries.lookup i = some p)
    (hleft : ∀ i p, s.queries.lookup i = some p → ¬held p.id → t.queries.lookup i = some p) : Inv timed held t :=
  h.frame hn hr (hid ▸ h.requestId) (by rw [hd]) (fun _ hj => hq ▸ hj) (hq ▸ h.nodup) hsub fun _ hj hheld =>
    ⟨hq ▸ hj, hheld, fun i p _ hp hpid hdue => ⟨hleft i p hp (hpid ▸ hheld), hd ▸ hdue⟩⟩

theorem Inv.erase (hno : ∀ i p, s.queries.lookup i = some p → p.id ≠ id) :
    Inv timed held { s with resolutions := s.resolutions.erase id } := by
  refine ⟨fun j r hj => h.bound j r (Map.of_lookup_erase hj).2, h.queuedBound, h.nodup, h.requestId,
    fun j hj r hr => h.unsent j hj r (Map.of_lookup_erase hr).2, fun i p hp => ?_,
    fun j r u i hj => h.recorded j r u i (Map.of_lookup_erase hj).2, h.kind,
    fun j r hj => h.awaited j r (Map.of_lookup_erase hj).2, h.due⟩
  obtain ⟨r, hr, hrec, ht⟩ := h.owner i p hp
  refine ⟨r, ?_, hrec, ht⟩
  rw [Map.lookup_erase_eq, if_neg (hno i p hp)]
  exact hr

end

theorem lookup_eraseQuery? (o : Option Nat) (i : Nat) :
    (s.eraseQuery? o).queries.lookup i = if o = some i then none else s.queries.lookup i := by
  cases o with
  | none => simp [eraseQuery?]
  | some j => simp [eraseQuery?, eraseQuery, eq_comm]

theorem lookup_eraseQueries {i : Nat} {p : Query} : (s.eraseQueries r).queries.lookup i = some p ↔
      s.queries.lookup i = some p ∧ ∀ t, r.queries t ≠ some i := by
  rw [eraseQueries, lookup_eraseQuery?, lookup_eraseQuery?]
  constructor
  · intro hp
    split at hp
    · cases hp
    next hb =>
    split at hp
    · cases hp
    next ha =>
    refine ⟨hp, fun t => ?_⟩
    cases t with
    | a => exact ha
    | aaaa => exact hb
  · rintro ⟨hp, hnot⟩
    rw [if_neg (hnot .aaaa), if_neg (hnot .a)]
    exact hp

theorem eraseQueries_agree (r : Resolve) :
    (s.eraseQueries r).queued = s.queued ∧ (s.eraseQueries r).deadlines = s.deadlines ∧
      (s.eraseQueries r).nextRequestId = s.nextRequestId := by
  unfold eraseQueries
  cases r.queries .a <;> cases r.queries .aaaa <;> exact ⟨rfl, rfl, rfl⟩

theorem Inv.remove (h : Inv timed held s) (hr : s.resolutions.lookup id = some r) :
    Inv timed held ({ s with resolutions := s.resolutions.erase id }.eraseQueries r) := by
  obtain ⟨hres, hn⟩ := s.eraseQueries_resolutions r
  obtain ⟨hq, hd, hid⟩ := s.eraseQueries_agree r
  -- first the queries leave, while the entry is worked on
  have hbusy : Inv timed (fun j => held j ∨ j = id) (s.eraseQueries r) := by
    refine (h.release fun j _ _ hj => .inl hj).fewerQueries hn hres hq hd hid
      (fun i p hp => (lookup_eraseQueries.mp hp).1) fun i p hp hne => ?_
    exact lookup_eraseQueries.mpr ⟨hp, fun t ht => hne (.inr (h.recorded id r t i hr ht p hp).1)⟩
  have hgone : ∀ i p, (s.eraseQueries r).queries.lookup i = some p → p.id ≠ id := by
    rintro i p hp rfl
    obtain ⟨hp, hnot⟩ := lookup_eraseQueries.mp hp
    obtain ⟨r', hr', hrec, -⟩ := h.owner i p hp
    rw [hr] at hr'
    cases hr'
    exact hnot _ hrec
  have hdone : Inv timed held { s.eraseQueries r with
      resolutions := (s.eraseQueries r).resolutions.erase id } := by
    refine (hbusy.erase hgone).release fun j r' hj hheld => ?_
    rcases hheld with hheld | rfl
    · exact hheld
    · simp at hj
  refine hdone.agree ⟨?_, ?_, ?_, ?_, ?_, ?_⟩ <;>
    (unfold eraseQueries; cases r.queries .a <;> cases r.queries .aaaa <;> rfl)

theorem onWire_congr {r' : Resolve} {u : RecordType} (hq : r'.queries u = r.queries u)
    (hw : t.queries = s.queries) (hd : t.deadlines = s.deadlines) (h : OnWire s id r u) : OnWire t id r' u := by
  obtain ⟨i, p, due, hri, hp, hid, ht, hdue⟩ := h
  exact ⟨i, p, due, hq.trans hri, hw ▸ hp, hid, ht, hd ▸ hdue⟩

theorem Inv.update {r' : Resolve} (h : Inv timed (fun j => held j ∨ j = id) s)
    (hr : s.resolutions.lookup id = some r) (hq : r'.queries = r.queries)
    (htest : ∀ i p, s.queries.lookup i = some p → p.id = id → r'.recordTypes.test p.recordType = true)
    (hawait : id ∉ s.queued → ¬held id →
      r'.recordTypes.none = false ∧ ∀ t, r'.recordTypes.test t = true → OnWire s id r t) :
    Inv timed held { s with resolutions := s.resolutions.modify id fun _ => r' } := by
  have hlook : ∀ j x, (s.resolutions.modify id fun _ => r').lookup j = some x →
      j = id ∧ x = r' ∨ j ≠ id ∧ s.resolutions.lookup j = some x := by
    intro j x hj
    rw [Map.lookup_modify_eq] at hj
    split at hj
    · next heq =>
      rw [hr] at hj
      exact .inl ⟨heq, (Option.some.inj hj).symm⟩
    · next hne => exact .inr ⟨hne, hj⟩
  refine ⟨fun j x hj => ?_, h.queuedBound, h.nodup, h.requestId, fun j hj x hx t => ?_, fun i p hp => ?_,
    fun j x t i hx hi p hp => ?_, h.kind, fun j x hx hnot hheld => ?_, h.due⟩
  · rcases hlook j x hj with ⟨rfl, rfl⟩ | ⟨-, hx⟩
    · exact h.bound j r hr
    · exact h.bound j x hx
  · rcases hlook j x hx with ⟨rfl, rfl⟩ | ⟨-, hx⟩
    · rw [hq]
      exact h.unsent j hj r hr t
    · exact h.unsent j hj x hx t
  · obtain ⟨y, hy, hrec, ht⟩ := h.owner i p hp
    by_cases hid : p.id = id
    · rw [hid, hr] at hy
      cases hy
      exact ⟨r', by rw [Map.lookup_modify_eq, if_pos hid, hr]; rfl, hq ▸ hrec, htest i p hp hid⟩
    · exact ⟨y, by rw [Map.lookup_modify_eq, if_neg hid]; exact hy, hrec, ht⟩
  · rcases hlook j x hx with ⟨rfl, rfl⟩ | ⟨-, hx⟩
    · rw [hq] at hi
      exact h.recorded j r t i hr hi p hp
    · exact h.recorded j x t i hx hi p hp
  · rcases hlook j x hx with ⟨rfl, rfl⟩ | ⟨hne, hx⟩
    · obtain ⟨hsome, hall⟩ := hawait hnot hheld
      exact ⟨hsome, fun t ht => onWire_congr (congrFun hq t) rfl rfl (hall t ht)⟩
    · obtain ⟨hsome, hall⟩ := h.awaited j x hx hnot fun hj => hj.elim hheld hne
      exact ⟨hsome, fun t ht => onWire_congr rfl rfl rfl (hall t ht)⟩

theorem none_of_test {types : RecordTypeSet} (h : types.none = true) (t : RecordType) : types.test t = false := by
  obtain ⟨a, aaaa⟩ := types
  cases a with
  | true => cases h
  | false =>
    cases aaaa with
    | true => cases h
    | false => cases t <;> rfl

theorem Inv.settle (h : Inv timed held s) {queryId : Nat} {query : Query}
    (hquery : s.queries.lookup queryId = some query) (addresses : List SocketAddress) :
    Inv timed held ((s.eraseQuery queryId).settle query addresses).1 := by
  obtain ⟨r, hr, hrec, htest⟩ := h.owner queryId query hquery
  have hsub : ∀ i p, (s.eraseQuery queryId).queries.lookup i = some p →
      i ≠ queryId ∧ s.queries.lookup i = some p := fun i p hp => Map.of_lookup_erase hp
  have hbusy : Inv timed (fun j => held j ∨ j = query.id) (s.eraseQuery queryId) := by
    refine (h.release fun j _ _ hj => .inl hj).fewerQueries rfl rfl rfl rfl rfl
      (fun i p hp => (hsub i p hp).2) fun i p hp hne => ?_
    simp only [eraseQuery, Map.lookup_erase_eq]
    rw [if_neg]
    · exact hp
    rintro rfl
    rw [hp] at hquery
    cases hquery
    exact hne (.inr rfl)
  -- what is left of this resolution is for the other type
  have hothers : ∀ i p, (s.eraseQuery queryId).queries.lookup i = some p → p.id = query.id →
      (r.recordTypes.reset query.recordType).test p.recordType = true := by
    intro i p hp hid
    obtain ⟨hne, hp⟩ := hsub i p hp
    obtain ⟨y, hy, hrec', ht⟩ := h.owner i p hp
    rw [hid, hr] at hy
    cases hy
    have htype : p.recordType ≠ query.recordType := by
      intro heq
      rw [heq, hrec] at hrec'
      exact hne (Option.some.inj hrec').symm
    rw [RecordTypeSet.test_reset, ht]
    simpa using htype
  have hr' : (s.eraseQuery queryId).resolutions.lookup query.id = some r := hr
  unfold VpnDnsResolver.settle
  rw [hr']
  simp only
  split
  · next hnone =>
    refine (hbusy.erase fun i p hp hid => ?_).release fun j x hx hj => ?_
    · have hfalse := hothers i p hp hid
      rw [none_of_test hnone] at hfalse
      cases hfalse
    · rcases hj with hj | rfl
      · exact hj
      · simp at hx
  · next hsome =>
    refine hbusy.update hr' rfl hothers fun hnot hheld => ⟨by simpa using hsome, fun t ht => ?_⟩
    rw [RecordTypeSet.test_reset, Bool.and_eq_true, decide_eq_true_eq] at ht
    obtain ⟨i, p, due, hri, hp, hid, hpt, hdue⟩ := (h.awaited _ r hr hnot hheld).2 t ht.1
    refine ⟨i, p, due, hri, ?_, hid, hpt, hdue⟩
    simp only [eraseQuery, Map.lookup_erase_eq]
    rw [if_neg]
    · exact hp
    rintro rfl
    rw [hp] at hquery
    cases hquery
    exact ht.2 hpt.symm

/-! ## Sending -/

/-- The next `n` request ids are not recorded in any resolution of the table. -/
structure Fresh (n : Nat) (s : VpnDnsResolver) : Prop where
  le : n ≤ 65536
  unused : ∀ k < n, ∀ id r t, s.resolutions.lookup id = some r →
    r.queries t ≠ some ((s.nextRequestId + k) % 65536)

/-- `Fresh`, and for none of them a deadline is left. -/
structure FreshFor (timed : Prop) (n : Nat) (s : VpnDnsResolver) : Prop extends Fresh n s where
  undue : timed → ∀ k < n, ∀ d ∈ s.deadlines, d.2 ≠ (s.nextRequestId + k) % 65536

/-- Everything that is queued can be sent: each request is encoded and taken by the tunnel, under an id
that is not in use. -/
structure Ready (env : Env) (s : VpnDnsResolver) : Prop where
  sent : ∀ id ∈ s.queued, ∀ r, s.resolutions.lookup id = some r → ∀ t, r.recordTypes.test t = true →
    env.send id t = .sent
  fresh : Fresh (2 * s.queued.length) s

theorem FreshFor.le_of {m n : Nat} (h : FreshFor timed n s) (hle : m ≤ n) : FreshFor timed m s :=
  ⟨⟨hle.trans h.le, fun k hk => h.unused k (hk.trans_le hle)⟩, fun ht k hk => h.undue ht k (hk.trans_le hle)⟩

/-- `Ready`, but what is held need not be sent. -/
structure ReadyFor (timed : Prop) (held : Nat → Prop) (env : Env) (s : VpnDnsResolver) : Prop where
  sent : ∀ id ∈ s.queued, ¬held id → ∀ r, s.resolutions.lookup id = some r → ∀ t,
    r.recordTypes.test t = true → env.send id t = .sent
  fresh : FreshFor timed (2 * s.queued.length) s

structure Sent (held : Nat → Prop) (s t : VpnDnsResolver) (id : Nat) (u : RecordType) (r r' : Resolve) :
    Prop where
  lookup : t.resolutions.lookup id = some r'
  types : r'.recordTypes = r.recordTypes
  onWire : r.recordTypes.test u = true → ¬held id → OnWire t id r' u
  other : ∀ v, v ≠ u → r'.queries v = r.queries v ∧ (OnWire s id r v → OnWire t id r' v)
  elsewhere : ∀ j, j ≠ id → t.resolutions.lookup j = s.resolutions.lookup j
  queued : t.queued = s.queued

section Record

variable {u : RecordType} {n : Nat}

/-- The next request id is recorded nowhere, and so it is not on the wire. -/
theorem Fresh.unrecorded (hfresh : Fresh (n + 1) s) (h : Inv timed held s) :
    (∀ j x t, s.resolutions.lookup j = some x → x.queries t ≠ some s.nextRequestId) ∧
      s.queries.lookup s.nextRequestId = none := by
  have hunused : ∀ j x t, s.resolutions.lookup j = some x → x.queries t ≠ some s.nextRequestId := by
    intro j x t hx
    have := hfresh.unused 0 (by omega) j x t hx
    rwa [Nat.add_zero, Nat.mod_eq_of_lt h.requestId] at this
  refine ⟨hunused, ?_⟩
  cases hq : s.queries.lookup s.nextRequestId with
  | none => rfl
  | some p =>
    obtain ⟨x, hx, hrec, -⟩ := h.owner _ p hq
    exact absurd hrec (hunused _ x _ hx)

def taken (env : Env) (q : VpnDnsResolverQueue) (id : Nat) (u : RecordType) (r : Resolve)
    (s : VpnDnsResolver) : VpnDnsResolver :=
  s.takeRequestId.recordSent env s.nextRequestId ⟨id, u, r.name, q⟩

theorem lookup_taken (hr : s.resolutions.lookup id = some r) (j : Nat) : (taken env q id u r s).resolutions.lookup j =
      if j = id then some (r.record u s.nextRequestId) else s.resolutions.lookup j := by
  simp [taken, recordSent, takeRequestId, Map.lookup_modify_eq, hr]

theorem lookupQuery_taken (hnew : s.queries.lookup s.nextRequestId = none) (i : Nat) :
    (taken env q id u r s).queries.lookup i =
      if i = s.nextRequestId then some ⟨id, u, r.name, q⟩ else s.queries.lookup i := by
  simp [taken, recordSent, takeRequestId, Map.lookup_emplace_eq, hnew]

theorem mem_deadlines_taken {d : Int × Nat} : d ∈ (taken env q id u r s).deadlines ↔
      d = (env.now id + env.queryTimeout, s.nextRequestId) ∨ d ∈ s.deadlines := by
  simp [taken, recordSent, takeRequestId, mem_orderedInsert]

theorem record_queries (u v : RecordType) (i : Nat) :
    (r.record u i).queries v = if v = u then some i else r.queries v := rfl

theorem record_types (htest : r.recordTypes.test u = true) (i : Nat) : (r.record u i).recordTypes = r.recordTypes :=
  RecordTypeSet.set_of_test htest

theorem onWire_taken {j : Nat} {x y : Resolve} {v : RecordType} (h : Inv timed held s)
    (hfresh : Fresh (n + 1) s) (hx : s.resolutions.lookup j = some x) (hy : y.queries v = x.queries v)
    (hw : OnWire s j x v) : OnWire (taken env q id u r s) j y v := by
  obtain ⟨hunused, hnew⟩ := hfresh.unrecorded h
  obtain ⟨i, p, due, hri, hp, hpid, hpt, hd⟩ := hw
  have hni : i ≠ s.nextRequestId := by
    rintro rfl
    exact hunused j x v hx hri
  exact ⟨i, p, due, hy.trans hri, by rw [lookupQuery_taken hnew, if_neg hni]; exact hp, hpid, hpt,
    mem_deadlines_taken.mpr (.inr hd)⟩

theorem FreshFor.drawn (hfresh : FreshFor timed (n + 1) s) (hnext : t.nextRequestId = (s.nextRequestId + 1) % 65536)
    (hrec : ∀ j x v i, t.resolutions.lookup j = some x → x.queries v = some i → i = s.nextRequestId ∨
      ∃ y, s.resolutions.lookup j = some y ∧ y.queries v = some i)
    (hdue : ∀ d ∈ t.deadlines, d.2 = s.nextRequestId ∨ d ∈ s.deadlines) : FreshFor timed n t := by
  have hle := hfresh.le
  have hshift : ∀ k, (t.nextRequestId + k) % 65536 = (s.nextRequestId + (k + 1)) % 65536 := by omega
  refine ⟨⟨by omega, fun k hk j x v hx hv => ?_⟩, fun ht k hk d hd => ?_⟩
  · rw [hshift] at hv
    rcases hrec j x v _ hx hv with heq | ⟨y, hy, hv⟩
    · omega
    · exact hfresh.unused (k + 1) (by omega) j y v hy hv
  · rw [hshift]
    rcases hdue d hd with heq | hd
    · omega
    · exact hfresh.undue ht (k + 1) (by omega) d hd

theorem FreshFor.taken (hfresh : FreshFor timed (n + 1) s) (hr : s.resolutions.lookup id = some r) :
    FreshFor timed n (VpnDnsResolver.taken env q id u r s) := by
  refine hfresh.drawn rfl (fun j x v i hx hv => ?_) fun d hd => ?_
  · rw [lookup_taken hr] at hx
    split at hx
    · next heq =>
      cases hx
      rw [record_queries] at hv
      split at hv
      · exact .inl (Option.some.inj hv).symm
      · exact .inr ⟨r, heq ▸ hr, hv⟩
    · exact .inr ⟨x, hx, hv⟩
  · rcases mem_deadlines_taken.mp hd with rfl | hd
    · exact .inl rfl
    · exact .inr hd

section

variable (h : Inv timed (fun j => held j ∨ j = id) s) (hr : s.resolutions.lookup id = some r) (hnot : id ∉ s.queued)
  (hnone : r.queries u = none)
include h hr hnot hnone

theorem Inv.taken (htest : r.recordTypes.test u = true)
    (hkind : ∀ i p, s.queries.lookup i = some p → p.id = id → p.queueKind = q)
    (hfresh : FreshFor timed (n + 1) s) :
    Inv timed (fun j => held j ∨ j = id) (VpnDnsResolver.taken env q id u r s) := by
  obtain ⟨hunused, hnew⟩ := hfresh.unrecorded h
  refine ⟨fun j x hx => ?_, h.queuedBound, h.nodup, Nat.mod_lt _ (by decide), fun j hj x hx t => ?_,
    fun i p hp => ?_, fun j x t i hx hi p hp => ?_, fun i j p p' hp hp' hpp => ?_, fun j x hx hj hne => ?_,
    fun ht => ?_⟩
  · rw [lookup_taken hr] at hx
    split at hx
    · next heq =>
      rw [heq]
      exact h.bound id r hr
    · exact h.bound j x hx
  · have hne : j ≠ id := fun heq => hnot (heq ▸ hj)
    rw [lookup_taken hr, if_neg hne] at hx
    exact h.unsent j hj x hx t
  -- the owner of the new query is this entry; the entry still owns its others
  · rw [lookupQuery_taken hnew] at hp
    split at hp
    · next heq =>
      cases hp
      exact ⟨r.record u s.nextRequestId, by rw [lookup_taken hr, if_pos rfl],
        by rw [record_queries, if_pos rfl, heq], by rw [record_types htest]; exact htest⟩
    · obtain ⟨x, hx, hrec, ht⟩ := h.owner i p hp
      rw [lookup_taken hr]
      by_cases hid : p.id = id
      · rw [hid, hr] at hx
        cases hx
        have hv : p.recordType ≠ u := by
          intro heq
          rw [heq, hnone] at hrec
          cases hrec
        exact ⟨r.record u s.nextRequestId, if_pos hid, by rw [record_queries, if_neg hv]; exact hrec,
          by rw [record_types htest]; exact ht⟩
      · exact ⟨x, by rw [if_neg hid]; exact hx, hrec, ht⟩
  · rw [lookup_taken hr] at hx
    rw [lookupQuery_taken hnew] at hp
    split at hx
    · next heq =>
      cases hx
      rw [record_queries] at hi
      split at hi
      · next ht =>
        cases hi
        rw [if_pos rfl] at hp
        cases hp
        exact ⟨heq.symm, ht.symm⟩
      · have hne : i ≠ s.nextRequestId := by
          rintro rfl
          exact hunused id r t hr hi
        rw [if_neg hne] at hp
        rw [heq]
        exact h.recorded id r t i hr hi p hp
    · have hne : i ≠ s.nextRequestId := by
        rintro rfl
        exact hunused j x t hx hi
      rw [if_neg hne] at hp
      exact h.recorded j x t i hx hi p hp
  · rw [lookupQuery_taken hnew] at hp hp'
    split at hp
    · cases hp
      split at hp'
      · cases hp'
        rfl
      · exact (hkind j p' hp' hpp.symm).symm
    · split at hp'
      · cases hp'
        exact hkind i p hp hpp
      · exact h.kind i j p p' hp hp' hpp
  · rw [lookup_taken hr, if_neg fun heq => hne (.inr heq)] at hx
    obtain ⟨hsome, hall⟩ := h.awaited j x hx hj hne
    exact ⟨hsome, fun t ht => onWire_taken h hfresh.toFresh hx rfl (hall t ht)⟩
  · have hperm := (perm_orderedInsert (fun x y : Int × Nat => x.1 ≤ y.1)
      (env.now id + env.queryTimeout, s.nextRequestId) s.deadlines).map Prod.snd
    refine hperm.nodup_iff.mpr (nodup_cons.mpr ⟨fun hmem => ?_, h.due ht⟩)
    obtain ⟨d, hd, heq⟩ := mem_map.mp hmem
    refine hfresh.undue ht 0 (by omega) d hd (heq.trans ?_)
    exact (Nat.mod_eq_of_lt h.requestId).symm

omit hnot hnone in
theorem unsent_spec {t : VpnDnsResolver} (hres : t.resolutions = s.resolutions) (hn : t.nextId = s.nextId)
    (hq : t.queued = s.queued) (hd : t.deadlines = s.deadlines)
    (hnext : t.nextRequestId = (s.nextRequestId + 1) % 65536)
    (hw : ∀ i, t.queries.lookup i = s.queries.lookup i) (hheld : held id) (hfresh : FreshFor timed (n + 1) s) :
    Inv timed (fun j => held j ∨ j = id) t ∧ FreshFor timed n t ∧ Sent held s t id u r r := by
  have hwire : ∀ v, OnWire s id r v → OnWire t id r v := by
    rintro v ⟨i, p, due, hri, hp, hpid, hpt, hdue⟩
    exact ⟨i, p, due, hri, (hw i).trans hp, hpid, hpt, hd ▸ hdue⟩
  refine ⟨h.frame hn hres (hnext ▸ Nat.mod_lt _ (by decide)) (by rw [hd]) (fun _ hj => hq ▸ hj) (hq ▸ h.nodup)
      (fun i p hp => (hw i).symm.trans hp) fun j hj hnot =>
        ⟨hq ▸ hj, hnot, fun i p due hp _ hdue => ⟨(hw i).trans hp, hd ▸ hdue⟩⟩,
    hfresh.drawn hnext (fun j x v i hx hv => .inr ⟨x, hres ▸ hx, hv⟩) fun d hd' => .inr (hd ▸ hd'),
    hres ▸ hr, rfl, fun _ hnot => absurd hheld hnot, fun v _ => ⟨rfl, hwire v⟩, fun j _ => by rw [hres], hq⟩

theorem sendQuery_spec (hkind : ∀ i p, s.queries.lookup i = some p → p.id = id → p.queueKind = q)
    (hsent : r.recordTypes.test u = true → ¬held id → env.send id u = .sent) (hfresh : FreshFor timed (n + 1) s) :
    Inv timed (fun j => held j ∨ j = id) (sendQuery env q id u s).1 ∧
      FreshFor timed n (sendQuery env q id u s).1 ∧
      (∀ i p, (sendQuery env q id u s).1.queries.lookup i = some p → p.id = id → p.queueKind = q) ∧
      ∃ r', Sent held s (sendQuery env q id u s).1 id u r r' := by
  unfold sendQuery
  rw [hr]
  simp only
  by_cases htest : r.recordTypes.test u = true
  · rw [if_neg (by simp [htest])]
    obtain ⟨-, hnew⟩ := hfresh.unrecorded h
    have hheld : env.send id u ≠ .sent → held id := fun hne => by_contra fun hnot => hne (hsent htest hnot)
    split
    · next hs =>
      obtain ⟨h₁, hf₁, hs₁⟩ := unsent_spec (t := s.takeRequestId) h hr rfl rfl rfl rfl rfl (fun _ => rfl)
        (hheld (by simp [hs])) hfresh
      exact ⟨h₁, hf₁, hkind, r, hs₁⟩
    · next hs =>
      have hw : ∀ i, ((s.queries.emplace s.nextRequestId ⟨id, u, r.name, q⟩).erase s.nextRequestId).lookup i =
          s.queries.lookup i := by
        intro i
        rw [Map.lookup_erase_eq, Map.lookup_emplace_eq]
        split
        · next heq => rw [heq, hnew]
        · rfl
      obtain ⟨h₁, hf₁, hs₁⟩ := unsent_spec (t := { s.takeRequestId with
        queries := s.queries.emplace s.nextRequestId ⟨id, u, r.name, q⟩ }.eraseQuery s.nextRequestId)
        h hr rfl rfl rfl rfl rfl hw (hheld (by simp [hs])) hfresh
      exact ⟨h₁, hf₁, fun i p hp => hkind i p ((hw i).symm.trans hp), r, hs₁⟩
    refine ⟨h.taken hr hnot hnone htest hkind hfresh, hfresh.taken hr, fun i p hp hpid => ?_,
      r.record u s.nextRequestId, ?_, record_types htest _, fun _ _ => ?_, fun v hv => ?_, fun j hj => ?_, rfl⟩
    · change (taken env q id u r s).queries.lookup i = some p at hp
      rw [lookupQuery_taken hnew] at hp
      split at hp
      · cases hp
        rfl
      · exact hkind i p hp hpid
    · exact (lookup_taken hr id).trans (if_pos rfl)
    · exact ⟨s.nextRequestId, _, _, if_pos rfl, (lookupQuery_taken hnew _).trans (if_pos rfl), rfl, rfl,
        mem_deadlines_taken.mpr (.inl rfl)⟩
    · exact ⟨if_neg hv, onWire_taken h hfresh.toFresh hr (if_neg hv)⟩
    · exact (lookup_taken hr j).trans (if_neg hj)
  · rw [if_pos (by simpa using htest)]
    exact ⟨h, hfresh.le_of (by omega), hkind, r, hr, rfl,
      fun ht => absurd ht htest, fun v _ => ⟨rfl, fun hw => hw⟩, fun _ _ => rfl, rfl⟩

end

end Record

structure Shrinks (s t : VpnDnsResolver) : Prop where
  queued : t.queued = s.queued
  nextRequestId : t.nextRequestId = s.nextRequestId
  deadlines : t.deadlines.Sublist s.deadlines
  entries : ∀ id r', t.resolutions.lookup id = some r' → ∃ r, s.resolutions.lookup id = some r ∧
    r'.queries = r.queries ∧ ∀ u, r'.recordTypes.test u = true → r.recordTypes.test u = true

theorem Shrinks.refl (s : VpnDnsResolver) : Shrinks s s :=
  ⟨rfl, rfl, .refl _, fun _ r hr => ⟨r, hr, rfl, fun _ h => h⟩⟩

theorem Shrinks.trans {v : VpnDnsResolver} (h : Shrinks s t) (k : Shrinks t v) : Shrinks s v := by
  refine ⟨k.queued.trans h.queued, k.nextRequestId.trans h.nextRequestId, k.deadlines.trans h.deadlines,
    fun id x hx => ?_⟩
  obtain ⟨y, hy, hqy, hty⟩ := k.entries id x hx
  obtain ⟨z, hz, hqz, htz⟩ := h.entries id y hy
  exact ⟨z, hz, hqy.trans hqz, fun u hu => htz u (hty u hu)⟩

theorem FreshFor.shrinks {n : Nat} (h : FreshFor timed n s) (hs : Shrinks s t) : FreshFor timed n t := by
  refine ⟨⟨h.le, fun k hk id x u hx => ?_⟩, fun ht k hk d hd => ?_⟩
  · obtain ⟨r, hr, hq, -⟩ := hs.entries id x hx
    rw [hs.nextRequestId, hq]
    exact h.unused k hk id r u hr
  · rw [hs.nextRequestId]
    exact h.undue ht k hk d (hs.deadlines.subset hd)

theorem ReadyFor.shrinks (h : ReadyFor timed held env s) (hs : Shrinks s t) : ReadyFor timed held env t := by
  refine ⟨fun id hid hheld x hx u hu => ?_, ?_⟩
  · obtain ⟨r, hr, -, ht⟩ := hs.entries id x hx
    exact h.sent id (hs.queued ▸ hid) hheld r hr u (ht u hu)
  · rw [hs.queued]
    exact h.fresh.shrinks hs

theorem Agree.shrinks (h : Agree s t) : Shrinks s t :=
  ⟨h.queued, h.nextRequestId, by rw [h.deadlines], fun _ r hr => ⟨r, h.resolutions ▸ hr, rfl, fun _ h => h⟩⟩

theorem shrinks_erase (s : VpnDnsResolver) (id : Nat) : Shrinks s { s with resolutions := s.resolutions.erase id } := by
  refine ⟨rfl, rfl, .refl _, fun j x hx => ?_⟩
  simp only [Map.lookup_erase_eq] at hx
  split at hx
  · cases hx
  · exact ⟨x, hx, rfl, fun _ h => h⟩

theorem resolveEntry_spec {n : Nat} (h : Inv timed (fun j => held j ∨ j = id) s) (hnot : id ∉ s.queued)
    (hunsent : ∀ r, s.resolutions.lookup id = some r → ∀ t, r.queries t = none)
    (hsent : ¬held id → ∀ r, s.resolutions.lookup id = some r → ∀ t, r.recordTypes.test t = true →
      env.send id t = .sent) (hfresh : FreshFor timed (n + 2) s) :
    Inv timed held (resolveEntry env q id s).1 ∧ FreshFor timed n (resolveEntry env q id s).1 ∧
      (resolveEntry env q id s).1.queued = s.queued ∧
      ∀ j, j ≠ id → (resolveEntry env q id s).1.resolutions.lookup j = s.resolutions.lookup j := by
  unfold resolveEntry
  split
  · next hnone =>
    refine ⟨h.release fun j x hx hj => hj.resolve_right fun heq => ?_, hfresh.le_of (by omega), rfl, fun _ _ => rfl⟩
    rw [heq, hnone] at hx
    cases hx
  · next r hr =>
    have hkind : ∀ i p, s.queries.lookup i = some p → p.id = id → p.queueKind = q := by
      intro i p hp hid
      obtain ⟨x, hx, hrec, -⟩ := h.owner i p hp
      rw [hid, hr] at hx
      cases hx
      rw [hunsent r hr] at hrec
      cases hrec
    obtain ⟨h₁, hfresh₁, hkind₁, r₁, hs₁⟩ := sendQuery_spec h hr hnot
      (hunsent r hr .a) hkind (fun ht hheld => hsent hheld r hr .a ht) hfresh
    obtain ⟨h₂, hfresh₂, -, r₂, hs₂⟩ := sendQuery_spec h₁ hs₁.lookup
      (hs₁.queued ▸ hnot) ((hs₁.other .aaaa (by decide)).1.trans (hunsent r hr .aaaa)) hkind₁
      (fun ht hheld => hsent hheld r hr .aaaa (hs₁.types ▸ ht)) hfresh₁
    have hqueued := hs₂.queued.trans hs₁.queued
    have helse : ∀ j, j ≠ id → (sendQuery env q id .aaaa (sendQuery env q id .a s).1).1.resolutions.lookup j =
        s.resolutions.lookup j := fun j hj => (hs₂.elsewhere j hj).trans (hs₁.elsewhere j hj)
    have hwire : ¬held id → ∀ t, r₂.recordTypes.test t = true →
        OnWire (sendQuery env q id .aaaa (sendQuery env q id .a s).1).1 id r₂ t := by
      intro hheld t ht
      rw [hs₂.types, hs₁.types] at ht
      cases t with
      | a => exact (hs₂.other .a (by decide)).2 (hs₁.onWire ht hheld)
      | aaaa => exact hs₂.onWire (hs₁.types ▸ ht) hheld
    simp only [andDo_fst]
    generalize (sendQuery env q id .aaaa (sendQuery env q id .a s).1).1 = s₂ at *
    rw [hs₂.lookup]
    simp only
    split
    · next hnone =>
      refine ⟨(h₂.erase fun i p hp hid => ?_).release fun j x hx hj => ?_,
        hfresh₂.shrinks (s₂.shrinks_erase id), hqueued, fun j hj => ?_⟩
      · obtain ⟨x, hx, -, ht⟩ := h₂.owner i p hp
        rw [hid, hs₂.lookup] at hx
        cases hx
        rw [none_of_test hnone] at ht
        cases ht
      · refine hj.resolve_right fun heq => ?_
        subst heq
        simp at hx
      · rw [← helse j hj]
        simp [answer, hj]
    · next hsome =>
      refine ⟨{ h₂ with awaited := fun j x hx hj hheld => ?_ }, hfresh₂, hqueued, helse⟩
      by_cases hid : j = id
      · subst hid
        rw [hs₂.lookup] at hx
        cases hx
        exact ⟨by simpa using hsome, hwire hheld⟩
      · exact h₂.awaited j x hx hj fun hj => hj.elim hheld hid

theorem sendQuery_queue (env : Env) (q : VpnDnsResolverQueue) (id : Nat) (t : RecordType)
    (s : VpnDnsResolver) (p : VpnDnsResolverQueue) : (sendQuery env q id t s).1.queue p = s.queue p := by
  unfold sendQuery
  split
  · rfl
  · split
    · rfl
    · split <;> (cases p <;> rfl)

theorem resolveEntry_queue (env : Env) (q : VpnDnsResolverQueue) (id : Nat) (s : VpnDnsResolver)
    (p : VpnDnsResolverQueue) : (resolveEntry env q id s).1.queue p = s.queue p := by
  unfold resolveEntry
  split
  · rfl
  have hsent := (sendQuery_queue env q id .aaaa (sendQuery env q id .a s).1 p).trans (sendQuery_queue env q id .a s p)
  simp only [andDo_fst]
  split
  · split
    · exact (show _ = _ by cases p <;> rfl).trans hsent
    · exact hsent
  · exact hsent

theorem setQueue_queued {rest : List Nat} (hq : s.queue q = id :: rest) (hnodup : s.queued.Nodup) :
    (s.setQueue q rest).queued.Nodup ∧ id ∉ (s.setQueue q rest).queued ∧ id ∈ s.queued ∧
      (∀ j, j ∈ s.queued → j = id ∨ j ∈ (s.setQueue q rest).queued) ∧
      (∀ j ∈ (s.setQueue q rest).queued, j ∈ s.queued) ∧
      s.queued.length = (s.setQueue q rest).queued.length + 1 := by
  cases q with
  | background =>
    have hb : s.background = id :: rest := hq
    simp only [queued, hb, cons_append, nodup_cons] at hnodup ⊢
    exact ⟨hnodup.2, hnodup.1, mem_cons_self, fun j hj => mem_cons.mp hj, fun j hj => mem_cons_of_mem _ hj, rfl⟩
  | foreground =>
    have hf : s.foreground = id :: rest := hq
    simp only [queued, setQueue, hf] at hnodup ⊢
    obtain ⟨hcons, hrest⟩ := nodup_middle.mp hnodup |> nodup_cons.mp
    refine ⟨hrest, hcons, by simp, fun j hj => ?_, fun j hj => ?_, by simp; omega⟩
    · simp only [mem_append, mem_cons] at hj ⊢
      tauto
    · simp only [mem_append] at hj ⊢
      tauto

theorem setQueue_agree (q : VpnDnsResolverQueue) (l : List Nat) :
    (s.setQueue q l).queries = s.queries ∧ (s.setQueue q l).deadlines = s.deadlines ∧
      (s.setQueue q l).nextRequestId = s.nextRequestId ∧ (s.setQueue q l).queue q = l := by
  cases q <;> exact ⟨rfl, rfl, rfl, rfl⟩

theorem Inv.withQueue (h : Inv timed held s) (hsub : ∀ j ∈ (s.setQueue q l).queued, j ∈ s.queued)
    (hnodup : (s.setQueue q l).queued.Nodup) (hsplit : ∀ j ∈ s.queued, held' j ∨ j ∈ (s.setQueue q l).queued) :
    Inv timed (fun j => held j ∨ held' j) (s.setQueue q l) := by
  obtain ⟨hres, hn⟩ := s.setQueue_resolutions q l
  obtain ⟨hw, hd, hreq, -⟩ := s.setQueue_agree q l
  exact h.frame hn hres (hreq ▸ h.requestId) (by rw [hd]) hsub hnodup (fun i p hp => hw ▸ hp) fun j hj hheld =>
    ⟨fun hin => (hsplit j hin).elim (fun hj' => hheld (.inr hj')) hj, fun hj' => hheld
      (.inl hj'), fun i p due hp _ hdue => ⟨hw ▸ hp, hd ▸ hdue⟩⟩

theorem resolveQueue_spec (h : Inv timed held s) (hready : ReadyFor timed held env s) (hq : s.queue q = l) :
    Inv timed held (resolveQueue env q l s).1 ∧ ReadyFor timed held env (resolveQueue env q l s).1 := by
  induction l generalizing s with
  | nil => exact ⟨h, hready⟩
  | cons id rest ih =>
    unfold resolveQueue
    split
    · obtain ⟨hnodup, hnot, hid, hsplit, hsub, hlen⟩ := setQueue_queued hq h.nodup
      obtain ⟨hres, hn⟩ := s.setQueue_resolutions q rest
      obtain ⟨-, hd, hreq, hrest⟩ := s.setQueue_agree q rest
      have hbusy : Inv timed (fun j => held j ∨ j = id) (s.setQueue q rest) := h.withQueue hsub hnodup hsplit
      have hfresh : FreshFor timed (2 * (s.setQueue q rest).queued.length + 2) (s.setQueue q rest) := by
        have hf := hready.fresh
        rw [hlen] at hf
        refine ⟨⟨hf.le, fun k hk j x t hx => ?_⟩, fun ht k hk d hd' => ?_⟩
        · rw [hreq]
          rw [hres] at hx
          exact hf.unused k hk j x t hx
        · rw [hreq]
          exact hf.undue ht k hk d (hd ▸ hd')
      obtain ⟨hsound, hfresh', hqueued, helse⟩ := resolveEntry_spec hbusy hnot
        (fun r hr => h.unsent id hid r (hres ▸ hr))
          (fun hheld r hr => hready.sent id hid hheld r (hres ▸ hr)) hfresh
      have hqueue := (resolveEntry_queue env q id (s.setQueue q rest) q).trans hrest
      refine ih hsound ⟨fun j hj hheld x hx => ?_, ?_⟩ hqueue
      · rw [hqueued] at hj
        have hne : j ≠ id := fun heq => hnot (heq ▸ hj)
        rw [helse j hne, hres] at hx
        exact hready.sent j (hsub j hj) hheld x hx
      · rw [hqueued]
        exact hfresh'
    · exact ⟨h, hready⟩

theorem resolvePendingDomains_sound (h : Inv timed held s) (hready : ReadyFor timed held env s) :
    Inv timed held (resolvePendingDomains env s).1 := by
  unfold resolvePendingDomains
  split
  · exact h
  split
  · exact h.agree ⟨rfl, rfl, rfl, rfl, rfl, rfl⟩
  split
  · obtain ⟨h₁, hready₁⟩ := resolveQueue_spec h hready rfl
    obtain ⟨h₂, -⟩ := resolveQueue_spec h₁ hready₁ rfl
    exact h₂.agree ⟨rfl, rfl, rfl, rfl, rfl, rfl⟩
  · exact h.agree ⟨rfl, rfl, rfl, rfl, rfl, rfl⟩

/-! ## Answers and deadlines -/

theorem shrinks_settle (queryId : Nat) (query : Query)
    (addresses : List SocketAddress) : Shrinks s ((s.eraseQuery queryId).settle query addresses).1 := by
  unfold settle
  split
  · exact ⟨rfl, rfl, .refl _, fun _ r hr => ⟨r, hr, rfl, fun _ h => h⟩⟩
  next r hr =>
  simp only
  split
  · have h := shrinks_erase s query.id
    exact ⟨h.queued, h.nextRequestId, .refl _, h.entries⟩
  refine ⟨rfl, rfl, .refl _, fun j x hx => ?_⟩
  rw [Map.lookup_modify_eq] at hx
  split at hx
  · next heq =>
    rw [hr] at hx
    cases hx
    refine ⟨r, heq ▸ hr, rfl, fun u hu => ?_⟩
    rw [RecordTypeSet.test_reset, Bool.and_eq_true] at hu
    exact hu.1
  · exact ⟨x, hx, rfl, fun _ h => h⟩

theorem receive_sound (h : Inv timed held s) (hready : ReadyFor timed held env s) (queryId : Nat)
    (addresses : List SocketAddress) : Inv timed held (s.receive env queryId addresses).1 := by
  unfold receive
  split
  · exact h
  next query hquery =>
  split
  · next hnone =>
    obtain ⟨r, hr, -⟩ := h.owner queryId query hquery
    rw [hnone] at hr
    cases hr
  · exact resolvePendingDomains_sound (h.settle hquery addresses)
      (hready.shrinks (s.shrinks_settle queryId query addresses))

theorem settle_deadlines (s : VpnDnsResolver) (query : Query) (addresses : List SocketAddress) :
    (s.settle query addresses).1.deadlines = s.deadlines ∧ (s.settle query addresses).1.queries = s.queries := by
  unfold settle
  split
  · exact ⟨rfl, rfl⟩
  · simp only
    split <;> exact ⟨rfl, rfl⟩

theorem expire_spec (h : Inv timed held s) (d : Int × Nat) :
    (Inv timed held (expire d s).1 ∧ Shrinks s (expire d s).1 ∧ (expire d s).1.deadlines = s.deadlines) ∧
      (expire d s).1.queries.lookup d.2 = none ∧
      ∀ i, s.queries.lookup i = none → (expire d s).1.queries.lookup i = none := by
  unfold expire
  split
  · next hnone => exact ⟨⟨h, Shrinks.refl s, rfl⟩, hnone, fun _ hi => hi⟩
  next query hquery =>
  obtain ⟨hd, hq⟩ := settle_deadlines (s.eraseQuery d.2) query []
  refine ⟨⟨h.settle hquery [], s.shrinks_settle d.2 query [], hd⟩, ?_, fun i hi => ?_⟩
  · rw [hq]
    simp [eraseQuery]
  · rw [hq]
    simp [eraseQuery, hi]

theorem expire_all {l : List (Int × Nat)} (h : Inv timed held s) :
    (Inv timed held (forEach expire l s).1 ∧ Shrinks s (forEach expire l s).1 ∧
      (forEach expire l s).1.deadlines = s.deadlines) ∧
      ∀ d ∈ l, (forEach expire l s).1.queries.lookup d.2 = none :=
  forEach_each (I := fun t => Inv timed held t ∧ Shrinks s t ∧ t.deadlines = s.deadlines)
    ⟨h, Shrinks.refl s, rfl⟩ fun d _ t ⟨ht, hs, hd⟩ => by
      obtain ⟨⟨ht', hs', hd'⟩, hgone, hkeeps⟩ := expire_spec ht d
      exact ⟨⟨ht', hs.trans hs', hd'.trans hd⟩, hgone, fun e he => hkeeps e.2 he⟩

theorem onPeriodicQueriesCheck_sound {now : Int} (h : Inv timed held s) (hready : ReadyFor timed held env s) :
    Inv timed held (onPeriodicQueriesCheck env now s).1 := by
  have hagree : Agree s { s with periodicQueriesCheckTask := false } := ⟨rfl, rfl, rfl, rfl, rfl, rfl⟩
  obtain ⟨⟨h₁, hs₁, hd₁⟩, hgone⟩ := expire_all (h.agree hagree)
  have hready₁ : ReadyFor timed held env (forEach expire (s.deadlines.takeWhile fun d => d.1 ≤ now)
      { s with periodicQueriesCheckTask := false }).1 :=
    hready.shrinks (hagree.shrinks.trans hs₁)
  unfold onPeriodicQueriesCheck
  simp only [andDo_fst]
  generalize (forEach expire (s.deadlines.takeWhile fun d => d.1 ≤ now)
    { s with periodicQueriesCheckTask := false }).1 = t at *
  have hleft : (t.deadlines.dropWhile fun d => d.1 ≤ now).Sublist t.deadlines := dropWhile_sublist _
  refine resolvePendingDomains_sound ?_ (hready₁.shrinks ⟨rfl, rfl,
    hleft, fun _ r hr => ⟨r, hr, rfl, fun _ h => h⟩⟩)
  refine h₁.frame rfl rfl h₁.requestId (hleft.map _)
    (fun j hj => hj) h₁.nodup (fun i p hp => hp) fun j hj hheld =>
    ⟨hj, hheld, fun i p due hp _ hdue => ⟨hp, ?_⟩⟩
  -- a query that is still on the wire has a deadline that has not passed
  have hd : t.deadlines = s.deadlines := hd₁
  rw [hd] at hdue ⊢
  rw [← takeWhile_append_dropWhile (l := s.deadlines), mem_append] at hdue
  refine hdue.resolve_left fun hin => ?_
  rw [hgone (due, i) hin] at hp
  cases hp

/-! ## New entries -/

theorem resolve_sound (h : Inv timed held s) (q : VpnDnsResolverQueue) (name : Bytes)
    (types : RecordTypeSet) : Inv timed held (s.resolve q name types) := by
  have hnew : s.nextId ∉ s.queued := fun hin => Nat.lt_irrefl _ (h.queuedBound _ hin)
  have habsent : s.resolutions.lookup s.nextId = none :=
    eq_none_iff_forall_ne_some.mpr fun r hr => Nat.lt_irrefl _ (h.bound _ r hr)
  have hqueued : ∀ j, j ∈ (s.resolve q name types).queued ↔ j ∈ s.queued ∨ j = s.nextId := by
    cases q <;> simp only [resolve, queued, setQueue, mem_append, mem_singleton]
    · tauto
    · tauto
  have hnodup : (s.resolve q name types).queued.Nodup := by
    have hcons : (s.nextId :: s.queued).Nodup := nodup_cons.mpr ⟨hnew, h.nodup⟩
    refine List.Perm.nodup ?_ hcons
    cases q with
    | background =>
      simp only [resolve, queued, setQueue, append_assoc]
      exact perm_middle.symm
    | foreground =>
      simp only [resolve, queued, setQueue, ← append_assoc]
      exact (perm_append_singleton _ _).symm
  have hlook : ∀ j, (s.resolve q name types).resolutions.lookup j =
      if j = s.nextId then some ⟨name, types, [], fun _ => none⟩ else s.resolutions.lookup j := by
    intro j
    simp [resolve, Map.lookup_emplace_eq, habsent]
  have hsame : (s.resolve q name types).queries = s.queries ∧ (s.resolve q name types).deadlines = s.deadlines ∧
      (s.resolve q name types).nextRequestId = s.nextRequestId := by
    cases q <;> exact ⟨rfl, rfl, rfl⟩
  obtain ⟨hw, hd, hreq⟩ := hsame
  have hown : ∀ i p, s.queries.lookup i = some p → p.id ≠ s.nextId := by
    intro i p hp heq
    obtain ⟨r, hr, -⟩ := h.owner i p hp
    rw [heq, habsent] at hr
    cases hr
  refine ⟨fun j x hx => ?_, fun j hj => ?_, hnodup, hreq ▸ h.requestId, fun j hj x hx t => ?_,
    fun i p hp => ?_, fun j x t i hx hi p hp => ?_, hw ▸ h.kind, fun j x hx hj hheld => ?_, hd ▸ h.due⟩
  · show j < s.nextId + 1
    rw [hlook] at hx
    split at hx
    · omega
    · exact Nat.lt_succ_of_lt (h.bound j x hx)
  · rcases (hqueued j).mp hj with hj | rfl
    · exact Nat.lt_succ_of_lt (h.queuedBound j hj)
    · exact Nat.lt_succ_self _
  · rw [hlook] at hx
    split at hx
    · cases hx
      rfl
    · next hne => exact h.unsent j (((hqueued j).mp hj).resolve_right hne) x hx t
  · rw [hw] at hp
    obtain ⟨r, hr, hrec, ht⟩ := h.owner i p hp
    exact ⟨r, by rw [hlook, if_neg (hown i p hp)]; exact hr, hrec, ht⟩
  · rw [hw] at hp
    rw [hlook] at hx
    split at hx
    · cases hx
      cases hi
    · exact h.recorded j x t i hx hi p hp
  · have hne : j ≠ s.nextId := fun heq => hj ((hqueued j).mpr (.inr heq))
    rw [hlook, if_neg hne] at hx
    obtain ⟨hsome, hall⟩ := h.awaited j x hx (fun hin => hj ((hqueued j).mpr (.inl hin))) hheld
    exact ⟨hsome, fun t ht => onWire_congr rfl hw hd (hall t ht)⟩

/-! ## Cancelling and stopping -/

theorem wireQuery_none (h : Inv timed held s) (hr : s.resolutions.lookup id = none) : s.wireQuery id = none := by
  rw [wireQuery, map_eq_none_iff, List.find?_eq_none]
  rintro ⟨i, p⟩ he hid
  have hp : s.queries.lookup i = some p := AList.mem_lookup_iff.mpr he
  obtain ⟨r, hr', -⟩ := h.owner i p hp
  rw [show p.id = id by simpa using hid, hr] at hr'
  cases hr'

theorem discard_sound (h : Inv timed held s) (id : Nat) :
    Inv timed held (s.discard id) ∧ (s.discard id).resolutions.lookup id = none := by
  unfold discard
  split
  · next r hr =>
    refine ⟨h.remove hr, ?_⟩
    rw [(eraseQueries_resolutions _ r).1]
    simp
  · next hr => exact ⟨h, hr⟩

theorem cancel_sound (h : Inv timed held s) (id : Nat) : Inv timed held (s.cancel id) := by
  obtain ⟨hremoved, hgone⟩ := discard_sound h id
  rw [cancel, wireQuery_none hremoved hgone]
  exact hremoved

theorem eraseQueries_queue (s : VpnDnsResolver) (r : Resolve) (p : VpnDnsResolverQueue) :
    (s.eraseQueries r).queue p = s.queue p := by
  unfold eraseQueries
  cases r.queries .a <;> cases r.queries .aaaa <;> cases p <;> rfl

theorem stopEntry_sound (h : Inv timed held s) (id : Nat) :
    (Inv timed held (stopEntry id s).1 ∧ ∀ p, (stopEntry id s).1.queue p = s.queue p) ∧
      (stopEntry id s).1.resolutions.lookup id = none ∧
      ∀ j, s.resolutions.lookup j = none → (stopEntry id s).1.resolutions.lookup j = none := by
  unfold stopEntry
  split
  · next hr => exact ⟨⟨h, fun _ => rfl⟩, hr, fun _ hj => hj⟩
  next r hr =>
  have hlook : ∀ j, ((s.answer id []).1.eraseQueries r).resolutions.lookup j =
      if j = id then none else s.resolutions.lookup j := by
    intro j
    rw [(eraseQueries_resolutions _ r).1]
    exact Map.lookup_erase_eq _ _ _
  refine ⟨⟨h.remove hr, fun p => (eraseQueries_queue _ r p).trans ?_⟩, ?_, fun j hj => ?_⟩
  · cases p <;> rfl
  · rw [hlook, if_pos rfl]
  · rw [hlook, hj, ite_self]

theorem stopEntries_sound (h : Inv timed held s) :
    (Inv timed held (forEach stopEntry l s).1 ∧ ∀ p, (forEach stopEntry l s).1.queue p = s.queue p) ∧
      ∀ j ∈ l, (forEach stopEntry l s).1.resolutions.lookup j = none :=
  forEach_each (I := fun t => Inv timed held t ∧ ∀ p, t.queue p = s.queue p)
    ⟨h, fun _ => rfl⟩ fun id _ t ⟨ht, hq⟩ => by
      obtain ⟨⟨ht', hq'⟩, hgone, hkeeps⟩ := stopEntry_sound ht id
      exact ⟨⟨ht', fun p => (hq' p).trans (hq p)⟩, hgone, hkeeps⟩

theorem Inv.emptied (h : Inv timed held s) (q : VpnDnsResolverQueue) :
    Inv timed (fun j => held j ∨ j ∈ s.queue q) (s.setQueue q []) := by
  have hmem : ∀ j, j ∈ s.queued ↔ j ∈ s.queue q ∨ j ∈ (s.setQueue q []).queued := by
    intro j
    cases q <;> simp only [queued, queue, setQueue, mem_append, nil_append]
    tauto
  have hnodup : (s.setQueue q []).queued.Nodup := by
    have hs := nodup_append.mp h.nodup
    cases q with
    | background => exact hs.2.1
    | foreground =>
      show (s.background ++ []).Nodup
      rw [append_nil]
      exact hs.1
  exact h.withQueue (fun j hj => (hmem j).mpr (.inr hj)) hnodup fun j hj => (hmem j).mp hj

theorem stopQueue_sound (h : Inv timed held s) (stopping : VpnDnsResolverQueue → Bool)
    (q : VpnDnsResolverQueue) : Inv timed held (stopQueue stopping q s).1 ∧
      ∀ p, (stopQueue stopping q s).1.queue p = if p = q ∧ stopping q = true then [] else s.queue p := by
  unfold stopQueue
  split
  · next hstop =>
    obtain ⟨⟨h₁, hq⟩, hgone⟩ := stopEntries_sound (h.emptied q)
    refine ⟨h₁.release fun j x hx hj => ?_, fun p => (hq p).trans ?_⟩
    · refine hj.resolve_right fun hj => ?_
      rw [hgone j hj] at hx
      cases hx
    · cases p <;> cases q <;> simp [hstop, queue, setQueue]
  · next hstop =>
    refine ⟨h, fun p => ?_⟩
    rw [if_neg fun hp => hstop hp.2]

theorem eraseAll_spec (l : List (Sigma fun _ : Nat => Query)) (s : VpnDnsResolver) :
    (∀ i p, (l.foldl (fun s e => s.eraseQuery e.1) s).queries.lookup i = some p ↔
      s.queries.lookup i = some p ∧ ∀ e ∈ l, e.1 ≠ i) ∧
      (∀ q, (l.foldl (fun s e => s.eraseQuery e.1) s).queue q = s.queue q) ∧
      (l.foldl (fun s e => s.eraseQuery e.1) s).deadlines = s.deadlines ∧
      (l.foldl (fun s e => s.eraseQuery e.1) s).nextRequestId = s.nextRequestId := by
  induction l generalizing s with
  | nil => simp
  | cons e l ih =>
    obtain ⟨hlook, hq, hd, hreq⟩ := ih (s.eraseQuery e.1)
    refine ⟨fun i p => (hlook i p).trans ?_, fun q => (hq q).trans ?_, hd, hreq⟩
    rotate_left
    · cases q <;> rfl
    simp only [eraseQuery, Map.lookup_erase_eq, forall_mem_cons]
    split
    · next heq => simp [heq]
    next hne =>
    constructor
    · rintro ⟨hp, hall⟩
      exact ⟨hp, fun heq => hne heq.symm, hall⟩
    · rintro ⟨hp, -, hall⟩
      exact ⟨hp, hall⟩

theorem stopQuery_sound (h : Inv timed held s) (e : Sigma fun _ : Nat => Query)
    (hno : ∀ i p, s.queries.lookup i = some p → p.id ≠ e.2.id) :
    (Inv timed held (stopQuery e s).1 ∧ (stopQuery e s).1.queries = s.queries ∧
      ∀ q, (stopQuery e s).1.queue q = s.queue q) ∧ (stopQuery e s).1.resolutions.lookup e.2.id = none ∧
      ∀ j, s.resolutions.lookup j = none → (stopQuery e s).1.resolutions.lookup j = none := by
  unfold stopQuery
  split
  · next hr => exact ⟨⟨h, rfl, fun _ => rfl⟩, hr, fun _ hj => hj⟩
  refine ⟨⟨h.erase hno, rfl, fun q => ?_⟩, ?_, fun j hj => ?_⟩
  · cases q <;> rfl
  · simp [answer]
  · simp [answer, hj]

theorem stopQueries_sound {l : List (Sigma fun _ : Nat => Query)} (h : Inv timed held s)
    (hno : ∀ e ∈ l, ∀ i p, s.queries.lookup i = some p → p.id ≠ e.2.id) :
    (Inv timed held (forEach stopQuery l s).1 ∧ (forEach stopQuery l s).1.queries = s.queries ∧
      ∀ q, (forEach stopQuery l s).1.queue q = s.queue q) ∧
      ∀ e ∈ l, (forEach stopQuery l s).1.resolutions.lookup e.2.id = none :=
  forEach_each (I := fun t => Inv timed held t ∧ t.queries = s.queries ∧ ∀ q, t.queue q = s.queue q)
    ⟨h, rfl, fun _ => rfl⟩ fun e he t ⟨ht, hw, hq⟩ => by
      obtain ⟨⟨ht', hw', hq'⟩, hgone, hkeeps⟩ := stopQuery_sound ht e (hw ▸ hno e he)
      exact ⟨⟨ht', hw'.trans hw, fun q => (hq' q).trans (hq q)⟩, hgone, fun e => hkeeps e.2.id⟩

theorem stopResolvingQueues_sound (h : Inv timed held s) (stopping : VpnDnsResolverQueue → Bool) :
    Inv timed held (stopResolvingQueues stopping s).1 ∧
      (∀ q, stopping q = true → (stopResolvingQueues stopping s).1.queue q = []) ∧
      ∀ i p, (stopResolvingQueues stopping s).1.queries.lookup i = some p → stopping p.queueKind = false := by
  obtain ⟨h₁, hq₁⟩ := stopQueue_sound h stopping .background
  obtain ⟨h₂, hq₂⟩ := stopQueue_sound h₁ stopping .foreground
  unfold stopResolvingQueues
  simp only [andDo_fst]
  have hempty : ∀ q, stopping q = true →
      (stopQueue stopping .foreground (stopQueue stopping .background s).1).1.queue q = [] := by
    intro q hstop
    rw [hq₂]
    split
    · rfl
    next hne =>
    rw [hq₁]
    cases q with
    | background => rw [if_pos ⟨rfl, hstop⟩]
    | foreground => exact absurd ⟨rfl, hstop⟩ hne
  generalize (stopQueue stopping .foreground (stopQueue stopping .background s).1).1 = t at h₂ hempty
  obtain ⟨l, hl⟩ : ∃ l, l = t.queries.entries.filter fun e => stopping e.2.queueKind := ⟨_, rfl⟩
  rw [← hl]
  have hmem : ∀ i p, ⟨i, p⟩ ∈ l ↔ t.queries.lookup i = some p ∧ stopping p.queueKind = true := by
    intro i p
    rw [hl, mem_filter]
    exact and_congr_left fun _ => AList.mem_lookup_iff.symm
  obtain ⟨hlook, hq, hd, hreq⟩ := eraseAll_spec l t
  obtain ⟨hres, hn⟩ := eraseAll_resolutions l t
  -- the queries that are left are of the other queues
  have hleft : ∀ i p, (l.foldl (fun s e => s.eraseQuery e.1) t).queries.lookup i = some p →
      t.queries.lookup i = some p ∧ stopping p.queueKind = false := by
    intro i p hp
    obtain ⟨hp, hnot⟩ := (hlook i p).mp hp
    refine ⟨hp, ?_⟩
    by_contra hstop
    exact hnot ⟨i, p⟩ ((hmem i p).mpr ⟨hp, by simpa using hstop⟩) rfl
  have hbusy : Inv timed (fun j => held j ∨ ∃ e ∈ l, e.2.id = j) (l.foldl (fun s e => s.eraseQuery e.1) t) := by
    refine (h₂.release fun j _ _ hj => .inl hj).fewerQueries hn hres
      (congrArg₂ (· ++ ·) (hq .background) (hq .foreground)) hd hreq
      (fun i p hp => (hleft i p hp).1) fun i p hp hheld => ?_
    refine (hlook i p).mpr ⟨hp, ?_⟩
    rintro ⟨i', p'⟩ he rfl
    obtain ⟨hp', -⟩ := (hmem _ p').mp he
    rw [hp] at hp'
    cases hp'
    exact hheld (.inr ⟨_, he, rfl⟩)
  have hno : ∀ e ∈ l, ∀ i p, (l.foldl (fun s e => s.eraseQuery e.1) t).queries.lookup i = some p →
    p.id ≠ e.2.id := by
    rintro ⟨j, e⟩ he i p hp heq
    obtain ⟨hp, hstop⟩ := hleft i p hp
    obtain ⟨he, hstop'⟩ := (hmem j e).mp he
    rw [h₂.kind i j p e hp he heq, hstop'] at hstop
    cases hstop
  obtain ⟨⟨h₃, hqueries, hqueue⟩, hgone⟩ := stopQueries_sound hbusy hno
  refine ⟨h₃.release ?_, fun q hstop => ?_, fun i p hp => ?_⟩
  · rintro j x hx (hj | ⟨e, he, rfl⟩)
    · exact hj
    · rw [hgone e he] at hx
      cases hx
  · rw [hqueue q, hq q]
    exact hempty q hstop
  · rw [hqueries] at hp
    exact (hleft i p hp).2

theorem inv_of_silent (hbound : ∀ j r, s.resolutions.lookup j = some r → j < s.nextId)
    (hid : s.nextRequestId < 65536) (hleft : ∀ j r, s.resolutions.lookup j = some r → held j)
    (hq : s.queued = []) (hw : s.queries = ∅) (hd : s.deadlines = []) : Inv timed held s := by
  have hnoq : ∀ i p, s.queries.lookup i = some p → False := fun i p hp => by
    rw [hw] at hp
    cases hp
  have hnone : ∀ j, j ∉ s.queued := fun j hj => by
    rw [hq] at hj
    cases hj
  exact ⟨hbound, fun j hj => (hnone j hj).elim, hq ▸ nodup_nil, hid, fun j hj => (hnone j hj).elim,
    fun i p hp => (hnoq i p hp).elim, fun _ _ _ i _ _ p hp => (hnoq i p hp).elim,
    fun i _ p _ hp => (hnoq i p hp).elim, fun j r hj _ hheld => (hheld (hleft j r hj)).elim, fun _ =>
      hd ▸ nodup_nil⟩

theorem closeConnection_sound (h : Inv timed held s) (id : Option Nat) (async : Bool) :
    Inv timed held (s.closeConnection id async).1 := by
  unfold closeConnection
  split
  · exact h
  · split
    · exact h.agree ⟨rfl, rfl, rfl, rfl, rfl, rfl⟩
    · exact inv_of_silent nofun h.requestId nofun rfl rfl rfl

theorem stopResolving_sound (h : Inv timed held s) : Inv timed held s.stopResolving.1 := by
  obtain ⟨h₁, hqueue, hqueries⟩ := stopResolvingQueues_sound h fun _ => true
  unfold stopResolving
  simp only [andDo_fst]
  generalize (stopResolvingQueues (fun _ => true) s).1 = t at h₁ hqueue hqueries
  -- what was worked on has no query left, and so it is gone
  have hleft : ∀ j r, t.resolutions.lookup j = some r → held j := by
    intro j r hj
    by_contra hheld
    have hnot : j ∉ t.queued := by
      rw [show t.queued = t.queue .background ++ t.queue .foreground from rfl, hqueue _ rfl, hqueue _ rfl]
      exact nofun
    obtain ⟨hsome, hall⟩ := h₁.awaited j r hj hnot hheld
    obtain ⟨u, hu⟩ := RecordTypeSet.exists_test hsome
    obtain ⟨i, p, -, -, hp, -⟩ := hall u hu
    cases hqueries i p hp
  split
  · exact inv_of_silent h₁.bound h₁.requestId hleft rfl rfl rfl
  · rw [closeConnection, if_neg (fun hne => hne rfl)]
    exact inv_of_silent nofun h₁.requestId nofun rfl rfl rfl

/-! ## Runs -/

def Call.SendsWith (P : Env → Prop) : Call → Prop
  | .send env _ _ | .deferredResolve env | .deferredAccept env | .periodicQueriesCheck env _ => P env
  | _ => True

theorem Inv.step (h : Inv timed held s) {e : Call} (he : e.SendsWith fun env => ReadyFor timed held env s) :
    Inv timed held (s.step e).1 := by
  cases e with
  | resolve q name types => exact resolve_sound h q name types
  | cancel id => exact cancel_sound h id
  | stopResolvingQueues stopping => exact (stopResolvingQueues_sound h stopping).1
  | stopResolving => exact stopResolving_sound h
  | completeConnectRequest id pass =>
    simp only [VpnDnsResolver.step, completeConnectRequest]
    split
    · exact h
    · split
      · exact closeConnection_sound h _ _
      · exact h.agree ⟨rfl, rfl, rfl, rfl, rfl, rfl⟩
  | closeConnection id async => exact closeConnection_sound h _ _
  | send env connectionId reply =>
    have hagree : Agree s { s with connectionTimeoutTask := true } := ⟨rfl, rfl, rfl, rfl, rfl, rfl⟩
    simp only [VpnDnsResolver.step, VpnDnsResolver.send]
    split
    · exact h.agree hagree
    · split
      · exact h.agree hagree
      · exact receive_sound (h.agree hagree) (ReadyFor.shrinks he hagree.shrinks) _ _
  | deferredResolve env =>
    have hagree : Agree s { s with deferredResolveTask := false } := ⟨rfl, rfl, rfl, rfl, rfl, rfl⟩
    simp only [VpnDnsResolver.step]
    split
    · exact resolvePendingDomains_sound (h.agree hagree) (ReadyFor.shrinks he hagree.shrinks)
    · exact h
  | deferredAccept env =>
    have hagree : Agree s { s with deferredAcceptTask := false, connectionAccepted := true } :=
      ⟨rfl, rfl, rfl, rfl, rfl, rfl⟩
    simp only [VpnDnsResolver.step]
    split
    · exact resolvePendingDomains_sound (h.agree hagree) (ReadyFor.shrinks he hagree.shrinks)
    · exact h
  | deferredClose | connectionTimeout =>
    simp only [VpnDnsResolver.step]
    split
    · refine closeConnection_sound ?_ _ _
      exact h.agree ⟨rfl, rfl, rfl, rfl, rfl, rfl⟩
    · exact h
  | periodicQueriesCheck env now =>
    simp only [VpnDnsResolver.step]
    split
    · exact onPeriodicQueriesCheck_sound h he
    · exact h

/-- The ids a call may draw, two for each queued entry, are recorded in no resolution of the table and have no
deadline left. -/
def Unshared (lost : Nat → Prop) (s : VpnDnsResolver) (e : Call) : Prop :=
  e.SendsWith fun env => ReadyFor True lost env s

/-- What the entry should leave of the query table when its request for the type has been tried. -/
def ownTable (s : VpnDnsResolver) (query : Query) (o : Sending) (i : Nat) : Option Query :=
  if o = .sent ∧ i = s.nextRequestId then some query else s.queries.lookup i

theorem lookup_sendQuery_iff {t : RecordType} (hr : s.resolutions.lookup id = some r)
    (ht : r.recordTypes.test t = true) :
    (∀ o i, (sendQuery { env with send := fun _ _ => o } q id t s).1.queries.lookup i =
      s.ownTable ⟨id, t, r.name, q⟩ o i) ↔ s.queries.lookup s.nextRequestId = none := by
  constructor
  · intro h
    have hkept := h .refused s.nextRequestId
    simpa [sendQuery, hr, ht, ownTable, eraseQuery] using hkept.symm
  intro h o i
  cases o with
  | unencoded => simp [sendQuery, hr, ht, ownTable, takeRequestId]
  | refused =>
    simp only [sendQuery, hr, ht, eraseQuery, ownTable, Map.lookup_erase_eq, Map.lookup_emplace_eq,
      Bool.not_true, reduceCtorEq, false_and, if_false]
    split
    · next heq => rw [heq, h]
    · rfl
  | sent => simp [sendQuery, hr, ht, ownTable, recordSent, takeRequestId, h]

/-- In every run whose calls draw unshared ids the tables fit together: a query on the wire is that of the
resolution and type that recorded it, it has a deadline of its own, and what was sent for a resolution stays
on the wire until it is settled. A draw changes nothing but its own entry if and only if its id is not on the
wire. -/
theorem draws_own (lost : Nat → Prop) (es : List Call) :
    (resolver.Meets (Unshared lost) initial es → Inv True lost (resolver.exec initial es)) ∧
    ∀ (env : Env) q id t (s : VpnDnsResolver) r, s.resolutions.lookup id = some r → r.recordTypes.test t = true →
      ((∀ o i, (sendQuery { env with send := fun _ _ => o } q id t s).1.queries.lookup i =
        s.ownTable ⟨id, t, r.name, q⟩ o i) ↔ s.queries.lookup s.nextRequestId = none) := by
  refine ⟨fun hm => ?_, fun env q id t s r hr ht => lookup_sendQuery_iff hr ht⟩
  refine resolver.inv_run (J := fun _ s => Inv True lost s) ?_ (fun _ s e h he => h.step he) es hm
  exact inv_of_silent nofun (by decide) nofun rfl rfl rfl

/-- A resolution asks for one address, and its request comes out as given. -/
def asks (o : Sending) : List Call :=
  [.resolve .foreground [] ⟨true, false⟩, .deferredResolve ⟨fun _ _ => o, fun _ => 0, 5000⟩]

def askedFirst : List Call :=
  asks .sent ++ [.completeConnectRequest 1 true, .deferredAccept ⟨fun _ _ => .sent, fun _ => 0, 5000⟩]

/-- The request of a resolution that recorded nothing yet is sent under the first id. -/
theorem draws_own_first : Inv True (fun _ => False) (resolver.exec initial askedFirst) ∧
      ∀ i, (sendQuery ⟨fun _ _ => .refused, fun _ => 0, 5000⟩ .foreground 0 .a
        (initial.resolve .foreground [] ⟨true, false⟩)).1.queries.lookup i = none := by
  have hready : ∀ s : VpnDnsResolver, s.resolutions = Map.emplace ∅ 0 ⟨[], ⟨true, false⟩,
    [], fun _ => none⟩ →
      s.queued = [0] → s.deadlines = [] →
        ReadyFor True (fun _ => False) ⟨fun _ _ => .sent, fun _ => 0, 5000⟩ s := by
    intro s hres hq hd
    refine ⟨fun _ _ _ _ _ _ _ => rfl, ⟨by rw [hq]; decide, fun k _ j r t hr => ?_⟩, fun _ k _ d hd' => ?_⟩
    · rw [hres, Map.lookup_emplace_new rfl] at hr
      split at hr
      · cases hr
        exact nofun
      · cases hr
    · rw [hd] at hd'
      cases hd'
  have hrun := (draws_own (fun _ => False) askedFirst).1
    ⟨trivial, hready _ rfl rfl rfl, trivial, hready _ rfl rfl rfl, trivial⟩
  have hdraw := (draws_own (fun _ => False) []).2 ⟨fun _ _ => .sent, fun _ => 0, 5000⟩ .foreground 0 .a
    (initial.resolve .foreground [] ⟨true, false⟩) ⟨[], ⟨true, false⟩, [], fun _ => none⟩ rfl rfl
  exact ⟨hrun, fun i => hdraw.mpr rfl .refused i⟩

def asked : Map Nat Query := (resolver.exec initial askedFirst).queries

/-- The first request is on the wire, and nothing is queued. -/
structure Waits (n : Nat) (s : VpnDnsResolver) : Prop where
  background : s.background = []
  foreground : s.foreground = []
  connectionId : s.connectionId = some 1
  accepted : s.connectionAccepted = true
  absent : ∀ j, s.nextId ≤ j → s.resolutions.lookup j = none
  queries : s.queries = asked
  next : s.nextRequestId = n % 65536

theorem Waits.exec_asks {n : Nat} {s : VpnDnsResolver} (h : Waits n s) :
    Waits (n + 1) (resolver.exec s (asks .unencoded)) ∧
      (resolver.exec s (asks .refused)).queries.lookup (n % 65536) = none := by
  obtain ⟨nextId, resolutions, background, foreground, connectionId, accepted, queries, _, _, _, _, _,
    _, _, next⟩ := s
  obtain ⟨rfl, rfl, rfl, rfl, habsent, rfl, rfl⟩ := h
  have hnew : resolutions.lookup nextId = none := habsent nextId le_rfl
  have hsize : asked.size < 18446744073709551615 := by decide
  simp [asks, System.exec, resolver, step, resolve, setQueue, queue, resolvePendingDomains, resolveQueue,
    resolveEntry, sendQuery, resolveCapacity, RecordTypeSet.test, RecordTypeSet.none, takeRequestId, eraseQuery,
    hnew, hsize]
  refine ⟨rfl, rfl, rfl, rfl, fun j hj => ?_, rfl, rfl⟩
  rw [Map.lookup_emplace_new hnew, if_neg (Nat.ne_of_gt hj)]
  exact habsent j (Nat.le_of_succ_le hj)

theorem waits_run (n : Nat) :
    Waits (n + 2) (resolver.exec initial (askedFirst ++ (List.replicate n (asks .unencoded)).flatten)) := by
  rw [System.exec_append]
  have h : Waits 2 (resolver.exec initial askedFirst) := by
    refine ⟨rfl, rfl, rfl, rfl, fun j hj => ?_, rfl, rfl⟩
    have hkeys : (resolver.exec initial askedFirst).resolutions.keys = [0] := by decide
    have hj : 1 ≤ j := hj
    rw [AList.lookup_eq_none, AList.mem_keys, hkeys, mem_singleton]
    omega
  induction n with
  | zero => exact h
  | succ n ih =>
    rw [replicate_succ', flatten_append, System.exec_append]
    exact ih.exec_asks.1

theorem refused_erases_other :
    let es := askedFirst ++ (List.replicate 65535 (asks .unencoded)).flatten
    (resolver.exec initial es).queries.lookup 1 = some ⟨0, .a, [], .foreground⟩ ∧
      (resolver.exec initial (es ++ asks .refused)).queries.lookup 1 = none := by
  have h := waits_run 65535
  refine ⟨by rw [h.queries]; rfl, ?_⟩
  rw [System.exec_append]
  exact h.exec_asks.2

end VpnDnsResolver

end TrustTunnel.Dns
