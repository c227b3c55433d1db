import TrustTunnel.Upstream.Mux

/-!
# Upstream.Choice

Which upstream is chosen for a connection, and with that all that opening a session or a connection
can do.
-/

namespace TrustTunnel.Upstream

open Lib

namespace Mux

/-! ## The choice of an upstream -/

theorem lighter_some (m : Mux) (best : Option Nat) (u : Nat) :
    m.lighter best u = some u ∨ (m.lighter best u = best ∧ best ≠ none) := by
  cases best with
  | none => exact .inl rfl
  | some b =>
    simp only [lighter]
    split
    · exact .inl rfl
    · exact .inr ⟨rfl, by simp⟩

theorem leastLoaded_foldl (m : Mux) (ids : List Nat) (best : Option Nat) :
    (ids.foldl m.lighter best = none → best = none ∧ ids = []) ∧
      ∀ u, ids.foldl m.lighter best = some u → best = some u ∨ u ∈ ids := by
  induction ids generalizing best with
  | nil => exact ⟨fun h => ⟨h, rfl⟩, fun u h => .inl h⟩
  | cons i ids ih =>
    obtain ⟨hnone, hsome⟩ := ih (m.lighter best i)
    constructor
    · intro h
      have hbest := (hnone h).1
      rcases lighter_some m best i with hi | ⟨hi, hne⟩
      · rw [hi] at hbest; cases hbest
      · exact absurd (hi ▸ hbest) hne
    · intro u h
      rcases hsome u h with hu | hu
      · rcases lighter_some m best i with hi | ⟨hi, -⟩
        · rw [hi] at hu; cases hu; exact .inr (by simp)
        · exact .inl (hi ▸ hu)
      · exact .inr (List.mem_cons_of_mem i hu)

variable {m : Mux} {u : Nat}

theorem leastLoaded_none {ids : List Nat} (h : m.leastLoaded ids = none) : ids = [] :=
  ((leastLoaded_foldl m ids none).1 h).2

theorem leastLoaded_mem {ids : List Nat} (h : m.leastLoaded ids = some u) : u ∈ ids := by
  rcases (leastLoaded_foldl m ids none).2 u h with hu | hu
  · cases hu
  · exact hu

theorem selectExistingUpstream_mem {ignored : Option Nat} {allow : Bool}
    (h : m.selectExistingUpstream ignored allow = some u) : u ∈ m.pool.keys := by
  have hothers : u ∈ m.pool.keys.filter (fun u => ignored != some u) := by
    unfold selectExistingUpstream at h
    dsimp only at h
    split at h
    · rename_i v hv
      cases h
      exact List.mem_of_find?_eq_some hv
    · split at h
      · exact leastLoaded_mem h
      · cases h
  exact (List.mem_filter.mp hothers).1

theorem selectExistingUpstream_none (h : m.selectExistingUpstream none false = none) :
    m.pool.size ≠ defaultUpstreamsNum := by
  intro hfull
  unfold selectExistingUpstream at h
  dsimp only at h
  split at h
  · cases h
  simp only [hfull] at h
  have hnil := leastLoaded_none h
  have hkeys : m.pool.keys = [] := by
    have hall : m.pool.keys.filter (fun u => none != some u) = m.pool.keys :=
      List.filter_eq_self.mpr fun _ _ => rfl
    rw [← hall, hnil]
  rw [Map.size_eq_keys, hkeys] at hfull
  cases hfull

theorem lookup_isSome_of_mem_keys (h : u ∈ m.pool.keys) : (m.pool.lookup u).isSome := AList.lookup_isSome.mpr h

theorem select_fresh (h : (m.pool.lookup m.selectUpstreamForConnection.1).isNone) :
    m.pool.size ≠ defaultUpstreamsNum := by
  unfold selectUpstreamForConnection at h
  split at h
  · rename_i u hu
    have := lookup_isSome_of_mem_keys (selectExistingUpstream_mem hu)
    simp_all
  · rename_i hnone
    exact selectExistingUpstream_none hnone

theorem select_state (m : Mux) : ∃ n, m.selectUpstreamForConnection.2 = { m with nextUpstreamId := n } := by
  unfold selectUpstreamForConnection
  split
  · exact ⟨m.nextUpstreamId, rfl⟩
  · exact ⟨m.nextUpstreamId + 1, rfl⟩

/-! ## The two calls -/

theorem lookup_of_empty (h : m.pool.entries = []) (u : Nat) : m.pool.lookup u = none := by
  simp [AList.lookup, h]

theorem openSession_cases (m : Mux) (timeout : Option Nat) (r : Replies) :
    (∃ n, (m.openSession timeout r).1 = { m with nextUpstreamId := n }) ∨
    (∃ u n, m.pool.entries = [] ∧ (m.openSession timeout r).2 = [.asked u (.openSession timeout), .opened true] ∧
      (m.openSession timeout r).1 =
        { m with nextUpstreamId := n, pool := m.pool.insert u ⟨.openingSession, []⟩ }) := by
  obtain ⟨n, hn⟩ := select_state m
  unfold openSession
  split_ifs with hempty
  · generalize m.selectUpstreamForConnection = sel at hn
    obtain ⟨u, m1⟩ := sel
    subst hn
    cases r.openSession with
    | true => exact .inr ⟨u, n, by simpa using hempty, rfl, rfl⟩
    | false => exact .inl ⟨n, rfl⟩
  · exact .inl ⟨m.nextUpstreamId, rfl⟩

theorem openConnection_cases (m : Mux) (request : Request) (r : Replies) :
    m.openConnection request r = (m, [.returned nonId]) ∨ ∃ n, m.pool.entries ≠ [] ∧ m.nextConnId ≠ nonId ∧
      -- the state after the ids were taken
      let m2 := { m with nextUpstreamId := n, nextConnId := m.nextConnId + 1 }
      ((∃ u asked, (m.pool.lookup u).isSome ∧ (∀ o ∈ asked, ∃ v c, o = .asked v c) ∧
          let res := m2.openConnectionOn u m.nextConnId request (r.openConnection m.nextConnId)
          m.openConnection request r =
            (res.2.1, asked ++ res.2.2 ++ [.returned (if res.1 then m.nextConnId else nonId)])) ∨
        (∃ u, m.pool.lookup u = none ∧ m.pool.size ≠ defaultUpstreamsNum ∧ m.openConnection request r =
            ({ m2 with
                pool := m.pool.insert u ⟨.openingSession, []⟩
                pending := m.pending.emplace m.nextConnId ⟨u, request⟩ },
              [.asked u (.openSession none), .returned m.nextConnId])) ∨
        (∃ asked, (∀ o ∈ asked, ∃ v c, o = .asked v c) ∧
          m.openConnection request r = (m2, asked ++ [.returned nonId]))) := by
  obtain ⟨n, hn⟩ := select_state m
  have hfresh := select_fresh (m := m)
  unfold openConnection
  split_ifs with hgo
  · exact .inl rfl
  simp only [Bool.or_eq_true, List.isEmpty_iff, beq_iff_eq, not_or] at hgo
  refine .inr ⟨n, hgo.1, hgo.2, ?_⟩
  generalize m.selectUpstreamForConnection = sel at hn hfresh
  obtain ⟨u, m1⟩ := sel
  simp only at hn hfresh
  subst hn
  dsimp only
  split
  · rename_i hu
    exact .inl ⟨u, [], hu, by simp, rfl⟩
  rename_i hu
  have hnone : m.pool.lookup u = none := by simpa using hu
  cases hs : r.openSession with
  | true => exact .inr (.inl ⟨u, hnone, hfresh (by simp [hnone]), rfl⟩)
  | false =>
    simp only [openNewUpstream, Bool.false_eq_true, if_false]
    split
    · rename_i v hv
      refine .inl ⟨v, [.asked u (.openSession none)],
        lookup_isSome_of_mem_keys (selectExistingUpstream_mem hv), ?_, rfl⟩
      simp
    · exact .inr (.inr ⟨[.asked u (.openSession none)], by simp, rfl⟩)

end Mux
end TrustTunnel.Upstream
