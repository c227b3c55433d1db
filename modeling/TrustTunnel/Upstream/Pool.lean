import Mathlib.Tactic.IntervalCases
import TrustTunnel.Upstream.Choice

/-!
# Upstream.Pool

How many upstreams the pool can hold.
-/

namespace TrustTunnel.Upstream

open Lib List

namespace Mux

/-! ## What each operation does to the size of the pool -/

open Map

theorem size_insert_le (m : Mux) (u : Nat) (info : UpstreamInfo) : size (m.pool.insert u info) ≤ m.pool.size + 1 := by
  rw [size_eq_keys, size_eq_keys, AList.keys_insert, length_cons]
  have := length_erase_le (a := u) (l := m.pool.keys)
  omega

theorem size_erase_le (m : Mux) (u : Nat) : size (m.pool.erase u) ≤ m.pool.size := by
  rw [size_eq_keys, size_eq_keys, AList.keys_erase]
  exact length_erase_le

theorem size_reinsert {m : Mux} {u : Nat} {info : UpstreamInfo} (h : m.pool.lookup u = some info) :
    size (m.pool.insert u info) = m.pool.size := by
  have hmem : u ∈ m.pool.keys := by
    rw [← AList.mem_keys, ← AList.lookup_isSome, h]
    rfl
  rw [size_eq_keys, size_eq_keys, AList.keys_insert, length_cons, length_erase_of_mem hmem]
  have := length_pos_of_mem hmem
  omega

theorem size_openConnectionOn (m : Mux) (u : Nat) (id : ConnId) (request : Request) (ok : Bool) :
    (m.openConnectionOn u id request ok).2.1.pool.size = m.pool.size := by
  unfold openConnectionOn
  split
  · rfl
  split
  · rfl
  · split
    · exact size_modify _ _ _
    · rfl

theorem size_childReports (m : Mux) (u : Nat) (fault : ConnId → Option VpnError) :
    (m.childReports u fault).1.pool.size = m.pool.size := by
  unfold childReports
  split
  · rfl
  rename_i info _
  have hloop : (forEach (reportConnection fault) info.connections m).1.pool.size = m.pool.size :=
    forEach_state (I := fun s : Mux => s.pool.size = m.pool.size) rfl fun _ _ _ h => h
  simpa [andDo] using hloop

open Nat

theorem size_closeUpstream (m : Mux) (u : Nat) : (m.closeUpstream u).1.pool.size ≤ m.pool.size := by
  have := size_erase_le m u
  unfold closeUpstream
  split
  · exact le_refl _
  dsimp only
  split
  · exact this
  · split
    · exact this
    · exact this

theorem size_fallBack (m : Mux) (id : ConnId) (request : Request) (r : Replies) :
    (m.fallBack id request r).1.pool.size = m.pool.size := by
  unfold fallBack
  split
  · rfl
  rename_i v _
  have hsecond := size_openConnectionOn m v id request (r.fallback id)
  split
  all_goals
    rename_i h
    rw [h] at hsecond
    exact hsecond

section

variable (m : Mux) (u : Nat)
include m u

theorem size_proceedPendingConnection (id : ConnId) (request : Request)
    (r : Replies) : (m.proceedPendingConnection u id request r).1.pool.size = m.pool.size := by
  have hfirst := size_openConnectionOn m u id request (r.openConnection id)
  unfold proceedPendingConnection
  split
  · rename_i part h
    rw [h] at hfirst
    exact hfirst
  · rename_i part h
    rw [h] at hfirst
    exact (size_fallBack part.1 id request r).trans hfirst

theorem size_childOpened (r : Replies) : (m.childOpened u r).1.pool.size = m.pool.size := by
  refine forEach_state (I := fun s : Mux => s.pool.size = m.pool.size) ?_ ?_
  · exact size_modify _ _ _
  · intro e _ s hs
    exact (size_proceedPendingConnection s u e.1 e.2.request r).trans hs

theorem size_childClosed : (m.childClosed u).1.pool.size ≤ m.pool.size := by
  have hloop : (forEach refusePending (m.pendingOf u) m).1.pool.size = m.pool.size :=
    forEach_state (I := fun s : Mux => s.pool.size = m.pool.size) rfl fun _ _ _ h => h
  exact le_trans (size_closeUpstream _ u) (le_of_eq hloop)

theorem size_closeChild (fault : ConnId → Option VpnError) :
    (andDo (childCloseSession u fault m) (closeUpstream u)).1.pool.size ≤ m.pool.size :=
  le_trans (size_closeUpstream _ u) (le_of_eq (size_childReports m u fault))

theorem size_childFailed (e : VpnError) (r : Replies) : (m.childFailed u e r).1.pool.size ≤ m.pool.size := by
  unfold childFailed
  split
  · exact forEach_state (I := fun s : Mux => s.pool.size ≤ m.pool.size) (le_refl _)
      fun v _ s hs => le_trans (size_closeChild s v r.fault) hs
  · exact size_closeChild m u r.fault

theorem size_childUpstreamHandler (what : ServerEvent) (r : Replies) :
    (m.childUpstreamHandler u what r).1.pool.size ≤ m.pool.size := by
  have hforget : ∀ id, (m.forgetConnection u id).pool.size = m.pool.size := fun id =>
    size_modify _ _ _
  unfold childUpstreamHandler
  split
  · exact le_refl _
  split
  · exact le_of_eq (size_childOpened m u r)
  · exact size_childClosed m u
  · exact le_of_eq (hforget _)
  · split
    · exact le_of_eq (hforget _)
    · exact size_childFailed m u _ r
  all_goals exact le_refl _

end

/-! ## The bound that is kept -/

section

variable {m : Mux} (h : m.pool.size ≤ defaultUpstreamsNum)
include h

theorem size_openSession (timeout : Option Nat) (r : Replies) :
    (m.openSession timeout r).1.pool.size ≤ defaultUpstreamsNum := by
  rcases openSession_cases m timeout r with ⟨n, heq⟩ | ⟨u, n, hempty, -, heq⟩
  · rw [heq]
    exact h
  have hins := size_insert_le m u ⟨.openingSession, []⟩
  have hzero : m.pool.size = 0 := by simp [Map.size, hempty]
  rw [hzero] at hins
  rw [heq]
  exact le_trans hins (by decide)

theorem size_openConnection (request : Request) (r : Replies) :
    (m.openConnection request r).1.pool.size ≤ defaultUpstreamsNum := by
  rcases openConnection_cases m request r with heq | ⟨n, -, -, hcases⟩
  · rw [heq]
    exact h
  rcases hcases with ⟨u, asked, -, -, heq⟩ | ⟨u, -, hsize, heq⟩ | ⟨asked, -, heq⟩
  · rw [heq]
    exact le_trans (le_of_eq (size_openConnectionOn _ u _ request _)) h
  · have hins := size_insert_le m u ⟨.openingSession, []⟩
    rw [heq]
    simp only
    omega
  · rw [heq]
    exact h

theorem size_step (c : Call) : (m.step c).1.pool.size ≤ defaultUpstreamsNum := by
  cases c with
  | openSession timeout r => exact size_openSession h timeout r
  | closeSession r => exact zero_le _
  | openConnection request r => exact size_openConnection h request r
  | closeConnection id graceful async =>
    simp only [step, closeConnection]
    split
    · exact h
    · split
      · exact h
      · exact h
  | child u what r =>
    cases what with
    | sessionClosed =>
      exact le_trans (size_childUpstreamHandler _ u .sessionClosed r)
        (le_trans (le_of_eq (size_childReports m u r.fault)) h)
    | _ => exact le_trans (size_childUpstreamHandler m u _ r) h
  | otherIds upstreams connections => exact h
  | reorderPool u =>
    simp only [step]
    split
    · rename_i info hu
      exact le_trans (le_of_eq (size_reinsert hu)) h
    · exact h
  | reorderPending id =>
    simp only [step]
    split
    · exact h
    · exact h

end

theorem pool_size_run (upstreamsNum : Nat) (calls : List Call) :
    ((system upstreamsNum).exec (init upstreamsNum) calls).pool.size ≤ defaultUpstreamsNum :=
  (system upstreamsNum).inv_exec (I := fun m => m.pool.size ≤ defaultUpstreamsNum)
    (zero_le _) (fun _ c h => size_step h c) calls

/-! ## A run that fills the pool -/

def burst (n : Nat) : List Call :=
  .openSession none allAccepted :: List.replicate n (.openConnection anyRequest allAccepted)

theorem burst_pool_size (upstreamsNum : Nat) (h : upstreamsNum < 8) :
    ((system upstreamsNum).exec (init upstreamsNum) (burst 36)).pool.size = 8 := by
  interval_cases upstreamsNum <;> decide +kernel

/-- The pool keeps to the configured number in every run exactly when that is at least the default
number. -/
theorem pool_size_le_max_iff (upstreamsNum : Nat) :
    (∀ calls, ((system upstreamsNum).exec (init upstreamsNum) calls).pool.size
      ≤ (init upstreamsNum).maxUpstreamsNum) ↔ defaultUpstreamsNum ≤ (init upstreamsNum).maxUpstreamsNum := by
  constructor
  · intro h
    by_cases hn : upstreamsNum < 8
    · have := h (burst 36)
      rw [burst_pool_size upstreamsNum hn] at this
      exact this
    · have hmax : (init upstreamsNum).maxUpstreamsNum = upstreamsNum := by
        simp only [init]
        rw [if_neg (by omega)]
      rw [defaultUpstreamsNum]
      omega
  · intro h calls
    exact le_trans (pool_size_run upstreamsNum calls) h

/-- Configured for one upstream, the sixth waiting connection opens a second. -/
theorem one_upstream_exceeded :
    (init 1).maxUpstreamsNum = 1 ∧ ((system 1).exec (init 1) (burst 6)).pool.size = 2 := by
  decide +kernel

end Mux
end TrustTunnel.Upstream
