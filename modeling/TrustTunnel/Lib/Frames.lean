import Mathlib.Data.List.Basic

/-!
# Lib.Frames

Buffers that are parsed from the front, item by item, until what is left is too short.

A `Framing` looks at the front of a buffer: an item and the rest, not enough yet, or an error.
`drain` takes items off until the framing wants more or fails.

* `drain_append` — input that arrives behind a drained buffer goes on from what was left.
* `drain_append_failed` — a failed buffer stays failed and gives no further item.
* `drain_flatten` — encodings of items, one after the other, drain to those items.
-/

namespace TrustTunnel.Lib

/-- What stands at the front of a buffer. -/
inductive Front (α β : Type) where
  | more
  | bad
  | item (a : α) (rest : List β)

structure Framing (α β : Type) where
  next : List β → Front α β
  progress : ∀ {d a r}, next d = .item a r → r.length < d.length
  item_append : ∀ {d a r} (e : List β), next d = .item a r → next (d ++ e) = .item a (r ++ e)
  bad_append : ∀ {d} (e : List β), next d = .bad → next (d ++ e) = .bad

/-- The items taken off a buffer, whether the framing had no objection, and what is left. -/
structure Drained (α β : Type) where
  items : List α
  ok : Bool
  rest : List β

def Drained.cons {α β : Type} (a : α) (r : Drained α β) : Drained α β :=
  { r with items := a :: r.items }

def Drained.after {α β : Type} (l : List α) (r : Drained α β) : Drained α β :=
  { r with items := l ++ r.items }

namespace Framing

variable {α β : Type} (F : Framing α β)

def drainLoop : Nat → List β → Drained α β
  | 0, d => ⟨[], true, d⟩
  | n + 1, d =>
    match F.next d with
    | .more => ⟨[], true, d⟩
    | .bad => ⟨[], false, d⟩
    | .item a r => (drainLoop n r).cons a

/-- Every item takes something off, so there are no more items than elements. -/
def drain (d : List β) : Drained α β := F.drainLoop (d.length + 1) d

theorem drainLoop_eq_drain (n : Nat) (d : List β) (h : d.length < n) : F.drainLoop n d = F.drain d := by
  induction n using Nat.strongRecOn generalizing d with
  | _ n ih =>
    obtain ⟨m, rfl⟩ : ∃ m, n = m + 1 := ⟨n - 1, by omega⟩
    unfold drain
    simp only [drainLoop]
    cases hn : F.next d with
    | more | bad => rfl
    | item a r =>
      have hr := F.progress hn
      have hleft : F.drainLoop m r = F.drain r := ih m (by omega) r (by omega)
      have hright : F.drainLoop d.length r = F.drain r := by
        by_cases hm : d.length = m
        · rw [hm, hleft]
        · exact ih d.length (by omega) r hr
      simp [hleft, hright]

theorem drain_more {d : List β} (h : F.next d = .more) : F.drain d = ⟨[], true, d⟩ := by
  simp [drain, drainLoop, h]

theorem drain_bad {d : List β} (h : F.next d = .bad) : F.drain d = ⟨[], false, d⟩ := by
  simp [drain, drainLoop, h]

theorem drain_item {d r : List β} {a : α} (h : F.next d = .item a r) : F.drain d = (F.drain r).cons a := by
  rw [drain, drainLoop, h]
  simp [F.drainLoop_eq_drain d.length r (F.progress h)]

/-- What is left after draining is not enough for an item, or it is in error. -/
theorem next_rest (d : List β) : F.next (F.drain d).rest = if (F.drain d).ok then .more else .bad := by
  induction hn : d.length using Nat.strongRecOn generalizing d with
  | _ n ih =>
    cases hd : F.next d with
    | more => simp [F.drain_more hd, hd]
    | bad => simp [F.drain_bad hd, hd]
    | item a r =>
      have hr := F.progress hd
      rw [F.drain_item hd]
      exact ih r.length (by omega) r rfl

theorem drain_append {d : List β} (h : (F.drain d).ok = true) (e : List β) :
    F.drain (d ++ e) = (F.drain ((F.drain d).rest ++ e)).after (F.drain d).items := by
  induction hn : d.length using Nat.strongRecOn generalizing d with
  | _ n ih =>
    cases hd : F.next d with
    | more => simp [F.drain_more hd, Drained.after]
    | bad => simp [F.drain_bad hd] at h
    | item a r =>
      have hr := F.progress hd
      rw [F.drain_item hd] at h ⊢
      rw [F.drain_item (F.item_append e hd), ih r.length (by omega) h rfl]
      rfl

theorem drain_append_failed {d : List β} (h : (F.drain d).ok = false) (e : List β) :
    F.drain (d ++ e) = ⟨(F.drain d).items, false, (F.drain d).rest ++ e⟩ := by
  induction hn : d.length using Nat.strongRecOn generalizing d with
  | _ n ih =>
    cases hd : F.next d with
    | more => simp [F.drain_more hd] at h
    | bad => simp [F.drain_bad hd, F.drain_bad (F.bad_append e hd)]
    | item a r =>
      have hr := F.progress hd
      rw [F.drain_item hd] at h ⊢
      rw [F.drain_item (F.item_append e hd), ih r.length (by omega) h rfl]
      rfl

theorem drain_flatten {encode : α → List β} {l : List α}
    (h : ∀ a ∈ l, ∀ e, F.next (encode a ++ e) = .item a e) (e : List β) :
    F.drain ((l.map encode).flatten ++ e) = (F.drain e).after l := by
  induction l with
  | nil => simp [Drained.after]
  | cons a l ih =>
    have hnext := h a (by simp) ((l.map encode).flatten ++ e)
    rw [List.map_cons, List.flatten_cons, List.append_assoc, F.drain_item hnext, ih fun b hb => h b (by simp [hb])]
    rfl

end Framing

end TrustTunnel.Lib
