import Mathlib.Data.List.Basic

/-!
# Lib.Multimap

Multimaps ordered by their keys, as sorted lists. A new entry comes behind those with the same key.
An iterator is the entry it points to, or `none` at the end.
-/

namespace TrustTunnel.Lib

namespace Multimap

variable {β : Type} {m m' m'' : List (Nat × β)} {k k' : Nat} {v : β}

/-- The entries are in the order of their keys. -/
def Sorted (m : List (Nat × β)) : Prop := m.Pairwise fun a b => a.1 ≤ b.1

def emplace (m : List (Nat × β)) (k : Nat) (v : β) : List (Nat × β) :=
  match m with
  | [] => [(k, v)]
  | e :: m => if e.1 ≤ k then e :: emplace m k v else (k, v) :: e :: m

/-- The first entry behind the key `k`. -/
def upperBound (m : List (Nat × β)) (k : Nat) : Option (Nat × β) := m.find? fun e => k < e.1

theorem emplace_perm (m : List (Nat × β)) (k : Nat) (v : β) : (emplace m k v).Perm ((k, v) :: m) := by
  induction m with
  | nil => exact .refl _
  | cons a m ih =>
    rw [emplace]
    split
    · exact (ih.cons a).trans (.swap _ _ _)
    · exact .refl _

@[simp] theorem mem_emplace {e : Nat × β} : e ∈ emplace m k v ↔ e = (k, v) ∨ e ∈ m := by
  rw [(emplace_perm m k v).mem_iff, List.mem_cons]

theorem Sorted.emplace (h : Sorted m) : Sorted (emplace m k v) := by
  induction m with
  | nil => simp [Sorted, Multimap.emplace]
  | cons a m ih =>
    obtain ⟨ha, hm⟩ := List.pairwise_cons.mp h
    rw [Multimap.emplace]
    split_ifs with hle
    · refine List.pairwise_cons.mpr ⟨fun e he => ?_, ih hm⟩
      rcases mem_emplace.mp he with rfl | he
      · exact hle
      · exact ha e he
    · refine List.pairwise_cons.mpr ⟨fun e he => ?_, h⟩
      rcases List.mem_cons.mp he with rfl | he
      · exact Nat.le_of_not_le hle
      · exact Nat.le_trans (Nat.le_of_not_le hle) (ha e he)

theorem upperBound_mem {e : Nat × β} (h : e ∈ upperBound m k) : e ∈ m ∧ k < e.1 :=
  ⟨List.mem_of_find?_eq_some h, by simpa using List.find?_some h⟩

theorem upperBound_none (h : upperBound m k = none) : ∀ e ∈ m, e.1 ≤ k := fun e he =>
  Nat.le_of_not_lt (by simpa using List.find?_eq_none.mp h e he)

/-- The loop over the entries before `stop`, for at most so many. A pass is given the first entry and the
others. -/
def sweep {σ : Type} [DecidableEq β] (entries : σ → List (Nat × β)) (pass : σ → Nat × β →
    List (Nat × β) → σ)
    (stop : Option (Nat × β)) : Nat → σ → σ
  | 0, s => s
  | n + 1, s =>
    match entries s with
    | [] => s
    | e :: rest => if some e = stop then s else sweep entries pass stop n (pass s e rest)

/-! ## What is before an iterator -/

/-- The entries of `m` before `stop` are `due`. -/
def Until (m due : List (Nat × β)) (stop : Option (Nat × β)) : Prop :=
  ∃ rest, m = due ++ rest ∧ rest.head? = stop

theorem until_upperBound (m : List (Nat × β)) (k : Nat) :
    ∃ due, Until m due (upperBound m k) ∧ ∀ e ∈ due, e.1 ≤ k := by
  induction m with
  | nil => exact ⟨[], ⟨[], rfl, rfl⟩, nofun⟩
  | cons a m ih =>
    by_cases ha : k < a.1
    · refine ⟨[], ⟨a :: m, rfl, ?_⟩, nofun⟩
      rw [upperBound, List.find?_cons_of_pos (by simpa using ha)]
      rfl
    · obtain ⟨due, ⟨rest, rfl, hstop⟩, hdue⟩ := ih
      refine ⟨a :: due, ⟨rest, rfl, ?_⟩, List.forall_mem_cons.mpr ⟨Nat.le_of_not_lt ha, hdue⟩⟩
      rw [hstop, upperBound, upperBound, List.find?_cons_of_neg (by simpa using ha)]

theorem Until.emplace {due : List (Nat × β)} {e : Nat × β} (h : Until m due (some e))
    (hdue : ∀ d ∈ due, d.1 ≤ k) (he : e.1 ≤ k) : Until (emplace m k v) due (some e) := by
  obtain ⟨rest, rfl, hrest⟩ := h
  induction due with
  | nil =>
    obtain ⟨rest, rfl⟩ := List.head?_eq_some_iff.mp hrest
    refine ⟨e :: Multimap.emplace rest k v, ?_, rfl⟩
    rw [List.nil_append, List.nil_append, Multimap.emplace, if_pos he]
  | cons d due ih =>
    obtain ⟨hd, hdue⟩ := List.forall_mem_cons.mp hdue
    obtain ⟨rest', heq, hrest'⟩ := ih hdue
    refine ⟨rest', ?_, hrest'⟩
    rw [List.cons_append, Multimap.emplace, if_pos hd, heq, List.cons_append]

/-- `m'` is `m` with new entries, none of them before the key `k`. -/
inductive Grown (k : Nat) (m : List (Nat × β)) : List (Nat × β) → Prop
  | refl : Grown k m m
  | emplace {m' : List (Nat × β)} {k' : Nat} {v : β} : Grown k m m' → k ≤ k' → Grown k m (emplace m' k' v)

theorem Grown.trans (h : Grown k m m') (h' : Grown k' m' m'') (hk : k ≤ k') : Grown k m m'' := by
  induction h' with
  | refl => exact h
  | emplace _ hle ih => exact ih.emplace (Nat.le_trans hk hle)

theorem Grown.mem (h : Grown k m m') {e : Nat × β} (he : e ∈ m') : e ∈ m ∨ k ≤ e.1 := by
  induction h with
  | refl => exact .inl he
  | emplace _ hle ih =>
    rcases mem_emplace.mp he with rfl | he
    · exact .inr hle
    · exact ih he

theorem Grown.subset (h : Grown k m m') : m ⊆ m' := by
  induction h with
  | refl => exact List.Subset.refl _
  | emplace _ _ ih => exact fun e he => mem_emplace.mpr (.inr (ih he))

theorem Grown.until {due : List (Nat × β)} {e : Nat × β} (h : Grown k m m') (hu : Until m due (some e))
    (hdue : ∀ d ∈ due, d.1 ≤ k) (he : e.1 ≤ k) : Until m' due (some e) := by
  induction h with
  | refl => exact hu
  | emplace _ hle ih => exact ih.emplace (fun d hd => Nat.le_trans (hdue d hd) hle) (Nat.le_trans he hle)

section Sweep

variable {σ : Type} [DecidableEq β] {entries : σ → List (Nat × β)} {pass : σ → Nat × β →
    List (Nat × β) → σ}
  {stop : Option (Nat × β)} {P : σ → Prop}

/-- A loop up to `stop`: what the passes keep, and that each leaves the entries before `stop`. -/
theorem sweep_until {due : List (Nat × β)} (hstop : ∀ e ∈ stop, k < e.1)
    (hpass : ∀ s e due rest, P s → entries s = e :: rest → Until rest due stop →
    (∀ d ∈ e :: due, d.1 ≤ k) →
      P (pass s e rest) ∧ Until (entries (pass s e rest)) due stop)
    (hdue : ∀ e ∈ due, e.1 ≤ k) (n : Nat) (hn : due.length ≤ n) (s : σ) (hs : P s)
    (hu : Until (entries s) due stop) :
    P (sweep entries pass stop n s) ∧ Until (entries (sweep entries pass stop n s)) [] stop := by
  induction due generalizing n s with
  | nil =>
    have hend : sweep entries pass stop n s = s := by
      obtain ⟨rest, heq, hrest⟩ := hu
      cases n with
      | zero => rfl
      | succ n =>
        rw [sweep, heq, ← hrest]
        cases rest <;> simp
    rw [hend]
    exact ⟨hs, hu⟩
  | cons e due ih =>
    obtain ⟨rest, heq, hrest⟩ := hu
    obtain ⟨n, rfl⟩ := Nat.exists_eq_add_of_le' (Nat.lt_of_lt_of_le (Nat.succ_pos _) hn)
    have hne : some e ≠ stop := fun he =>
      Nat.not_lt_of_le (hdue e (by simp)) (hstop e (by rw [← he]; exact rfl))
    obtain ⟨hP, hu'⟩ := hpass s e due (due ++ rest) hs heq ⟨rest, rfl, hrest⟩ hdue
    rw [sweep, heq]
    simp only [List.cons_append, if_neg hne]
    exact ih (fun d hd => hdue d (by simp [hd])) n (by simpa using hn) _ hP hu'

theorem sweep_keeps (hpass : ∀ s e rest, P s → entries s = e :: rest → P (pass s e rest)) (n : Nat) (s : σ)
    (hs : P s) : P (sweep entries pass stop n s) := by
  induction n generalizing s with
  | zero => exact hs
  | succ n ih =>
    rw [sweep]
    split
    · exact hs
    · rename_i e rest heq
      split_ifs
      · exact hs
      · exact ih _ (hpass s e rest hs heq)

end Sweep

end Multimap

end TrustTunnel.Lib
