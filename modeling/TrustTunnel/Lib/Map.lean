import Mathlib.Data.List.AList

/-!
# Lib.Map

Finite maps with an iteration order, as `AList` gives them, with the operations of a hash map:
`emplace` keeps an entry that is there, `modify` changes a value in its place.

The `lookup_…_eq` lemmas describe an operation by the lookups after it; all of them are `simp`.
-/

namespace TrustTunnel.Lib

open List

abbrev Map (κ β : Type) := AList fun _ : κ => β

namespace Map

variable {κ β : Type} [DecidableEq κ]

/-- Insert, unless the key is there. -/
def emplace (m : Map κ β) (k : κ) (v : β) : Map κ β :=
  if (m.lookup k).isSome then m else m.insert k v

/-- Change the value of `k`, if there is one. -/
def modify (m : Map κ β) (k : κ) (f : β → β) : Map κ β :=
  match m.lookup k with
  | some v => m.replace k (f v)
  | none => m

def size (m : Map κ β) : Nat := m.entries.length

/-- The values, in the order of iteration. -/
def values (m : Map κ β) : List β := m.entries.map Sigma.snd

@[simp]
theorem lookup_insert_eq (m : Map κ β) (k j : κ) (v : β) :
    (m.insert k v).lookup j = if j = k then some v else m.lookup j := by
  split_ifs with h
  · subst h
    exact AList.lookup_insert m
  · exact AList.lookup_insert_ne h

variable {m : Map κ β} {v : β}

/-- Putting a value back moves its entry to the front and changes no lookup. -/
theorem lookup_reinsert {k : κ} (h : m.lookup k = some v) (j : κ) : (m.insert k v).lookup j = m.lookup j := by
  rw [lookup_insert_eq]
  split_ifs with hj
  · rw [hj, h]
  · rfl

@[simp]
theorem lookup_erase_eq (m : Map κ β) (k j : κ) : (m.erase k).lookup j = if j = k then none else m.lookup j := by
  split_ifs with h
  · subst h
    exact AList.lookup_erase j m
  · exact AList.lookup_erase_ne h

theorem of_lookup_erase {k j : κ} (h : (m.erase k).lookup j = some v) : j ≠ k ∧ m.lookup j = some v := by
  rw [lookup_erase_eq] at h
  split at h
  · cases h
  · exact ⟨‹_›, h⟩

@[simp]
theorem lookup_emplace_eq (m : Map κ β) (k j : κ) (v : β) :
    (m.emplace k v).lookup j = if j = k then some ((m.lookup k).getD v) else m.lookup j := by
  unfold emplace
  cases hk : m.lookup k with
  | none => simp
  | some w =>
    simp only [Option.isSome_some, if_true, Option.getD_some]
    split_ifs with h
    · rw [h, hk]
    · rfl

theorem lookup_emplace_new {k : κ} (hk : m.lookup k = none) (v : β) (j : κ) :
    (m.emplace k v).lookup j = if j = k then some v else m.lookup j := by
  rw [lookup_emplace_eq, hk]
  rfl

theorem dlookup_kreplace (l : List (Sigma fun _ : κ => β)) (k j : κ) (v : β) : (l.kreplace k v).dlookup j
      = if j = k ∧ k ∈ l.keys then some v else l.dlookup j := by
  induction l with
  | nil => simp [List.kreplace]
  | cons e l ih =>
    obtain ⟨i, w⟩ := e
    by_cases hi : k = i
    · subst hi
      have hrep : List.kreplace k v (⟨k, w⟩ :: l) = ⟨k, v⟩ :: l :=
        lookmap_cons_some _ _ (by simp)
      rw [hrep]
      by_cases hj : j = k
      · subst hj; simp
      · simp [hj]
    · have hrep : List.kreplace k v (⟨i, w⟩ :: l) = ⟨i, w⟩ :: List.kreplace k v l :=
        lookmap_cons_none _ _ (by simp [hi])
      rw [hrep]
      by_cases hj : j = i
      · subst hj
        have hjk : ¬ j = k := fun h => hi h.symm
        simp [hjk]
      · rw [dlookup_cons_ne (List.kreplace k v l) ⟨i, w⟩ hj, dlookup_cons_ne l ⟨i, w⟩ hj, ih]
        simp [hi]

@[simp]
theorem lookup_modify_eq (m : Map κ β) (k j : κ) (f : β → β) :
    (m.modify k f).lookup j = if j = k then (m.lookup k).map f else m.lookup j := by
  unfold modify
  cases hk : m.lookup k with
  | none =>
    simp only [Option.map_none]
    split
    · rename_i h; rw [h, hk]
    · rfl
  | some w =>
    have hmem : k ∈ m.entries.keys := by
      rw [← dlookup_isSome]
      exact Option.isSome_iff_exists.mpr ⟨w, hk⟩
    have := dlookup_kreplace m.entries k j (f w)
    simpa [AList.lookup, AList.replace, hmem] using this

/-- A value after `modify` comes from the one at the same key before it. -/
theorem of_lookup_modify {k j : κ} {f : β → β} (h : (m.modify k f).lookup j = some v) :
    ∃ w, m.lookup j = some w ∧ v = if j = k then f w else w := by
  rw [lookup_modify_eq] at h
  split_ifs at h with hj
  · obtain ⟨w, hw, rfl⟩ := Option.map_eq_some_iff.mp h
    exact ⟨w, by rw [hj]; exact hw, (if_pos hj).symm⟩
  · exact ⟨v, h, (if_neg hj).symm⟩

@[simp]
theorem keys_modify (m : Map κ β) (k : κ) (f : β → β) : (m.modify k f).keys = m.keys := by
  unfold modify
  split
  · exact AList.keys_replace _ _ _
  · rfl

omit [DecidableEq κ] in
theorem size_eq_keys (m : Map κ β) : m.size = m.keys.length := by
  simp [size, AList.keys, List.keys]

theorem mem_values : v ∈ m.values ↔ ∃ k, m.lookup k = some v := by
  simp only [values, mem_map]
  constructor
  · rintro ⟨⟨k, w⟩, hmem, rfl⟩
    exact ⟨k, AList.mem_lookup_iff.mpr hmem⟩
  · rintro ⟨k, hk⟩
    exact ⟨⟨k, v⟩, AList.mem_lookup_iff.mp hk, rfl⟩

/-- Values that are at one key each are listed once each. -/
theorem nodup_values (h : ∀ j k v, m.lookup j = some v → m.lookup k = some v → j = k) : m.values.Nodup := by
  refine List.Nodup.map_on ?_ m.nodupKeys.nodup
  rintro ⟨j, v⟩ hj ⟨k, w⟩ hk (rfl : v = w)
  have hjk := h j k v (AList.mem_lookup_iff.mpr hj) (AList.mem_lookup_iff.mpr hk)
  rw [hjk]

@[simp]
theorem size_modify (m : Map κ β) (k : κ) (f : β → β) : (m.modify k f).size = m.size := by
  rw [size_eq_keys, size_eq_keys, keys_modify]

end Map

/-! ## Taking an entry out -/

section Extract

variable {κ β : Type} [DecidableEq κ]

/-- The first entry at the key `k` and the entries without it. -/
def extract (k : κ) : List (κ × β) → Option (β × List (κ × β))
  | [] => none
  | e :: l => if e.1 = k then some (e.2, l) else (extract k l).map fun r => (r.1, e :: r.2)

variable {k : κ} {l l' : List (κ × β)} {v : β}

theorem extract_perm (h : extract k l = some (v, l')) : l.Perm ((k, v) :: l') := by
  induction l generalizing l' with
  | nil => cases h
  | cons e l ih =>
    rw [extract] at h
    split at h
    · next hk =>
      obtain ⟨rfl, rfl⟩ : e.2 = v ∧ l = l' := by simpa using h
      rw [← hk]
    · obtain ⟨⟨w, r⟩, hr, heq⟩ := Option.map_eq_some_iff.mp h
      obtain ⟨rfl, rfl⟩ : w = v ∧ e :: r = l' := by simpa using heq
      exact ((ih hr).cons e).trans (List.Perm.swap _ _ _)

theorem mem_of_extract (h : extract k l = some (v, l')) : (k, v) ∈ l :=
  (extract_perm h).symm.subset mem_cons_self

theorem extract_eq_none : extract k l = none ↔ k ∉ l.map Prod.fst := by
  induction l with
  | nil => simp [extract]
  | cons e l ih =>
    rw [extract]
    split
    · next hk => simp [hk]
    · next hk =>
      rw [Option.map_eq_none_iff, ih]
      simp [Ne.symm hk]

theorem extract_other {j : κ} (h : extract k l = some (v, l')) (hj : j ≠ k) :
    (extract j l').map Prod.fst = (extract j l).map Prod.fst := by
  induction l generalizing l' with
  | nil => cases h
  | cons e l ih =>
    rw [extract] at h
    split at h
    · next hk =>
      obtain ⟨rfl, rfl⟩ : e.2 = v ∧ l = l' := by simpa using h
      rw [extract, if_neg (by rw [hk]; exact Ne.symm hj), Option.map_map]
      rfl
    · next hk =>
      obtain ⟨⟨w, r⟩, hr, heq⟩ := Option.map_eq_some_iff.mp h
      obtain ⟨rfl, rfl⟩ : w = v ∧ e :: r = l' := by simpa using heq
      rw [extract, extract]
      split
      · rfl
      · rw [Option.map_map, Option.map_map]
        exact ih hr

end Extract

end TrustTunnel.Lib
