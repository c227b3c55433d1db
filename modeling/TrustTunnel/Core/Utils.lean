import Mathlib.Data.List.Pairwise
import TrustTunnel.Lib.Search

/-!
# Core.Utils

Two helpers of the core: the set of ports the tunnel may scan, and the partition that
`vpn_abandon_endpoint` uses.
-/

namespace TrustTunnel

open Lib List

/-! ## `PortRangeSet` -/

structure PortRange where
  start : UInt16
  finish : UInt16

def PortRange.Covers (r : PortRange) (port : UInt16) : Prop := r.start ≤ port ∧ port ≤ r.finish

def Covered (rs : List PortRange) (port : UInt16) : Prop := ∃ r ∈ rs, r.Covers port

def PortRange.le (a b : PortRange) : Bool :=
  a.start < b.start || (a.start == b.start && a.finish ≤ b.finish)

structure PortRangeSet where
  ranges : List PortRange

namespace PortRangeSet

def larger (a b : UInt16) : UInt16 := if a < b then b else a

/-- The body of the constructor's loop; the last range is the first of the list. -/
def merge (ranges : List PortRange) (r : PortRange) : List PortRange :=
  if r.start > r.finish then ranges
  else
    match ranges with
    | [] => [r]
    | back :: rest =>
      if r.start.toNat > back.finish.toNat + 1 then r :: back :: rest
      else { back with finish := larger back.finish r.finish } :: rest

def new (ranges : List PortRange) : PortRangeSet :=
  ⟨((ranges.mergeSort PortRange.le).foldl merge []).reverse⟩

def contains (s : PortRangeSet) (port : UInt16) : Bool :=
  match upperBound (fun i => s.ranges[i]?.any (·.start ≤ port)) s.ranges.length with
  | 0 => false
  | i + 1 => s.ranges[i]?.any (port ≤ ·.finish)

variable {ranges rest : List PortRange} {back r : PortRange} {port : UInt16}

/-- Ranges apart from each other, the last one first. -/
def Apart (ranges : List PortRange) : Prop :=
  ranges.Pairwise fun a b => b.start ≤ a.start ∧ b.finish < a.start

theorem covered_cons : Covered (r :: rest) port ↔ r.Covers port ∨ Covered rest port := by
  simp [Covered]

theorem covers_join (hstart : back.start ≤ r.start) (hr : r.start.toNat ≤ back.finish.toNat + 1) :
    PortRange.Covers { back with finish := larger back.finish r.finish } port ↔
      back.Covers port ∨ r.Covers port := by
  simp only [PortRange.Covers, larger, UInt16.le_iff_toNat_le, UInt16.lt_iff_toNat_lt] at *
  split
  · omega
  · omega

section Step

variable (hle : ∀ a ∈ ranges, a.start ≤ r.start)
include hle

theorem apart_merge (h : Apart ranges) : Apart (merge ranges r) ∧ ∀ a ∈ merge ranges r, a.start ≤ r.start := by
  unfold merge
  split
  · exact ⟨h, hle⟩
  split
  · simp [Apart]
  rename_i back rest
  obtain ⟨hback, hrest⟩ := pairwise_cons.mp h
  have hstart := hle back (by simp)
  split_ifs with hgap
  · refine ⟨pairwise_cons.mpr ⟨fun b hb => ⟨hle b hb, ?_⟩, h⟩, by simpa using hle⟩
    rw [UInt16.lt_iff_toNat_lt]
    rcases mem_cons.mp hb with rfl | hb
    · omega
    · exact UInt16.lt_of_lt_of_le (hback b hb).2 hstart
  · exact ⟨pairwise_cons.mpr ⟨hback, hrest⟩, by simpa using hle⟩

theorem covered_merge : Covered (merge ranges r) port ↔ Covered ranges port ∨ r.Covers port := by
  unfold merge
  split
  · rename_i hinv
    have : ¬ r.Covers port := fun hc => absurd hinv (UInt16.not_lt.mpr (UInt16.le_trans hc.1 hc.2))
    simp [this]
  split
  · rw [covered_cons, or_comm]
  · split
    · rw [covered_cons, or_comm]
    · rw [covered_cons, covered_cons, covers_join (hle _ (by simp)) (by omega), or_right_comm]

end Step

theorem foldl_merge (port : UInt16) (h : Apart ranges) (hrest : rest.Pairwise fun a b => a.start ≤ b.start)
    (hle : ∀ a ∈ ranges, ∀ r ∈ rest, a.start ≤ r.start) : Apart (rest.foldl merge ranges) ∧
      (Covered (rest.foldl merge ranges) port ↔ Covered ranges port ∨ Covered rest port) := by
  induction rest generalizing ranges with
  | nil => simp [h, Covered]
  | cons r rest ih =>
    obtain ⟨hr, hrest⟩ := pairwise_cons.mp hrest
    have hle' := fun a ha => hle a ha r (by simp)
    obtain ⟨hm, hstart⟩ := apart_merge hle' h
    have := ih hm hrest fun a ha b hb => UInt16.le_trans (hstart a ha) (hr b hb)
    rwa [covered_merge hle', or_assoc, ← covered_cons] at this

theorem contains_new : (new ranges).contains port = true ↔ ∃ r ∈ ranges, r.Covers port := by
  have hsorted : (ranges.mergeSort PortRange.le).Pairwise fun a b => a.start ≤ b.start :=
    (pairwise_mergeSort (by grind [PortRange.le]) (by grind [PortRange.le]) ranges).imp
      (by grind [PortRange.le])
  obtain ⟨hapart, hcovers⟩ := foldl_merge port .nil hsorted (by simp)
  unfold contains new
  generalize (ranges.mergeSort PortRange.le).foldl merge [] = rs at hapart hcovers
  have hrs : Covered rs.reverse port ↔ ∃ r ∈ ranges, r.Covers port := by
    simpa [Covered] using hcovers
  rw [← hrs]
  replace hapart := pairwise_iff_getElem.mp (pairwise_reverse.mpr hapart)
  generalize rs.reverse = rs at hapart
  have hfound := lt_upperBound_iff (fun i => rs[i]?.any (·.start ≤ port)) rs.length ?_
    fun i hi => by simp [getElem?_eq_none hi]
  · dsimp only
    generalize upperBound _ _ = k at hfound
    cases k with
    | zero =>
      simp only [Bool.false_eq_true, false_iff]
      rintro ⟨r, hr, hc⟩
      obtain ⟨i, hi, rfl⟩ := getElem_of_mem hr
      exact absurd ((hfound i).mpr (by simp [hi, hc.1])) (by omega)
    | succ k =>
      have hk := (hfound k).mp (by omega)
      simp only [Option.any_eq_true, List.getElem?_eq_some_iff, decide_eq_true_eq] at hk hfound ⊢
      obtain ⟨-, ⟨hlen, rfl⟩, hstart⟩ := hk
      constructor
      · rintro ⟨_, ⟨_, rfl⟩, hle⟩
        exact ⟨rs[k], by simp, hstart, hle⟩
      rintro ⟨r, hr, hc⟩
      obtain ⟨i, hi, rfl⟩ := getElem_of_mem hr
      rcases Nat.lt_succ_iff_lt_or_eq.mp ((hfound i).mpr ⟨_, ⟨hi, rfl⟩, hc.1⟩) with hlt | rfl
      · have := UInt16.lt_of_lt_of_le (hapart i k hi hlen hlt).2 hstart
        exact absurd hc.2 (UInt16.not_le.mpr this)
      · exact ⟨_, ⟨hi, rfl⟩, hc.2⟩
  · intro i j hij hj
    simp only [Option.any_eq_true, List.getElem?_eq_some_iff, decide_eq_true_eq] at hj ⊢
    obtain ⟨-, ⟨hlen, rfl⟩, hstart⟩ := hj
    exact ⟨_, ⟨by omega, rfl⟩, UInt16.le_trans (hapart i j _ hlen hij).1 hstart⟩

end PortRangeSet

/-! ## `swap_remove_if` -/

section Partition

variable {α : Type} (p : α → Bool)

def swap (l : List α) (i j : Nat) : List α :=
  match l[i]?, l[j]? with
  | some x, some y => (l.set i y).set j x
  | _, _ => l

def sweep : List α → Nat → Nat → Nat → List α × Nat
  | l, begin, _, 0 => (l, begin)
  | l, begin, i, n + 1 =>
    if l[i]?.any p then sweep l begin (i + 1) n else sweep (swap l begin i) (begin + 1) (i + 1) n

/-- The elements rearranged, and the position of the iterator that is returned. -/
def swapRemoveIf (l : List α) : List α × Nat :=
  let begin := l.findIdx p
  if begin = l.length then (l, begin) else sweep p l begin (begin + 1) (l.length - (begin + 1))

theorem swap_eq (kept tail : List α) (d x : α) (ds : List α) :
    swap (kept ++ d :: ds ++ x :: tail) kept.length (kept.length + (d :: ds).length) =
      kept ++ x :: ds ++ d :: tail := by
  simp [swap]

theorem sweep_eq (kept removed rest : List α) (hne : removed ≠ []) :
    ∃ tail, sweep p (kept ++ removed ++ rest) kept.length (kept.length + removed.length) rest.length =
        (kept ++ rest.filter (!p ·) ++ tail, (kept ++ rest.filter (!p ·)).length) ∧
      tail.Perm (removed ++ rest.filter p) := by
  induction rest generalizing kept removed with
  | nil => exact ⟨removed, by simp [sweep], by simp⟩
  | cons x rest ih =>
    have hx : (kept ++ removed ++ x :: rest)[kept.length + removed.length]? = some x := by
      simp
    rw [length_cons, sweep, hx]
    cases hp : p x with
    | true =>
      obtain ⟨tail, heq, hperm⟩ := ih kept (removed ++ [x]) (by simp)
      refine ⟨tail, ?_, ?_⟩
      · simpa [hp, Nat.add_assoc] using heq
      · simpa [hp] using hperm
    | false =>
      obtain ⟨d, ds, rfl⟩ := exists_cons_of_ne_nil hne
      obtain ⟨tail, heq, hperm⟩ := ih (kept ++ [x]) (ds ++ [d]) (by simp)
      refine ⟨tail, ?_, hperm.trans ?_⟩
      · rw [Option.any_some, hp, if_neg (by simp), swap_eq]
        simpa [hp, Nat.add_assoc, Nat.add_comm 1] using heq
      · rw [filter_cons_of_neg (by simp [hp])]
        exact Perm.append_right _ perm_append_comm

theorem swapRemoveIf_spec (l : List α) : (swapRemoveIf p l).1.take (swapRemoveIf p l).2 = l.filter (!p ·) ∧
      ((swapRemoveIf p l).1.drop (swapRemoveIf p l).2).Perm (l.filter p) := by
  -- what `find_if` walks past, in front of what is left
  suffices h : ∀ kept : List α, (∀ x ∈ kept, p x = false) →
      (swapRemoveIf p (kept ++ l)).1.take (swapRemoveIf p (kept ++ l)).2 = kept ++ l.filter (!p ·) ∧
        ((swapRemoveIf p (kept ++ l)).1.drop (swapRemoveIf p (kept ++ l)).2).Perm (l.filter p) from
    h [] (by simp)
  induction l with
  | nil =>
    intro kept hkept
    have hnone : kept.findIdx p = kept.length := findIdx_eq_length.mpr hkept
    simp [swapRemoveIf, hnone]
  | cons x l ih =>
    intro kept hkept
    cases hp : p x with
    | false => simpa [hp] using ih (kept ++ [x]) (by simpa [or_imp, forall_and, hp] using hkept)
    | true =>
      have hidx : (kept ++ x :: l).findIdx p = kept.length := by
        simp [findIdx_append, findIdx_cons, hp, findIdx_eq_length.mpr hkept]
      obtain ⟨tail, heq, hperm⟩ := sweep_eq p kept [x] l (by simp)
      have hrun : swapRemoveIf p (kept ++ x :: l) =
          (kept ++ l.filter (!p ·) ++ tail, (kept ++ l.filter (!p ·)).length) := by
        have hn : (kept ++ x :: l).length - (kept.length + 1) = l.length := by simp; omega
        rw [← heq, swapRemoveIf, hidx, hn]
        simp
      rw [hrun, take_left, drop_left]
      simpa [hp] using hperm

end Partition

end TrustTunnel
