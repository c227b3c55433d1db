import Mathlib.Data.Nat.Basic

/-!
# Lib.Search

Binary search for the end of the leading part of a row of positions, and where it ends.
-/

namespace TrustTunnel.Lib

variable (low : Nat → Bool)

/-- A window of `count` positions from `first` on, halved until it is empty. -/
def searchFrom (first count : Nat) : Nat :=
  if count = 0 then first
  else if low (first + count / 2) then searchFrom (first + count / 2 + 1) (count - (count / 2 + 1))
  else searchFrom first (count / 2)
termination_by count

def upperBound (count : Nat) : Nat := searchFrom low 0 count

variable (count : Nat) (hlow : ∀ i j, i < j → low j = true → low i = true)
include hlow

theorem lt_searchFrom_iff (first : Nat) (hbelow : ∀ i < first, low i = true)
    (habove : ∀ i, first + count ≤ i → low i = false) (i : Nat) :
    i < searchFrom low first count ↔ low i = true := by
  fun_induction searchFrom low first count with
  | case1 first =>
    constructor
    · exact hbelow i
    · intro hi
      by_contra hle
      simp [habove i (by omega)] at hi
  | case2 first count hc hmid ih =>
    refine ih (fun j hj => ?_) fun j hj => habove j (by omega)
    rcases Nat.lt_succ_iff_lt_or_eq.mp hj with hj | rfl
    · exact hlow j _ hj hmid
    · exact hmid
  | case3 first count hc hmid ih =>
    refine ih hbelow fun j hj => Bool.eq_false_iff.mpr fun h => hmid ?_
    rcases Nat.lt_or_eq_of_le hj with hj | rfl
    · exact hlow _ j hj h
    · exact h

theorem lt_upperBound_iff (habove : ∀ i, count ≤ i → low i = false) (i : Nat) :
    i < upperBound low count ↔ low i = true :=
  lt_searchFrom_iff low count hlow 0 (fun _ h => absurd h (Nat.not_lt_zero _)) (by simpa using habove) i

end TrustTunnel.Lib
