import Mathlib.Algebra.Ring.Int.Defs
import Mathlib.Algebra.Ring.Nat
import Mathlib.Data.List.Basic

/-!
# Lib.Access

Memory accesses with their bounds. A read names the bytes it may touch, a copy names the buffer it
goes to; an access outside of either is a `Violation` instead of a value.

* `readAt`, `slice` — one element, a range of elements.
* `blit` — a write into a buffer of fixed size.
* `memcpy` — a copy whose length was computed as a signed number.
* `slice_eq_ok`, `blit_eq_ok`, `memcpy_eq_ok` and `bounds_of_memcpy` say when an access is in bounds.
-/

namespace TrustTunnel.Lib

inductive Violation where
  | readPastEnd
  | writePastEnd
  | negativeLength
  deriving DecidableEq

namespace Access

variable {β : Type}

def readAt (b : List β) (i : Nat) : Except Violation β :=
  (b[i]?).elim (.error .readPastEnd) .ok

/-- The `n` elements from `i` on. -/
def slice (b : List β) (i n : Nat) : Except Violation (List β) :=
  if i + n ≤ b.length then .ok ((b.drop i).take n) else .error .readPastEnd

def blit (buf : List β) (i : Nat) (data : List β) : Except Violation (List β) :=
  if i + data.length ≤ buf.length then .ok (buf.take i ++ data ++ buf.drop (i + data.length))
  else .error .writePastEnd

/-- Copy `n` elements of `src` from `j` on to `buf` from `i` on. -/
def memcpy (buf : List β) (i : Nat) (src : List β) (j : Nat) (n : Int) : Except Violation (List β) :=
  if n < 0 then .error .negativeLength
  else do
    let data ← slice src j n.toNat
    blit buf i data

@[simp] theorem ok_bind {ε α γ : Type} (a : α) (f : α → Except ε γ) : (Except.ok a >>= f) = f a := rfl

theorem bind_eq_ok {ε α γ : Type} {x : Except ε α} {f : α → Except ε γ} {c : γ} :
    x >>= f = .ok c ↔ ∃ a, x = .ok a ∧ f a = .ok c := by
  cases x with
  | error e => simp [bind, Except.bind]
  | ok a => simp

/-- The rest only has to succeed on what the first part can give. -/
theorem exists_bind {ε α γ : Type} {x : Except ε α} {f : α → Except ε γ} {P : α → Prop}
    (hx : ∃ a, x = .ok a ∧ P a) (hf : ∀ a, P a → ∃ c, f a = .ok c) : ∃ c, x >>= f = .ok c := by
  obtain ⟨a, rfl, ha⟩ := hx
  exact hf a ha

variable {b buf : List β} {i n : Nat}

theorem readAt_eq_ok {v : β} (h : b[i]? = some v) : readAt b i = .ok v := by
  rw [readAt, h, Option.elim_some]

theorem slice_eq_ok (h : i + n ≤ b.length) : slice b i n = .ok ((b.drop i).take n) :=
  if_pos h

theorem length_slice (h : i + n ≤ b.length) : ((b.drop i).take n).length = n := by
  rw [List.length_take, List.length_drop]
  omega

theorem blit_eq_ok {data : List β} (h : i + data.length ≤ buf.length) :
    ∃ out, blit buf i data = .ok out ∧ out.length = buf.length := by
  refine ⟨_, if_pos h, ?_⟩
  simp only [List.length_append, List.length_take, List.length_drop]
  omega

theorem memcpy_eq_ok {src : List β} {j : Nat} (hsrc : j + n ≤ src.length) (hbuf : i + n ≤ buf.length) :
    ∃ out, memcpy buf i src j (n : Int) = .ok out ∧ out.length = buf.length := by
  have hfit : i + ((src.drop j).take n).length ≤ buf.length := by
    rw [length_slice hsrc]
    exact hbuf
  rw [memcpy, Int.toNat_natCast, slice_eq_ok hsrc]
  exact blit_eq_ok hfit

/-- A copy that stays in bounds has a length that is not negative and that its source has. -/
theorem bounds_of_memcpy {src out : List β} {j : Nat} {n : Int} (h : memcpy buf i src j n = .ok out) :
    0 ≤ n ∧ (j : Int) + n ≤ src.length := by
  unfold memcpy at h
  split at h
  · cases h
  obtain ⟨data, hdata, -⟩ := bind_eq_ok.mp h
  unfold slice at hdata
  split at hdata
  · omega
  · cases hdata

end Access

end TrustTunnel.Lib
