import Mathlib.Algebra.Ring.Int.Defs
import Mathlib.Algebra.Ring.Nat
import Mathlib.Data.List.Basic

/-!
# Lib.File

Files as byte lists, and file operations that may transfer less than they were asked for or fail.

* `readAt`, `writeAt` — a range of a file; `readAt_writeAt_self` and `readAt_writeAt_other` say what
  is read back.
* `Script` — how the next operations turn out. An operation past the end of the script is done.
* `transfer` — the loop that repeats reads or writes until everything is transferred.
* `encode`, `decode` — numbers as little-endian bytes.
-/

namespace TrustTunnel.Lib.File

open List

/-! ## Ranges -/

/-- The `n` bytes at `pos`, fewer at the end of the file. -/
def readAt (c : List UInt8) (pos n : Nat) : List UInt8 := (c.drop pos).take n

/-- Write `d` at `pos`; a gap behind the end of the file is filled with zeros. -/
def writeAt (c : List UInt8) (pos : Nat) (d : List UInt8) : List UInt8 :=
  c.take pos ++ List.replicate (pos - c.length) 0 ++ d ++ c.drop (pos + d.length)

theorem getElem?_readAt (f : List UInt8) (pos n i : Nat) :
    (readAt f pos n)[i]? = if i < n then f[pos + i]? else none := by
  rw [readAt, List.getElem?_take, List.getElem?_drop]

variable (c : List UInt8) (pos : Nat) (d : List UInt8)

theorem length_writeAt : (writeAt c pos d).length = max c.length (pos + d.length) := by
  simp only [writeAt, length_append, length_take, length_replicate, length_drop]
  omega

theorem getElem?_writeAt_inside {i : Nat} (hi : i < d.length) : (writeAt c pos d)[pos + i]? = d[i]? := by
  have hfront : (c.take pos ++ List.replicate (pos - c.length) 0).length = pos := by
    simp only [length_append, length_take, length_replicate]
    omega
  rw [writeAt, append_assoc _ d, List.getElem?_append_right (by omega), hfront,
    Nat.add_sub_cancel_left, List.getElem?_append_left hi]

theorem getElem?_writeAt_outside (f : List UInt8) (pos : Nat) (d : List UInt8) {i : Nat}
    (hi : i < f.length) (hout : i < pos ∨ pos + d.length ≤ i) : (writeAt f pos d)[i]? = f[i]? := by
  rw [writeAt]
  rcases hout with hlt | hge
  · rw [append_assoc, append_assoc, List.getElem?_append_left, List.getElem?_take, if_pos hlt]
    simp only [length_take]
    omega
  have hfront : (f.take pos ++ List.replicate (pos - f.length) 0 ++ d).length = pos + d.length := by
    simp only [length_append, length_take, length_replicate]
    omega
  rw [List.getElem?_append_right (by omega), List.getElem?_drop]
  congr 1
  omega

theorem readAt_writeAt_self : readAt (writeAt c pos d) pos d.length = d := by
  apply ext_getElem?
  intro i
  rw [getElem?_readAt]
  split
  · next hi => exact getElem?_writeAt_inside c pos d hi
  · next hi => exact (List.getElem?_eq_none (by omega)).symm

/-- A range of the file that the write does not touch reads as before. -/
theorem readAt_writeAt_other {at' n : Nat} (hin : at' + n ≤ c.length) (hout : at' + n ≤ pos ∨
    pos + d.length ≤ at') :
    readAt (writeAt c pos d) at' n = readAt c at' n := by
  apply ext_getElem?
  intro i
  rw [getElem?_readAt, getElem?_readAt]
  split
  · next hi => exact getElem?_writeAt_outside c pos d (by omega) (by omega)
  · rfl

/-! ## Operations that may fail -/

inductive Outcome (ε : Type) where
  | done
  | short (n : Nat)
  | failed (e : ε)

/-- How the next operations turn out, in order. -/
abbrev Script (ε : Type) := List (Outcome ε)

variable {ε : Type} (s : Script ε)

def Script.next : Script ε → Outcome ε × Script ε
  | [] => (.done, [])
  | o :: rest => (o, rest)

/-- An operation that transfers nothing: it fails or is done. -/
def Script.attempt : Option ε × Script ε :=
  match s.next with
  | (.failed e, rest) => (some e, rest)
  | (.done, rest) | (.short _, rest) => (none, rest)

@[simp] theorem next_nil : Script.next ([] : Script ε) = (.done, []) := rfl

@[simp] theorem attempt_nil : Script.attempt ([] : Script ε) = (none, []) := rfl

inductive Stop (ε : Type) where
  | nothing
  | failed (e : ε)

structure Transfer (ε : Type) where
  sizes : List Nat
  stop : Option (Stop ε)
  script : Script ε

def Transfer.total (t : Transfer ε) : Nat := t.sizes.sum

def Outcome.limit (n : Nat) : Outcome ε → Nat
  | .done => n
  | .short k => min k n
  | .failed _ => 0

/-- Transfer `n` bytes of which `avail` are there, one operation after the other. A pass transfers at
least one byte, so there are at most `fuel = n` of them. -/
def transferLoop : Nat → Script ε → Nat → Nat → Transfer ε
  | 0, s, _, _ => ⟨[], none, s⟩
  | fuel + 1, s, avail, n =>
    if n = 0 then ⟨[], none, s⟩
    else
      match s.next with
      | (.failed e, rest) => ⟨[], some (.failed e), rest⟩
      | (o, rest) =>
        let r := min (o.limit n) avail
        if r = 0 then ⟨[], some .nothing, rest⟩
        else
          let t := transferLoop fuel rest (avail - r) (n - r)
          { t with sizes := r :: t.sizes }

def transfer (avail n : Nat) : Transfer ε := transferLoop n s avail n

/-- An operation that takes all it is asked for transfers everything. -/
theorem transfer_whole {s : Script ε} {avail n : Nat} (hn : 0 < n) (havail : n ≤ avail)
    (h : s.next.1.limit n = n) : transfer s avail n = ⟨[n], none, s.drop 1⟩ := by
  obtain ⟨k, rfl⟩ : ∃ k, n = k + 1 := ⟨n - 1, by omega⟩
  have hrest (rest : Script ε) : transferLoop k rest (avail - (k + 1)) 0 = ⟨[], none, rest⟩ := by
    cases k <;> rfl
  have hscript : s.next.2 = s.drop 1 := by cases s <;> rfl
  rw [← hscript]
  rcases hnext : s.next with ⟨o, rest⟩
  rw [hnext] at h
  cases o with
  | failed e => cases h
  | _ => simp [transfer, transferLoop, hnext, h, Nat.min_eq_left havail, hrest]

theorem transfer_done (ε : Type) {avail n : Nat} (hn : 0 < n) (h : n ≤ avail) :
    transfer ([] : Script ε) avail n = ⟨[n], none, []⟩ :=
  transfer_whole hn h rfl

theorem transfer_nil (ε : Type) {avail n : Nat} (h : n ≤ avail) : (transfer ([] : Script ε) avail n).stop = none ∧
      (transfer ([] : Script ε) avail n).total = n ∧ (transfer ([] : Script ε) avail n).script = [] := by
  rcases Nat.eq_zero_or_pos n with rfl | hn
  · exact ⟨rfl, rfl, rfl⟩
  · rw [transfer_done ε hn h]
    exact ⟨rfl, by simp [Transfer.total], rfl⟩

/-! ## Numbers -/

/-- The `k` lowest bytes of a number, the lowest first. -/
def encode : Nat → Nat → List UInt8
  | 0, _ => []
  | k + 1, n => n.toUInt8 :: encode k (n / 256)

def decode : List UInt8 → Nat
  | [] => 0
  | b :: rest => b.toNat + 256 * decode rest

@[simp] theorem length_encode (k n : Nat) : (encode k n).length = k := by
  induction k generalizing n with
  | zero => rfl
  | succ k ih => simp [encode, ih]

theorem decode_encode (k n : Nat) : decode (encode k n) = n % 256 ^ k := by
  induction k generalizing n with
  | zero => simp [encode, decode, Nat.mod_one]
  | succ k ih =>
    have hbyte : (n.toUInt8).toNat = n % 256 := by simp
    rw [encode, decode, ih, hbyte, Nat.pow_succ, Nat.mul_comm (256 ^ k), Nat.mod_mul]

end TrustTunnel.Lib.File
