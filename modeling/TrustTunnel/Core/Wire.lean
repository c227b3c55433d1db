import TrustTunnel.Core.Types

/-!
# Core.Wire

`wire_utils::Reader` and `wire_utils::Writer`: integers in network byte order and IP addresses
padded to 16 bytes. A reader is the bytes it has left; it gives `none` when there are too few.

The padded form is that of an IPv4 address when it starts with twelve zero bytes, so some addresses
of either family are read back as one of the other: `getIpPadded_putIpPadded`.
-/

namespace TrustTunnel.Wire

open List

def ipv4AddrSize : Nat := 4

def ipv6AddrSize : Nat := 16

def ipv46SizeDiff : Nat := ipv6AddrSize - ipv4AddrSize

def in6addrLoopback : Bytes := List.replicate 15 0 ++ [1]

/-! ## Reader -/

def getU8 : Bytes → Option (UInt8 × Bytes)
  | [] => none
  | a :: rest => some (a, rest)

def getU16 : Bytes → Option (UInt16 × Bytes)
  | a :: b :: rest => some ((a.toNat * 256 + b.toNat).toUInt16, rest)
  | _ => none

def getU32 : Bytes → Option (Nat × Bytes)
  | a :: b :: c :: d :: rest =>
    some (((a.toNat * 256 + b.toNat) * 256 + c.toNat) * 256 + d.toNat, rest)
  | _ => none

def getIp (size : Nat) (buffer : Bytes) : Option (SocketAddress × Bytes) :=
  if buffer.length < size then none else some (⟨buffer.take size, 0⟩, buffer.drop size)

/-- Twelve zero bytes in front make it an IPv4 address, `::1` excepted. -/
def getIpPadded (buffer : Bytes) : Option (SocketAddress × Bytes) :=
  if buffer.length < ipv6AddrSize then none
  else if (buffer.take ipv46SizeDiff).all (· == 0) && buffer.take ipv6AddrSize != in6addrLoopback then
    getIp ipv4AddrSize (buffer.drop ipv46SizeDiff)
  else getIp ipv6AddrSize buffer

variable {b : Bytes}

theorem getU16_some (h : 2 ≤ b.length) : ∃ v, getU16 b = some (v, b.drop 2) := by
  match b, h with
  | _ :: _ :: rest, _ => exact ⟨_, rfl⟩

theorem getU32_some (h : 4 ≤ b.length) : ∃ v, getU32 b = some (v, b.drop 4) := by
  match b, h with
  | _ :: _ :: _ :: _ :: rest, _ => exact ⟨_, rfl⟩

theorem length_of_getU32 {b r : Bytes} {v : Nat} (h : getU32 b = some (v, r)) : b.length = r.length + 4 := by
  match b, h with
  | _ :: _ :: _ :: _ :: rest, h =>
    simp only [getU32, Option.some.injEq, Prod.mk.injEq] at h
    simp [h.2]

theorem getU32_append {b r : Bytes} {v : Nat} (e : Bytes) (h : getU32 b = some (v, r)) :
    getU32 (b ++ e) = some (v, r ++ e) := by
  match b, h with
  | _ :: _ :: _ :: _ :: rest, h =>
    simp only [getU32, Option.some.injEq, Prod.mk.injEq] at h
    simp [getU32, h]

theorem getIpPadded_some (h : 16 ≤ b.length) : ∃ a, getIpPadded b = some (a, b.drop 16) := by
  have hlen : ¬ b.length < ipv6AddrSize := Nat.not_lt.mpr h
  unfold getIpPadded
  rw [if_neg hlen]
  split
  · refine ⟨⟨(b.drop ipv46SizeDiff).take ipv4AddrSize, 0⟩, ?_⟩
    have hfour : ¬ (b.drop ipv46SizeDiff).length < ipv4AddrSize := by
      simp only [length_drop, ipv46SizeDiff, ipv4AddrSize]
      omega
    rw [getIp, if_neg hfour, drop_drop]
    rfl
  · exact ⟨⟨b.take ipv6AddrSize, 0⟩, by rw [getIp, if_neg hlen]; rfl⟩

/-! ## Writer -/

def putU8 (v : Nat) : Bytes := [v.toUInt8]

def putU16 (v : UInt16) : Bytes := [(v.toNat / 256).toUInt8, v.toNat.toUInt8]

def putU32 (v : Nat) : Bytes :=
  [(v / 16777216).toUInt8, (v / 65536).toUInt8, (v / 256).toUInt8, v.toUInt8]

def putIpPadded (a : SocketAddress) : Bytes :=
  if a.addr.length = ipv4AddrSize then List.replicate ipv46SizeDiff 0 ++ a.addr else a.addr

/-! ## Reading back -/

theorem getU16_putU16 (v : UInt16) (e : Bytes) : getU16 (putU16 v ++ e) = some (v, e) := by
  have hv : v.toNat / 256 % 256 * 256 + v.toNat % 256 = v.toNat := by
    have := v.toNat_lt
    omega
  simp [putU16, getU16, UInt8.toNat_ofNat', hv, UInt16.ofNat_toNat]

theorem getU32_putU32_mod (v : Nat) (e : Bytes) : getU32 (putU32 v ++ e) = some (v % 4294967296, e) := by
  simp only [putU32, cons_append, nil_append, getU32, UInt8.toNat_ofNat', Option.some.injEq, Prod.mk.injEq, and_true]
  omega

theorem getU32_putU32 {v : Nat} (h : v < 4294967296) (e : Bytes) : getU32 (putU32 v ++ e) = some (v, e) := by
  rw [getU32_putU32_mod, Nat.mod_eq_of_lt h]

def IsIp (a : SocketAddress) : Prop :=
  a.addr.length = ipv4AddrSize ∨ a.addr.length = ipv6AddrSize

theorem length_putIpPadded {a : SocketAddress} (h : IsIp a) : (putIpPadded a).length = 16 := by
  unfold putIpPadded
  split_ifs with h4
  · rw [length_append, h4]
    rfl
  · exact h.resolve_left h4

def fromPadded (b : Bytes) : SocketAddress :=
  ⟨if (b.take ipv46SizeDiff).all (· == 0) && b != in6addrLoopback then b.drop ipv46SizeDiff else b, 0⟩

theorem getIpPadded_append (h : b.length = 16) (e : Bytes) : getIpPadded (b ++ e) = some (fromPadded b, e) := by
  have hwhole : (b ++ e).take ipv6AddrSize = b := take_left' h
  have hzeros : (b ++ e).take ipv46SizeDiff = b.take ipv46SizeDiff :=
    take_append_of_le_length (by rw [h]; decide)
  have hdrop : (b ++ e).drop ipv46SizeDiff = b.drop ipv46SizeDiff ++ e :=
    drop_append_of_le_length (by rw [h]; decide)
  have hlast : (b.drop ipv46SizeDiff).length = ipv4AddrSize := by
    rw [length_drop, h]
    rfl
  have hlen : ¬ (b ++ e).length < ipv6AddrSize := by
    rw [length_append, h]
    exact Nat.not_lt.mpr (Nat.le_add_right 16 _)
  have hlen4 : ¬ (b.drop ipv46SizeDiff ++ e).length < ipv4AddrSize := by
    rw [length_append]
    omega
  unfold getIpPadded fromPadded
  rw [if_neg hlen, hwhole, hzeros, hdrop]
  split
  · rw [getIp, if_neg hlen4, take_left' hlast, drop_left' hlast]
  · have hrest : (b ++ e).drop ipv6AddrSize = e := drop_left' h
    rw [getIp, if_neg hlen, hwhole, hrest]

theorem fromPadded_v4 (addr : Bytes) : fromPadded (List.replicate ipv46SizeDiff 0 ++ addr) =
    ⟨if addr = [0, 0, 0, 1] then in6addrLoopback else addr, 0⟩ := by
  have hloop : in6addrLoopback = List.replicate ipv46SizeDiff 0 ++ [0, 0, 0, 1] := rfl
  unfold fromPadded
  rw [hloop]
  by_cases hone : addr = [0, 0, 0, 1]
  · simp [hone]
  · simp [hone]

/-- Which addresses are read back as they were written; the others change their family. -/
theorem getIpPadded_putIpPadded (a : SocketAddress) (h : IsIp a) (e : Bytes) :
    ∃ b, getIpPadded (putIpPadded a ++ e) = some (b, e) ∧ (b.addr = a.addr ↔
        a.addr.length = ipv4AddrSize ∧ a.addr ≠ [0, 0, 0, 1] ∨ a.addr = in6addrLoopback ∨
          a.addr.length = ipv6AddrSize ∧ ∃ x ∈ a.addr.take 12, x ≠ 0) ∧ (b.addr ≠ a.addr →
        a.addr.length = ipv4AddrSize ∧ b.addr.length = ipv6AddrSize ∨
          a.addr.length = ipv6AddrSize ∧ b.addr.length = ipv4AddrSize) := by
  refine ⟨fromPadded (putIpPadded a), getIpPadded_append (length_putIpPadded h) e, ?_⟩
  rcases h with h4 | h6
  · have h6 : a.addr.length ≠ ipv6AddrSize := by rw [h4]; decide
    have hloop : a.addr ≠ in6addrLoopback := fun heq => h6 (by rw [heq]; rfl)
    rw [putIpPadded, if_pos h4, fromPadded_v4]
    by_cases hone : a.addr = [0, 0, 0, 1]
    · have hother : ¬ in6addrLoopback = a.addr := Ne.symm hloop
      rw [if_pos hone]
      refine ⟨⟨fun heq => absurd heq hother, ?_⟩, fun _ => .inl ⟨h4, rfl⟩⟩
      rintro (⟨-, hne⟩ | heq | ⟨heq, -⟩)
      · exact absurd hone hne
      · exact absurd heq hloop
      · exact absurd heq h6
    · rw [if_neg hone]
      exact ⟨⟨fun _ => .inl ⟨h4, hone⟩, fun _ => rfl⟩, fun hne => absurd rfl hne⟩
  · have h4 : a.addr.length ≠ ipv4AddrSize := by rw [h6]; decide
    rw [putIpPadded, if_neg h4, fromPadded]
    split_ifs with hpadded
    · rw [Bool.and_eq_true, all_eq_true, bne_iff_ne] at hpadded
      have hlast : (a.addr.drop ipv46SizeDiff).length = ipv4AddrSize := by
        rw [length_drop, h6]
        rfl
      have hother : a.addr.drop ipv46SizeDiff ≠ a.addr := fun heq => h4 (by rw [← heq]; exact hlast)
      refine ⟨⟨fun heq => absurd heq hother, ?_⟩, fun _ => .inr ⟨h6, hlast⟩⟩
      rintro (⟨heq, -⟩ | heq | ⟨-, x, hx, hne⟩)
      · exact absurd heq h4
      · exact absurd heq hpadded.2
      · exact absurd (beq_iff_eq.mp (hpadded.1 x hx)) hne
    · refine ⟨⟨fun _ => .inr ?_, fun _ => rfl⟩, fun hne => absurd rfl hne⟩
      by_cases hloop : a.addr = in6addrLoopback
      · exact .inl hloop
      refine .inr ⟨h6, ?_⟩
      by_contra hzeros
      push Not at hzeros
      refine hpadded ?_
      rw [Bool.and_eq_true, all_eq_true, bne_iff_ne]
      exact ⟨fun x hx => beq_iff_eq.mpr (hzeros x hx), hloop⟩

/-- `0.0.0.1`, which is read back as `::1`. -/
theorem getIpPadded_one : ∃ b, getIpPadded (putIpPadded ⟨[0, 0, 0, 1], 0⟩ ++ []) = some (b, []) ∧
    b.addr ≠ [0, 0, 0, 1] := by
  obtain ⟨b, hread, hsame, -⟩ := getIpPadded_putIpPadded ⟨[0, 0, 0, 1], 0⟩ (.inl rfl) []
  refine ⟨b, hread, fun heq => ?_⟩
  rcases hsame.mp heq with h | h | h
  · exact h.2 rfl
  · exact absurd h (by decide)
  · exact absurd h.1 (by decide)

end TrustTunnel.Wire
