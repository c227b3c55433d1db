import TrustTunnel.Udp.Mux

/-!
# Udp.Packet

The packets that are sent, read as the comment on the outgoing format says.

`compose_udp_packet` makes the buffer for the whole application name and then cuts the name to what
its length byte can say. Behind a longer name the payload ends early, and zero bytes follow it up to
the length that was declared.
-/

namespace TrustTunnel.Udp

open List

structure Request where
  length : Nat
  src : SocketAddress
  dst : SocketAddress
  appName : Bytes
  payload : Bytes

namespace Request

/-- The fields in their order; the payload is the rest of the packet. -/
def decode (packet : Bytes) : Option Request := do
  let (length, packet) ← Wire.getU32 packet
  let (src, packet) ← Wire.getIpPadded packet
  let (srcPort, packet) ← Wire.getU16 packet
  let (dst, packet) ← Wire.getIpPadded packet
  let (dstPort, packet) ← Wire.getU16 packet
  let (nameLength, packet) ← Wire.getU8 packet
  if packet.length < nameLength.toNat then none
  else some ⟨length, src.setPort srcPort, dst.setPort dstPort, packet.take nameLength.toNat,
    packet.drop nameLength.toNat⟩

end Request

def seen (a : SocketAddress) : SocketAddress := (Wire.fromPadded (Wire.putIpPadded a)).setPort a.port

variable (src dst : SocketAddress) (appName data : Bytes)

section

variable (hsrc : Wire.IsIp src) (hdst : Wire.IsIp dst)
include hsrc hdst

theorem compose_eq : Mux.composeUdpPacket src dst appName data =
      Wire.putU32 (37 + appName.length + data.length) ++ (Wire.putIpPadded src ++ (Wire.putU16 src.port ++
        (Wire.putIpPadded dst ++ (Wire.putU16 dst.port ++ (Wire.putU8 (appName.take 255).length ++
          (appName.take 255 ++ (data ++ List.replicate (appName.length - 255) 0))))))) := by
  have h1 := Wire.length_putIpPadded hsrc
  have h2 := Wire.length_putIpPadded hdst
  have hlength : udppktInPrefixSize + udppktApplenSize + appName.length + data.length - udppktLengthSize
      = 37 + appName.length + data.length := by
    simp only [udppktInPrefixSize, udppktApplenSize, udppktAddrSize, udppktPortSize]
    omega
  have hpad : udppktInPrefixSize + udppktApplenSize + appName.length + data.length -
      (4 + (16 + (2 + (16 + (2 + (1 + ((appName.take 255).length + data.length))))))) = appName.length - 255 := by
    simp only [udppktInPrefixSize, udppktApplenSize, udppktLengthSize, udppktAddrSize, udppktPortSize, length_take]
    omega
  rw [← hpad]
  simp only [Mux.composeUdpPacket, hlength, length_append, h1, h2, Wire.putU32, Wire.putU16,
    Wire.putU8, length_cons, length_nil, append_assoc]

theorem length_compose : (Mux.composeUdpPacket src dst appName data).length = 41 + appName.length + data.length := by
  rw [compose_eq src dst appName data hsrc hdst]
  simp only [length_append, length_replicate, Wire.length_putIpPadded hsrc,
    Wire.length_putIpPadded hdst, Wire.putU32, Wire.putU16, Wire.putU8, length_cons, length_nil, length_take]
  omega

theorem decode_compose : Request.decode (Mux.composeUdpPacket src dst appName data) =
      some ⟨(37 + appName.length + data.length) % 4294967296, seen src, seen dst, appName.take 255,
        data ++ List.replicate (appName.length - 255) 0⟩ := by
  have hname : (appName.take 255).length.toUInt8.toNat = (appName.take 255).length := by
    rw [length_take, UInt8.toNat_ofNat']
    omega
  rw [compose_eq src dst appName data hsrc hdst]
  simp only [Request.decode, Wire.getU32_putU32_mod, Option.bind_eq_bind, Option.bind_some,
    Wire.getIpPadded_append (Wire.length_putIpPadded hsrc), Wire.getU16_putU16,
    Wire.getIpPadded_append (Wire.length_putIpPadded hdst), Wire.putU8, cons_append,
    nil_append, Wire.getU8, hname, length_append, Nat.not_lt.mpr (Nat.le_add_right _ _),
    if_false, take_left, drop_left, seen]

end

/-- The packets that are read as they were meant. -/
theorem carried_iff (hsrc : Wire.IsIp src) (hdst : Wire.IsIp dst) :
    (∃ length, Request.decode (Mux.composeUdpPacket src dst appName data) =
        some ⟨length, seen src, seen dst, appName.take 255, data⟩ ∧
      length + udppktLengthSize = (Mux.composeUdpPacket src dst appName data).length) ↔
    appName.length ≤ 255 ∧ 37 + appName.length + data.length < 4294967296 := by
  rw [decode_compose src dst appName data hsrc hdst, length_compose src dst appName data hsrc hdst]
  have h4 : udppktLengthSize = 4 := rfl
  simp only [Option.some.injEq, Request.mk.injEq, true_and]
  constructor
  · rintro ⟨length, ⟨hlength, hpayload⟩, hwhole⟩
    have hcut : (List.replicate (appName.length - 255) (0 : UInt8)).length = 0 := by
      rw [append_right_eq_self.mp hpayload]
      rfl
    rw [length_replicate] at hcut
    omega
  · rintro ⟨hname, hfits⟩
    refine ⟨37 + appName.length + data.length, ⟨Nat.mod_eq_of_lt hfits, ?_⟩, by omega⟩
    rw [Nat.sub_eq_zero_of_le hname, replicate_zero, append_nil]

/-- Two ends and an empty payload. -/
theorem carried_named : ∃ length,
    Request.decode (Mux.composeUdpPacket ⟨[1, 1, 1, 1], 1⟩ ⟨[2, 2, 2, 2], 2⟩ [97] []) =
        some ⟨length, seen ⟨[1, 1, 1, 1], 1⟩, seen ⟨[2, 2, 2, 2], 2⟩, [97], []⟩ ∧
      length + udppktLengthSize = (Mux.composeUdpPacket ⟨[1, 1, 1, 1], 1⟩ ⟨[2, 2, 2, 2], 2⟩ [97] []).length :=
  (carried_iff ⟨[1, 1, 1, 1], 1⟩ ⟨[2, 2, 2, 2], 2⟩ [97] [] (.inl rfl) (.inl rfl)).mpr (by decide)

/-- A name of 256 bytes and no payload: the packet has a payload of one byte. -/
theorem cut_name_pads :
    (Request.decode (Mux.composeUdpPacket ⟨[1, 1, 1, 1], 1⟩ ⟨[2, 2, 2, 2], 2⟩ (List.replicate 256 97)
      [])).map Request.payload = some [0] := by
  decide +kernel

end TrustTunnel.Udp
