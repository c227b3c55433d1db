import TrustTunnel.Core.Wire
import TrustTunnel.Lib.Access

/-!
# Socks5.Message

The messages of the SOCKS5 listener (`socks5_listener.cpp`): how the bytes received on a connection
or in a datagram are read, and how replies are put together. The fixed fields of a message are those
of its packed structure; every access behind them is checked against the bytes that were received,
and every copy into a reply against the size of the reply's buffer.
-/

namespace TrustTunnel.Socks5

open Lib Lib.Access List

/-! ## Codes -/

def socks5Ver : UInt8 := 0x05

def usernamePasswordVer : UInt8 := 0x01

def noAuthenticationRequired : UInt8 := 0x00
def usernamePassword : UInt8 := 0x02
def noAcceptableMethods : UInt8 := 0xff

def appNameMethod : UInt8 := 0x80

def cmdConnect : UInt8 := 0x01
def cmdUdpAssociate : UInt8 := 0x03

inductive AddressType where
  | ipv4
  | domainName
  | ipv6
  | ipv4AppName
  | domainNameAppName
  | ipv6AppName
  deriving DecidableEq

namespace AddressType

def code : AddressType → UInt8
  | ipv4 => 0x01
  | domainName => 0x03
  | ipv6 => 0x04
  | ipv4AppName => 0xf1
  | domainNameAppName => 0xf3
  | ipv6AppName => 0xf4

def all : List AddressType :=
  [ipv4, domainName, ipv6, ipv4AppName, domainNameAppName, ipv6AppName]

def ofCode (b : UInt8) : Option AddressType := all.find? fun t => t.code == b

def hasAppName : AddressType → Bool
  | ipv4AppName => true
  | domainNameAppName => true
  | ipv6AppName => true
  | _ => false

def plain : AddressType → AddressType
  | ipv4AppName => ipv4
  | domainNameAppName => domainName
  | ipv6AppName => ipv6
  | t => t

end AddressType

inductive ReplyStatus where
  | succeeded
  | socksServerFailure
  | connectionNotAllowedByRuleset
  | networkUnreachable
  | hostUnreachable
  | connectionRefused
  | ttlExpired
  | commandNotSupported
  | addressTypeNotSupported

def ReplyStatus.code (s : ReplyStatus) : UInt8 := s.ctorIdx.toUInt8

inductive ConnectResult where
  | success
  | reject
  | timeout
  | unreachable
  deriving DecidableEq

def ConnectResult.status : ConnectResult → ReplyStatus
  | success => .succeeded
  | reject => .connectionRefused
  | timeout => .ttlExpired
  | unreachable => .hostUnreachable

def ConnectResult.code (r : ConnectResult) : UInt8 := r.ctorIdx.toUInt8

inductive ConnectionAddress where
  | sockaddr (ip : SocketAddress)
  | domainName (name : Bytes) (port : UInt16)
  deriving DecidableEq

/-! ## Addresses in requests -/

def lengthByFirst (data : Bytes) (length : UInt8 → Except Violation Int) : Except Violation Int :=
  if data.length = 0 then .ok (-1)
  else do
    let n ← readAt data 0
    length n

open Wire

/-- Negative if more data is needed. -/
def addrLengthFromRequest : Option AddressType → Bytes → Except Violation Int
  | some .ipv4, _ => .ok ipv4AddrSize
  | some .domainName, data => lengthByFirst data fun n => .ok (1 + n.toNat)
  | some .ipv6, _ => .ok ipv6AddrSize
  | some .ipv4AppName, data => lengthByFirst data fun n => .ok (1 + n.toNat + ipv4AddrSize)
  | some .domainNameAppName, data => lengthByFirst data fun n =>
    if data.length < n.toNat + 2 then .ok (-1)
    else do
      let m ← readAt data (n.toNat + 1)
      return 1 + n.toNat + 1 + m.toNat
  | some .ipv6AppName, data => lengthByFirst data fun n => .ok (1 + n.toNat + ipv6AddrSize)
  | none, _ => .ok 0

def appNameFromRequest (type : AddressType) (data : Bytes) : Except Violation Bytes :=
  if type.hasAppName then do
    let n ← readAt data 0
    slice data 1 n.toNat
  else .ok []

def portAt (data : Bytes) (i : Nat) : Except Violation UInt16 := do
  let hi ← readAt data i
  let lo ← readAt data (i + 1)
  return (hi.toNat * 256 + lo.toNat).toUInt16

def ipFromRequest (size : Nat) (data : Bytes) : Except Violation ConnectionAddress := do
  let addr ← slice data 0 size
  let port ← portAt data size
  return .sockaddr ⟨addr, port⟩

def domainFromRequest (data : Bytes) : Except Violation ConnectionAddress := do
  let n ← readAt data 0
  let name ← slice data 1 n.toNat
  let port ← portAt data (n.toNat + 1)
  return .domainName name port

def plainAddrFromRequest (type : AddressType) (data : Bytes) : Except Violation ConnectionAddress :=
  if type = .domainName then domainFromRequest data
  else ipFromRequest (if type = .ipv4 then ipv4AddrSize else ipv6AddrSize) data

def dstAddrFromRequest (type : AddressType) (data : Bytes) : Except Violation ConnectionAddress :=
  if type.hasAppName then do
    let n ← readAt data 0
    plainAddrFromRequest type.plain (data.drop (n.toNat + 1))
  else plainAddrFromRequest type data

/-! ## Authentication -/

structure UsernamePasswordRequest where
  ver : UInt8
  uname : Bytes
  passwd : Bytes

/-- The request and the number of bytes it took; nothing if more data is needed. -/
def readUsernamePasswordRequest : Bytes → Except Violation (Option (UsernamePasswordRequest × Nat))
  | ver :: ulen :: data =>
    if data.length ≤ ulen.toNat then .ok none
    else do
      let uname ← slice data 0 ulen.toNat
      let plen ← readAt data ulen.toNat
      if (data.drop (ulen.toNat + 1)).length < plen.toNat then return none
      else
        let passwd ← slice (data.drop (ulen.toNat + 1)) 0 plen.toNat
        return some (⟨ver, uname, passwd⟩, 3 + ulen.toNat + plen.toNat)
  | _ => .ok none

/-- `Socks5ListenerConfig`, the part that decides about requests. -/
structure Config where
  username : Bytes
  password : Bytes

variable (config : Config) (chunk : Bytes)

/-- The method the listener supports; its `_APPNAME` version is supported too. -/
def Config.supportedMethod : UInt8 :=
  if config.username.isEmpty then noAuthenticationRequired else usernamePassword

/-- The last plain method that is supported, unless an `_APPNAME` version comes. -/
def chooseMethod (supported : UInt8) : Option UInt8 → Bytes → Option UInt8
  | chosen, [] => chosen
  | chosen, m :: rest =>
    if m = supported then chooseMethod supported (some m) rest
    else if m = supported + appNameMethod then some m
    else chooseMethod supported chosen rest

inductive AuthVerdict where
  | wait
  | chosen (method : UInt8) (toDrain : Nat)
  | failed
  deriving DecidableEq

/-- What is done with the bytes of a connection in `S5CONNS_IDLE`. -/
def processAuthRequest : Bytes → Except Violation AuthVerdict
  | ver :: nmethods :: data =>
    if ver ≠ socks5Ver then .ok .failed
    else if data.length < nmethods.toNat then .ok .wait
    else do
      let methods ← slice data 0 nmethods.toNat
      return (chooseMethod config.supportedMethod none methods).elim .failed fun m =>
        .chosen m (2 + nmethods.toNat)
  | _ => .ok .wait

inductive CredentialsVerdict where
  | wait
  | matched (toDrain : Nat)
  | failed
  deriving DecidableEq

/-- What is done with the bytes of a connection in `S5CONNS_WAITING_USERNAME_PASSWORD`. -/
def processUsernamePassword (chunk : Bytes) : Except Violation CredentialsVerdict := do
  let read ← readUsernamePasswordRequest chunk
  return read.elim .wait fun (req, processed) =>
    if req.ver ≠ usernamePasswordVer then .failed
    else if config.username = req.uname ∧ config.password = req.passwd then .matched processed
    else .failed

/-! ## Requests -/

open AddressType

/-- Why a request is invalid, in the order of the checks. -/
def invalidStatus (ver cmd rsv atyp : UInt8) : Option ReplyStatus :=
  if ver ≠ socks5Ver then some .socksServerFailure
  else if cmd ≠ cmdConnect ∧ cmd ≠ cmdUdpAssociate then some .commandNotSupported
  else if rsv ≠ 0 then some .socksServerFailure
  else if ofCode atyp = none then some .addressTypeNotSupported
  else none

def replyHeader (status atyp : UInt8) : Bytes := [socks5Ver, status, 0, atyp]

def replyHeaderSize : Nat := 4

/-- The reply to an invalid request: the address is copied from the request. -/
def invalidRequestReply (status : ReplyStatus) (atyp : UInt8) (dstAddr : Bytes) (addrLen : Int)
    (port : UInt16) : Except Violation Bytes := do
  let buf ← blit (List.replicate (replyHeaderSize + 1024) 0) 0 (replyHeader status.code atyp)
  let buf ← memcpy buf replyHeaderSize dstAddr 0 addrLen
  let buf ← blit buf (replyHeaderSize + addrLen.toNat) (putU16 port)
  slice buf 0 (replyHeaderSize + addrLen.toNat + 2)

inductive RequestVerdict where
  | wait
  | request (cmd : UInt8) (dst : ConnectionAddress) (appName : Bytes) (toDrain : Nat)
  | invalid (reply : Bytes)

def processAddress (cmd : UInt8) (type : AddressType) (dstAddr : Bytes) (addrLen : Int) :
    Except Violation RequestVerdict :=
  if addrLen < 0 ∨ dstAddr.length < addrLen + 2 then .ok .wait
  else do
    let dst ← dstAddrFromRequest type dstAddr
    let appName ← appNameFromRequest type dstAddr
    return .request cmd dst appName (4 + addrLen.toNat + 2)

/-- What is done with the bytes of a connection in `S5CONNS_WAITING_REQUEST`. -/
def processRequest (port : UInt16) : Bytes → Except Violation RequestVerdict
  | ver :: cmd :: rsv :: atyp :: dstAddr => do
    let addrLen ← addrLengthFromRequest (ofCode atyp) dstAddr
    match invalidStatus ver cmd rsv atyp, ofCode atyp with
    | some status, _ =>
      let reply ← invalidRequestReply status atyp dstAddr addrLen port
      return .invalid reply
    | none, some type => processAddress cmd type dstAddr addrLen
    | none, none => return .wait
  | _ => .ok .wait

/-- The connection becomes a TCP one as soon as the command is read, before the request is complete
or known to be valid. -/
def asksToConnect : Bytes → Bool
  | ver :: cmd :: _ :: _ :: _ => ver == socks5Ver && cmd == cmdConnect
  | _ => false

/-! ## Datagrams -/

inductive UdpVerdict where
  | ignored (result : Int)
  | packet (dst : ConnectionAddress) (appName : Bytes) (headerSize : Nat)

/-- `process_udp_header`, up to the lookup of the connection. -/
def processUdpHeader : Bytes → Except Violation UdpVerdict
  | rsv :: rsv' :: frag :: atyp :: dstAddr => do
    let addrLen ← addrLengthFromRequest (ofCode atyp) dstAddr
    if addrLen < 0 ∨ dstAddr.length < addrLen + 2 then return .ignored 0
    else if rsv ≠ 0 ∨ rsv' ≠ 0 then return .ignored (-1)
    else if frag ≠ 0 then return .ignored (-1)
    else if atyp = ipv4.code then
      let dst ← dstAddrFromRequest .ipv4 dstAddr
      let appName ← appNameFromRequest .ipv4 dstAddr
      return .packet dst appName (4 + addrLen.toNat + 2)
    else if atyp = ipv6.code then
      let dst ← dstAddrFromRequest .ipv6 dstAddr
      let appName ← appNameFromRequest .ipv6 dstAddr
      return .packet dst appName (4 + addrLen.toNat + 2)
    else return .ignored 0
  | _ => .ok (.ignored 0)

/-! ## Replies -/

def socksAtypByAddr : ConnectionAddress → AddressType
  | .sockaddr ip => if ip.addr.length = ipv4AddrSize then .ipv4 else .ipv6
  | .domainName _ _ => .domainName

def cSocklen (ip : SocketAddress) : Nat := if ip.addr.length = ipv4AddrSize then 16 else 28

def socksAddrSize : ConnectionAddress → Nat
  | .sockaddr ip => cSocklen ip
  | .domainName name _ => 1 + name.length

def addrField : ConnectionAddress → Bytes
  | .sockaddr ip => ip.addr
  | .domainName name _ => name.length.toUInt8 :: name

def addrFieldSize : ConnectionAddress → Nat
  | .sockaddr ip => if ip.addr.length = ipv4AddrSize then ipv4AddrSize else ipv6AddrSize
  | .domainName name _ => 1 + name.length

def tcpReply (dst : ConnectionAddress) (result : ConnectResult) (port : UInt16) : Except Violation Bytes := do
  let buf := List.replicate (replyHeaderSize + socksAddrSize dst + 2) 0
  let buf ← blit buf 0 (replyHeader result.status.code (socksAtypByAddr dst).code)
  let buf ← blit buf replyHeaderSize (addrField dst)
  let buf ← blit buf (replyHeaderSize + (addrField dst).length) (putU16 port)
  slice buf 0 (replyHeaderSize + addrFieldSize dst + 2)

def in4addrLoopback : Bytes := [127, 0, 0, 1]

/-- The address type of the reply to `UDP ASSOCIATE`; `bound` is where the UDP socket is bound. -/
def associationAtyp (dst : ConnectionAddress) (bound : SocketAddress) : AddressType :=
  if bound.addr.length = ipv4AddrSize then .ipv4
  else if bound.addr.length = ipv6AddrSize then .ipv6
  else socksAtypByAddr dst

/-- Where the UDP socket is bound, in the reply of `complete_udp_association`. -/
def putBoundAddr (v4 : Bool) (bound : SocketAddress) (buf : Bytes) : Except Violation Bytes :=
  if bound.valid then do
    let buf ← blit buf replyHeaderSize bound.addr
    blit buf (replyHeaderSize + bound.addr.length) (putU16 bound.port)
  else blit buf replyHeaderSize (if v4 then in4addrLoopback else in6addrLoopback)

/-- The reply of `complete_udp_association`. The bytes of its buffer that are never set are taken as
zero. -/
def associationReply (v4 : Bool) (result : ConnectResult) (bound : SocketAddress) : Except Violation Bytes := do
  let atyp := if v4 then ipv4 else .ipv6
  let buf ← blit (List.replicate 32 0) 0 (replyHeader result.code atyp.code)
  let buf ← putBoundAddr v4 bound buf
  slice buf 0 (replyHeaderSize + (if v4 then ipv4AddrSize else ipv6AddrSize) + 2)

/-- The datagram of `socks5_listener_send_data`: a header with the peer's address, and the data. -/
def udpReply (ip : SocketAddress) (data : Bytes) : Except Violation Bytes := do
  let v4 := ip.addr.length = ipv4AddrSize
  let size := 4 + (if v4 then ipv4AddrSize else ipv6AddrSize) + 2 + data.length
  let atyp := if v4 then ipv4 else .ipv6
  let buf ← blit (List.replicate size 0) 0 [0, 0, 0, atyp.code]
  let buf ← blit buf 4 ip.addr
  let buf ← blit buf (4 + ip.addr.length) (putU16 ip.port)
  blit buf (4 + ip.addr.length + 2) data

/-! ## Addresses stay inside the bytes received -/

theorem getElem?_of_lt {b : Bytes} {i : Nat} (h : i < b.length) : ∃ n, b[i]? = some n :=
  ⟨b[i], List.getElem?_eq_getElem h⟩

theorem addrLength_domainNameAppName (n : UInt8) (rest : Bytes) : (n :: rest).length < n.toNat + 2 ∧
        addrLengthFromRequest (some .domainNameAppName) (n :: rest) = .ok (-1) ∨
      ∃ m, (n :: rest)[n.toNat + 1]? = some m ∧
        addrLengthFromRequest (some .domainNameAppName) (n :: rest) = .ok (1 + n.toNat + 1 + m.toNat) := by
  have hunfold : addrLengthFromRequest (some .domainNameAppName) (n :: rest) =
      if (n :: rest).length < n.toNat + 2 then .ok (-1)
      else do
        let m ← readAt (n :: rest) (n.toNat + 1)
        return 1 + n.toNat + 1 + m.toNat := rfl
  by_cases hshort : (n :: rest).length < n.toNat + 2
  · exact .inl ⟨hshort, hunfold.trans (if_pos hshort)⟩
  obtain ⟨m, hm⟩ := getElem?_of_lt (Nat.lt_of_not_le fun h => hshort (Nat.lt_succ_of_le h))
  refine .inr ⟨m, hm, ?_⟩
  rw [hunfold, if_neg hshort, readAt_eq_ok hm]
  rfl

theorem addrLengthFromRequest_ok (type : Option AddressType) (data : Bytes) :
    ∃ n, addrLengthFromRequest type data = .ok n ∧ n ≤ 512 := by
  rcases type with _ | t
  · exact ⟨0, rfl, by decide⟩
  cases data with
  | nil => cases t <;> exact ⟨_, rfl, by decide⟩
  | cons n rest =>
    have hn := n.toNat_lt
    cases t with
    | ipv4 | ipv6 => exact ⟨_, rfl, by decide⟩
    | domainName => exact ⟨1 + n.toNat, rfl, by omega⟩
    | ipv4AppName =>
      exact ⟨1 + n.toNat + ipv4AddrSize, rfl, by simp only [ipv4AddrSize]; omega⟩
    | ipv6AppName =>
      exact ⟨1 + n.toNat + ipv6AddrSize, rfl, by simp only [ipv6AddrSize]; omega⟩
    | domainNameAppName =>
      obtain ⟨-, h⟩ | ⟨m, -, h⟩ := addrLength_domainNameAppName n rest
      · exact ⟨_, h, by decide⟩
      · have hm := m.toNat_lt
        exact ⟨_, h, by omega⟩

def ConnectionAddress.WellFormed : ConnectionAddress → Prop
  | .sockaddr ip => ip.addr.length = ipv4AddrSize ∨ ip.addr.length = ipv6AddrSize
  | .domainName _ _ => True

theorem portAt_ok (data : Bytes) {i : Nat} (h : i + 2 ≤ data.length) : ∃ port, portAt data i = .ok port := by
  obtain ⟨hi, hhi⟩ := getElem?_of_lt (b := data) (i := i) (by omega)
  obtain ⟨lo, hlo⟩ := getElem?_of_lt (b := data) (i := i + 1) (by omega)
  refine ⟨(hi.toNat * 256 + lo.toNat).toUInt16, ?_⟩
  rw [portAt, readAt_eq_ok hhi, readAt_eq_ok hlo]
  rfl

theorem ipFromRequest_ok (data : Bytes) (size : Nat) (h : size + 2 ≤ data.length) :
    ∃ ip, ipFromRequest size data = .ok (.sockaddr ip) ∧ ip.addr.length = size := by
  obtain ⟨port, hport⟩ := portAt_ok data h
  have hsize : 0 + size ≤ data.length := by omega
  refine ⟨⟨(data.drop 0).take size, port⟩, ?_, length_slice hsize⟩
  rw [ipFromRequest, slice_eq_ok hsize, hport]
  rfl

theorem domainFromRequest_ok (n : UInt8) (rest : Bytes) (h : n.toNat + 2 ≤ rest.length) :
    ∃ name port, domainFromRequest (n :: rest) = .ok (.domainName name port) := by
  have hname : 1 + n.toNat ≤ (n :: rest).length := by simp only [length_cons]; omega
  obtain ⟨port, hport⟩ := portAt_ok (n :: rest) (i := n.toNat + 1) (by simp only [length_cons]; omega)
  refine ⟨((n :: rest).drop 1).take n.toNat, port, ?_⟩
  show (do
    let name ← slice (n :: rest) 1 n.toNat
    let port ← portAt (n :: rest) (n.toNat + 1)
    return ConnectionAddress.domainName name port) = _
  rw [slice_eq_ok hname, hport]
  rfl

variable {type : AddressType} {data : Bytes} {n : Int} {cmd : UInt8}

theorem plainAddrFromRequest_ok (hplain : type.hasAppName = false)
    (hlen : addrLengthFromRequest (some type) data = .ok n) (hn : 0 ≤ n) (hfit : n + 2 ≤ data.length) :
    ∃ dst, plainAddrFromRequest type data = .ok dst ∧ dst.WellFormed := by
  cases type with
  | ipv4 =>
    cases hlen
    obtain ⟨ip, hip, hsize⟩ := ipFromRequest_ok data ipv4AddrSize (by omega)
    exact ⟨_, hip, .inl hsize⟩
  | ipv6 =>
    cases hlen
    obtain ⟨ip, hip, hsize⟩ := ipFromRequest_ok data ipv6AddrSize (by omega)
    exact ⟨_, hip, .inr hsize⟩
  | domainName =>
    cases data with
    | nil => cases hlen; omega
    | cons b rest =>
      cases hlen
      obtain ⟨name, port, h⟩ := domainFromRequest_ok b rest (by simp only [length_cons] at hfit; omega)
      exact ⟨_, h, trivial⟩
  | ipv4AppName | domainNameAppName | ipv6AppName => cases hplain

theorem addrLength_plain (happ : type.hasAppName = true)
    (hlen : addrLengthFromRequest (some type) data = .ok n) (hn : 0 ≤ n) :
    ∃ b rest k, data = b :: rest ∧ n = 1 + b.toNat + k ∧ 0 ≤ k ∧
      addrLengthFromRequest (some type.plain) (data.drop (b.toNat + 1)) = .ok k := by
  cases data with
  | nil => cases type <;> cases happ <;> cases hlen <;> omega
  | cons b rest =>
    cases type with
    | ipv4 | domainName | ipv6 => cases happ
    | ipv4AppName =>
      cases hlen
      exact ⟨b, rest, ipv4AddrSize, rfl, rfl, by decide, rfl⟩
    | ipv6AppName =>
      cases hlen
      exact ⟨b, rest, ipv6AddrSize, rfl, rfl, by decide, rfl⟩
    | domainNameAppName =>
      obtain ⟨-, h⟩ | ⟨m, hm, h⟩ := addrLength_domainNameAppName b rest
      · rw [h] at hlen
        cases hlen
        omega
      rw [h] at hlen
      cases hlen
      have hdrop : ((b :: rest).drop (b.toNat + 1)).head? = some m := by
        rw [List.head?_drop]
        exact hm
      obtain ⟨tail, htail⟩ := List.head?_eq_some_iff.mp hdrop
      refine ⟨b, rest, 1 + m.toNat, rfl, by omega, by omega, ?_⟩
      rw [htail]
      rfl

section

variable (hlen : addrLengthFromRequest (some type) data = .ok n) (hn : 0 ≤ n)
  (hfit : n + 2 ≤ data.length)
include hlen hn hfit

theorem dstAddrFromRequest_ok : ∃ dst, dstAddrFromRequest type data = .ok dst ∧ dst.WellFormed := by
  cases happ : type.hasAppName with
  | false =>
    obtain ⟨dst, h, hwf⟩ := plainAddrFromRequest_ok happ hlen hn hfit
    refine ⟨dst, ?_, hwf⟩
    rw [dstAddrFromRequest, happ]
    exact h
  | true =>
    obtain ⟨b, rest, k, rfl, rfl, hk, hplain⟩ := addrLength_plain happ hlen hn
    have hnoApp : type.plain.hasAppName = false := by cases type <;> rfl
    have hrest : k + 2 ≤ ((b :: rest).drop (b.toNat + 1)).length := by
      rw [length_drop]
      omega
    obtain ⟨dst, h, hwf⟩ := plainAddrFromRequest_ok hnoApp hplain hk hrest
    refine ⟨dst, ?_, hwf⟩
    rw [dstAddrFromRequest, happ]
    exact h

theorem appNameFromRequest_ok : ∃ name, appNameFromRequest type data = .ok name := by
  cases happ : type.hasAppName with
  | false =>
    refine ⟨[], ?_⟩
    rw [appNameFromRequest, happ]
    rfl
  | true =>
    obtain ⟨b, rest, k, rfl, rfl, hk, -⟩ := addrLength_plain happ hlen hn
    have hname : 1 + b.toNat ≤ (b :: rest).length := by omega
    refine ⟨((b :: rest).drop 1).take b.toNat, ?_⟩
    rw [appNameFromRequest, happ]
    exact slice_eq_ok hname

end

/-! ## Authentication stays inside the bytes received -/

def UsernamePasswordRequest.bytes (req : UsernamePasswordRequest) : Bytes :=
  req.ver :: req.uname.length.toUInt8 :: req.uname ++ req.passwd.length.toUInt8 :: req.passwd

theorem toUInt8_toNat (b : UInt8) : b.toNat.toUInt8 = b := by
  rw [Nat.toUInt8_eq, UInt8.ofNat_toNat]

theorem readUsernamePasswordRequest_spec : ∃ read, readUsernamePasswordRequest chunk = .ok read ∧
      ∀ req processed, read = some (req, processed) → chunk = req.bytes ++ chunk.drop processed := by
  rcases chunk with _ | ⟨ver, _ | ⟨ulen, data⟩⟩
  · exact ⟨none, rfl, by simp⟩
  · exact ⟨none, rfl, by simp⟩
  by_cases hshort : data.length ≤ ulen.toNat
  · exact ⟨none, if_pos hshort, by simp⟩
  have hname : 0 + ulen.toNat ≤ data.length := by omega
  obtain ⟨plen, hplen⟩ := getElem?_of_lt (b := data) (i := ulen.toNat) (by omega)
  have hunfold : readUsernamePasswordRequest (ver :: ulen :: data) =
      if (data.drop (ulen.toNat + 1)).length < plen.toNat then .ok none
      else do
        let passwd ← slice (data.drop (ulen.toNat + 1)) 0 plen.toNat
        return some (⟨ver, (data.drop 0).take ulen.toNat, passwd⟩, 3 + ulen.toNat + plen.toNat) := by
    rw [readUsernamePasswordRequest, if_neg hshort, slice_eq_ok hname, readAt_eq_ok hplen]
    rfl
  rw [hunfold]
  by_cases hpass : (data.drop (ulen.toNat + 1)).length < plen.toNat
  · exact ⟨none, if_pos hpass, by simp⟩
  have hpasswd : 0 + plen.toNat ≤ (data.drop (ulen.toNat + 1)).length := by omega
  rw [if_neg hpass, slice_eq_ok hpasswd]
  refine ⟨_, rfl, ?_⟩
  intro req processed hreq
  cases hreq
  have hu := length_slice hname
  have hp := length_slice hpasswd
  have hplen' : data.drop ulen.toNat = plen :: data.drop (ulen.toNat + 1) := by
    obtain ⟨hlt, hget⟩ := List.getElem?_eq_some_iff.mp hplen
    rw [← hget]
    exact drop_eq_getElem_cons hlt
  have hdrop : (ver :: ulen :: data).drop (3 + ulen.toNat + plen.toNat) =
      (data.drop (ulen.toNat + 1)).drop plen.toNat := by
    rw [drop_drop, show 3 + ulen.toNat + plen.toNat = (ulen.toNat + 1 + plen.toNat) + 1 + 1 by omega]
    rfl
  rw [hdrop]
  simp only [UsernamePasswordRequest.bytes, hu, hp, toUInt8_toNat, cons_append, append_assoc]
  rw [drop_zero, drop_zero, take_append_drop, ← hplen', take_append_drop]

def authRequest (methods : Bytes) : Bytes := socks5Ver :: methods.length.toUInt8 :: methods

theorem chooseMethod_supported {supported m : UInt8} {chosen : Option UInt8} {methods : Bytes}
    (h : chooseMethod supported chosen methods = some m) :
    chosen = some m ∨ m = supported ∨ m = supported + appNameMethod := by
  induction methods generalizing chosen with
  | nil => exact .inl h
  | cons x rest ih =>
    unfold chooseMethod at h
    split at h
    · rename_i hx
      rcases ih h with hs | hs
      · cases hs
        exact .inr (.inl hx)
      · exact .inr hs
    · split_ifs at h with hx
      · cases h
        exact .inr (.inr hx)
      · exact ih h

theorem processAuthRequest_spec : ∃ verdict, processAuthRequest config chunk = .ok verdict ∧
      ∀ m n, verdict = .chosen m n → (m = config.supportedMethod ∨ m = config.supportedMethod + appNameMethod) ∧
        ∃ methods, chunk = authRequest methods ++ chunk.drop n := by
  rcases chunk with _ | ⟨ver, _ | ⟨nmethods, data⟩⟩
  · exact ⟨.wait, rfl, by simp⟩
  · exact ⟨.wait, rfl, by simp⟩
  by_cases hver : ver ≠ socks5Ver
  · exact ⟨.failed, if_pos hver, by simp⟩
  by_cases hshort : data.length < nmethods.toNat
  · refine ⟨.wait, ?_, by simp⟩
    rw [processAuthRequest, if_neg hver, if_pos hshort]
  have hmethods : 0 + nmethods.toNat ≤ data.length := by omega
  refine ⟨_, by rw [processAuthRequest, if_neg hver, if_neg hshort, slice_eq_ok hmethods]; rfl, ?_⟩
  intro m n h
  cases hchosen : chooseMethod config.supportedMethod none ((data.drop 0).take nmethods.toNat) with
  | none =>
    rw [hchosen] at h
    cases h
  | some x =>
    rw [hchosen] at h
    cases h
    refine ⟨(chooseMethod_supported hchosen).resolve_left (by simp), (data.drop 0).take nmethods.toNat, ?_⟩
    have hdrop : (ver :: nmethods :: data).drop (2 + nmethods.toNat) = data.drop nmethods.toNat := by
      rw [Nat.add_comm]
      rfl
    rw [hdrop, authRequest, length_slice hmethods, toUInt8_toNat, not_not.mp hver]
    simp only [cons_append]
    rw [drop_zero, take_append_drop]

theorem processUsernamePassword_spec : ∃ verdict, processUsernamePassword config chunk = .ok verdict ∧
      ∀ n, verdict = .matched n → chunk =
        (UsernamePasswordRequest.mk usernamePasswordVer config.username config.password).bytes ++ chunk.drop n := by
  obtain ⟨read, hread, hfront⟩ := readUsernamePasswordRequest_spec chunk
  refine ⟨_, by rw [processUsernamePassword, hread]; rfl, ?_⟩
  intro n h
  rcases read with _ | ⟨req, processed⟩
  · cases h
  simp only [Option.elim_some] at h
  split at h
  · cases h
  rename_i hver
  split at h
  · rename_i heq
    cases h
    have hchunk := hfront req n rfl
    rw [heq.1, heq.2, ← not_not.mp hver]
    exact hchunk
  · cases h

/-! ## Requests and datagrams -/

/-- The bytes that the type of the address and the lengths inside it ask for are there. -/
def addressArrived : Option AddressType → Bytes → Bool
  | none, _ => true
  | some .ipv4, data => ipv4AddrSize ≤ data.length
  | some .ipv6, data => ipv6AddrSize ≤ data.length
  | some .domainName, n :: rest => n.toNat ≤ rest.length
  | some .ipv4AppName, n :: rest => n.toNat + ipv4AddrSize ≤ rest.length
  | some .ipv6AppName, n :: rest => n.toNat + ipv6AddrSize ≤ rest.length
  | some .domainNameAppName, n :: rest => rest[n.toNat]?.any fun m => n.toNat + 1 + m.toNat ≤ rest.length
  | some _, [] => false

/-- The bytes of a request whose address has not arrived when the request turns out to be invalid. -/
def InvalidBeforeAddress : Bytes → Prop
  | ver :: cmd :: rsv :: atyp :: dstAddr =>
    (invalidStatus ver cmd rsv atyp).isSome ∧ addressArrived (ofCode atyp) dstAddr = false
  | _ => False

theorem addressArrived_iff {type : Option AddressType} (h : addrLengthFromRequest type data = .ok n) :
    addressArrived type data = true ↔ 0 ≤ n ∧ n ≤ data.length := by
  rcases type with _ | t
  · cases h
    simp [addressArrived]
  cases data with
  | nil => cases t <;> cases h <;> simp [addressArrived]
  | cons b rest =>
    cases t with
    | ipv4 | ipv6 => cases h; simp only [addressArrived, decide_eq_true_eq]; omega
    | domainName | ipv4AppName | ipv6AppName =>
      cases h; simp only [addressArrived, decide_eq_true_eq, length_cons]; omega
    | domainNameAppName =>
      obtain ⟨hshort, hlen⟩ | ⟨m, hm, hlen⟩ := addrLength_domainNameAppName b rest
      · rw [hlen] at h
        cases h
        have hnone : rest[b.toNat]? = none :=
          List.getElem?_eq_none (by rw [length_cons] at hshort; omega)
        simp [addressArrived, hnone]
      · rw [hlen] at h
        cases h
        have hm' : rest[b.toNat]? = some m := hm
        simp only [addressArrived, hm', Option.any_some, decide_eq_true_eq, length_cons]
        omega

theorem length_replyHeader (status atyp : UInt8) : (replyHeader status atyp).length = 4 := rfl

theorem length_putU16 (v : UInt16) : (putU16 v).length = 2 := rfl

theorem invalidRequestReply_ok_iff (status : ReplyStatus) (atyp : UInt8) (dstAddr : Bytes) (port : UInt16)
    (hn : n ≤ 512) : (∃ reply, invalidRequestReply status atyp dstAddr n port = .ok reply) ↔
      0 ≤ n ∧ n ≤ dstAddr.length := by
  constructor
  · rintro ⟨reply, h⟩
    obtain ⟨buf, -, h⟩ := bind_eq_ok.mp h
    obtain ⟨buf', hcopy, -⟩ := bind_eq_ok.mp h
    have := bounds_of_memcpy hcopy
    omega
  · rintro ⟨hpos, hfit⟩
    obtain ⟨m, rfl⟩ := Int.eq_ofNat_of_zero_le hpos
    refine exists_bind (blit_eq_ok (by rw [length_replicate, length_replyHeader]; decide)) fun buf₁ l₁ => ?_
    rw [length_replicate, replyHeaderSize] at l₁
    refine exists_bind (memcpy_eq_ok (by omega) (by rw [replyHeaderSize]; omega)) fun buf₂ l₂ => ?_
    refine exists_bind (blit_eq_ok (by rw [length_putU16, replyHeaderSize]; omega)) fun buf₃ l₃ => ?_
    exact ⟨_, slice_eq_ok (by rw [replyHeaderSize]; omega)⟩

theorem processAddress_spec (cmd : UInt8) {dstAddr : Bytes} (hlen : addrLengthFromRequest (some type) dstAddr = .ok n) :
    ∃ verdict, processAddress cmd type dstAddr n = .ok verdict ∧
      ∀ cmd' dst appName toDrain, verdict = .request cmd' dst appName toDrain → cmd' = cmd ∧ dst.WellFormed := by
  unfold processAddress
  split_ifs with hready
  · exact ⟨.wait, rfl, by simp⟩
  rw [not_or, Int.not_lt, Int.not_lt] at hready
  obtain ⟨dst, hdst, hwf⟩ := dstAddrFromRequest_ok hlen hready.1 hready.2
  obtain ⟨appName, happ⟩ := appNameFromRequest_ok hlen hready.1 hready.2
  rw [hdst, happ]
  refine ⟨_, rfl, ?_⟩
  rintro cmd' dst' appName' toDrain ⟨⟩
  exact ⟨rfl, hwf⟩

theorem ofCode_isSome_of_valid {ver rsv atyp : UInt8} (h : invalidStatus ver cmd rsv atyp = none) :
    ∃ type, ofCode atyp = some type := by
  unfold invalidStatus at h
  split at h
  · cases h
  split at h
  · cases h
  split at h
  · cases h
  split at h
  · cases h
  · rename_i hsome
    exact Option.ne_none_iff_exists'.mp hsome

theorem processRequest_ok_iff (port : UInt16) (chunk : Bytes) :
    (∃ verdict, processRequest port chunk = .ok verdict) ↔ ¬ InvalidBeforeAddress chunk := by
  rcases chunk with _ | ⟨ver, _ | ⟨cmd, _ | ⟨rsv, _ | ⟨atyp, dstAddr⟩⟩⟩⟩
  · exact ⟨fun _ h => h, fun _ => ⟨_, rfl⟩⟩
  · exact ⟨fun _ h => h, fun _ => ⟨_, rfl⟩⟩
  · exact ⟨fun _ h => h, fun _ => ⟨_, rfl⟩⟩
  · exact ⟨fun _ h => h, fun _ => ⟨_, rfl⟩⟩
  obtain ⟨n, hlen, hn⟩ := addrLengthFromRequest_ok (ofCode atyp) dstAddr
  cases hstatus : invalidStatus ver cmd rsv atyp with
  | none =>
    obtain ⟨type, htype⟩ := ofCode_isSome_of_valid hstatus
    rw [htype] at hlen
    obtain ⟨verdict, hverdict, -⟩ := processAddress_spec cmd hlen
    refine ⟨fun _ h => ?_, fun _ => ⟨verdict, ?_⟩⟩
    · have hsome := h.1
      rw [hstatus] at hsome
      cases hsome
    · simp only [processRequest, htype, hlen, hstatus]
      exact hverdict
  | some status =>
    have hreply := invalidRequestReply_ok_iff status atyp dstAddr port hn
    have hprocess : processRequest port (ver :: cmd :: rsv :: atyp :: dstAddr) = do
        let reply ← invalidRequestReply status atyp dstAddr n port
        return .invalid reply := by
      simp [processRequest, hlen, ok_bind, hstatus]
    rw [hprocess]
    constructor
    · rintro ⟨verdict, h⟩ ⟨-, hmissing⟩
      obtain ⟨reply, hok, -⟩ := bind_eq_ok.mp h
      rw [(addressArrived_iff hlen).mpr (hreply.mp ⟨reply, hok⟩)] at hmissing
      cases hmissing
    · intro hnot
      have harrived : addressArrived (ofCode atyp) dstAddr = true :=
        Bool.of_not_eq_false fun hmissing => hnot ⟨by rw [hstatus]; rfl, hmissing⟩
      obtain ⟨reply, hok⟩ := hreply.mpr ((addressArrived_iff hlen).mp harrived)
      exact ⟨.invalid reply, by rw [hok]; rfl⟩

theorem cmd_of_valid {ver rsv atyp : UInt8} (h : invalidStatus ver cmd rsv atyp = none) :
    ver = socks5Ver ∧ (cmd = cmdConnect ∨ cmd = cmdUdpAssociate) := by
  unfold invalidStatus at h
  split at h
  · cases h
  rename_i hver
  split at h
  · cases h
  · rename_i hcmd
    exact ⟨not_not.mp hver, Classical.or_iff_not_imp_left.mpr fun hne =>
      not_not.mp fun hne' => hcmd ⟨hne, hne'⟩⟩

theorem processRequest_request {port : UInt16} {chunk : Bytes} {dst : ConnectionAddress} {appName : Bytes}
    {toDrain : Nat} (h : processRequest port chunk = .ok (.request cmd dst appName toDrain)) :
    dst.WellFormed ∧ chunk[1]? = some cmd ∧ (cmd = cmdConnect ∨ cmd = cmdUdpAssociate) ∧
      asksToConnect chunk = (cmd == cmdConnect) := by
  rcases chunk with _ | ⟨ver, _ | ⟨cmd', _ | ⟨rsv, _ | ⟨atyp, dstAddr⟩⟩⟩⟩
  · cases h
  · cases h
  · cases h
  · cases h
  obtain ⟨n, hlen, -⟩ := addrLengthFromRequest_ok (ofCode atyp) dstAddr
  cases hstatus : invalidStatus ver cmd' rsv atyp with
  | some status =>
    simp only [processRequest, hlen, ok_bind, hstatus] at h
    obtain ⟨reply, -, hreply⟩ := bind_eq_ok.mp h
    cases hreply
  | none =>
    obtain ⟨type, htype⟩ := ofCode_isSome_of_valid hstatus
    obtain ⟨hver, hcmd⟩ := cmd_of_valid hstatus
    rw [htype] at hlen
    simp only [processRequest, htype, hlen, ok_bind, hstatus] at h
    obtain ⟨verdict, hverdict, hspec⟩ := processAddress_spec cmd' hlen
    rw [hverdict] at h
    cases h
    obtain ⟨rfl, hwf⟩ := hspec _ _ _ _ rfl
    exact ⟨hwf, rfl, hcmd, by rw [hver]; rfl⟩

theorem ipPacket_spec {size : Nat} (hsize : size = ipv4AddrSize ∨ size = ipv6AddrSize)
    (hdst : ∃ ip, dstAddrFromRequest type data = .ok (.sockaddr ip) ∧ ip.addr.length = size)
    (happ : appNameFromRequest type data = .ok []) (headerSize : Nat) : ∃ verdict, (do
      let dst ← dstAddrFromRequest type data
      let appName ← appNameFromRequest type data
      return UdpVerdict.packet dst appName headerSize) = .ok verdict ∧
      ∀ dst appName size, verdict = .packet dst appName size → ∃ ip, dst = .sockaddr ip ∧
        (ip.addr.length = ipv4AddrSize ∨ ip.addr.length = ipv6AddrSize) := by
  obtain ⟨ip, hdst, rfl⟩ := hdst
  refine ⟨_, by rw [hdst, happ]; rfl, ?_⟩
  rintro dst appName size ⟨⟩
  exact ⟨ip, rfl, hsize⟩

theorem processUdpHeader_spec (data : Bytes) : ∃ verdict, processUdpHeader data = .ok verdict ∧
      ∀ dst appName size, verdict = .packet dst appName size → ∃ ip, dst = .sockaddr ip ∧
        (ip.addr.length = ipv4AddrSize ∨ ip.addr.length = ipv6AddrSize) := by
  rcases data with _ | ⟨rsv, _ | ⟨rsv', _ | ⟨frag, _ | ⟨atyp, dstAddr⟩⟩⟩⟩
  · exact ⟨.ignored 0, rfl, by simp⟩
  · exact ⟨.ignored 0, rfl, by simp⟩
  · exact ⟨.ignored 0, rfl, by simp⟩
  · exact ⟨.ignored 0, rfl, by simp⟩
  obtain ⟨n, hlen, -⟩ := addrLengthFromRequest_ok (ofCode atyp) dstAddr
  rw [processUdpHeader, hlen, ok_bind]
  split
  · exact ⟨.ignored 0, rfl, by simp⟩
  split
  · exact ⟨.ignored (-1), rfl, by simp⟩
  split
  · exact ⟨.ignored (-1), rfl, by simp⟩
  split
  · rename_i hv4
    rw [hv4] at hlen
    have hsize : n = ipv4AddrSize := by cases hlen; rfl
    exact @ipPacket_spec .ipv4 dstAddr _ (.inl rfl) (ipFromRequest_ok dstAddr ipv4AddrSize (by omega)) rfl _
  · split_ifs with hv6
    · rw [hv6] at hlen
      have hsize : n = ipv6AddrSize := by cases hlen; rfl
      exact @ipPacket_spec .ipv6 dstAddr _ (.inr rfl) (ipFromRequest_ok dstAddr ipv6AddrSize (by omega)) rfl _
    · exact ⟨.ignored 0, rfl, by simp⟩

/-! ## Replies fit their buffers -/

theorem tcpReply_ok {dst : ConnectionAddress} (h : dst.WellFormed) (result : ConnectResult)
    (port : UInt16) : ∃ reply, tcpReply dst result port = .ok reply := by
  have hsizes : (addrField dst).length ≤ socksAddrSize dst ∧ addrFieldSize dst ≤ socksAddrSize dst := by
    cases dst with
    | domainName name port => simp [addrField, socksAddrSize, addrFieldSize, Nat.add_comm]
    | sockaddr ip =>
      rcases h with h | h <;>
        simp [addrField, socksAddrSize, addrFieldSize, cSocklen, h, ipv4AddrSize, ipv6AddrSize]
  refine exists_bind (blit_eq_ok (by rw [length_replicate, length_replyHeader, replyHeaderSize]; omega))
    fun buf₁ l₁ => ?_
  rw [length_replicate, replyHeaderSize] at l₁
  refine exists_bind (blit_eq_ok (by rw [replyHeaderSize]; omega)) fun buf₂ l₂ => ?_
  refine exists_bind (blit_eq_ok (by rw [length_putU16, replyHeaderSize]; omega)) fun buf₃ l₃ => ?_
  exact ⟨_, slice_eq_ok (by rw [replyHeaderSize]; omega)⟩

theorem putBoundAddr_ok (v4 : Bool) {bound : SocketAddress} {buf : Bytes}
    (h : bound.addr.length ≤ ipv6AddrSize) (hbuf : buf.length = 32) :
    ∃ out, putBoundAddr v4 bound buf = .ok out ∧ out.length = 32 := by
  have hh : bound.addr.length ≤ 16 := h
  unfold putBoundAddr
  split
  · obtain ⟨buf₂, h₂, l₂⟩ : ∃ out, blit buf replyHeaderSize bound.addr = .ok out ∧ _ :=
      blit_eq_ok (by rw [replyHeaderSize]; omega)
    rw [h₂, ← hbuf, ← l₂]
    exact blit_eq_ok (by rw [length_putU16, replyHeaderSize]; omega)
  · rw [← hbuf]
    exact blit_eq_ok (by rw [hbuf]; cases v4 <;> decide)

theorem associationReply_ok (v4 : Bool) (result : ConnectResult) {bound : SocketAddress}
    (h : bound.addr.length ≤ ipv6AddrSize) : ∃ reply, associationReply v4 result bound = .ok reply := by
  have hn : replyHeaderSize + (if v4 then ipv4AddrSize else ipv6AddrSize) + 2 ≤ 32 := by
    cases v4 <;> decide
  refine exists_bind (blit_eq_ok (by rw [length_replyHeader]; decide)) fun buf₁ l₁ => ?_
  refine exists_bind (putBoundAddr_ok v4 h (l₁.trans (by decide))) fun buf₂ l₂ => ?_
  exact ⟨_, slice_eq_ok (by omega)⟩

theorem udpReply_ok {ip : SocketAddress}
    (h : ip.addr.length = ipv4AddrSize ∨ ip.addr.length = ipv6AddrSize) (data : Bytes) :
    ∃ reply, udpReply ip data = .ok reply := by
  have hfield : ip.addr.length =
      if ip.addr.length = ipv4AddrSize then ipv4AddrSize else ipv6AddrSize := by
    split_ifs with hne
    · assumption
    · exact h.resolve_left hne
  refine exists_bind (blit_eq_ok (by simp only [length_replicate, length_cons, length_nil]; omega)) fun buf₁ l₁ => ?_
  rw [length_replicate] at l₁
  refine exists_bind (blit_eq_ok (by omega)) fun buf₂ l₂ => ?_
  refine exists_bind (blit_eq_ok (by rw [length_putU16]; omega)) fun buf₃ l₃ => ?_
  obtain ⟨buf₄, h₄, -⟩ : ∃ out, blit buf₃ (4 + ip.addr.length + 2) data = .ok out ∧ _ := blit_eq_ok (by omega)
  exact ⟨buf₄, h₄⟩

end TrustTunnel.Socks5
