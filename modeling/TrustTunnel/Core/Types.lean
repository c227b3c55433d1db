import Mathlib.Algebra.Ring.Int.Defs
import Mathlib.Algebra.Ring.Nat
import Mathlib.Data.List.Basic

/-!
# Core.Types

Data shared by the models of the client core: byte strings with the C locale's character classes,
socket addresses, errors, and the events an upstream raises to its owner.
-/

namespace TrustTunnel

abbrev Bytes := List UInt8

def ascii (s : String) : Bytes := s.toList.map fun c => c.toNat.toUInt8

def chr (c : Char) : UInt8 := c.toNat.toUInt8

/-- `isspace` in the C locale: blank, tab, line feed, vertical tab, form feed, carriage return. -/
def isSpace (b : UInt8) : Bool := b == 32 || (9 ≤ b && b ≤ 13)

def isDigit (b : UInt8) : Bool := 48 ≤ b && b ≤ 57

def isUpper (b : UInt8) : Bool := 65 ≤ b && b ≤ 90

def isLower (b : UInt8) : Bool := 97 ≤ b && b ≤ 122

def isAlnum (b : UInt8) : Bool := isDigit b || isUpper b || isLower b

def toLower (b : UInt8) : UInt8 := if isUpper b then b + 32 else b

def lower (s : Bytes) : Bytes := s.map toLower

inductive VpnMode where
  | general
  | selective
  deriving DecidableEq

/-- The mode's name in the configuration file (`VPN_MODE_MAP`). -/
def VpnMode.name : VpnMode → Bytes
  | .general => ascii "general"
  | .selective => ascii "selective"

/-! ## Addresses -/

/-- `SocketAddress`: 4 or 16 address bytes and a port; no address bytes when it is not valid. -/
structure SocketAddress where
  addr : Bytes
  port : UInt16
  deriving DecidableEq

namespace SocketAddress

def empty : SocketAddress := ⟨[], 0⟩

def valid (a : SocketAddress) : Bool := !a.addr.isEmpty

def setPort (a : SocketAddress) (p : UInt16) : SocketAddress := { a with port := p }

end SocketAddress

/-- `TunnelAddress`, a socket address or a name with a port. -/
inductive TunnelAddress where
  | sock (a : SocketAddress)
  | name (n : Bytes) (port : Nat)
  deriving DecidableEq

structure TunnelAddressPair where
  src : SocketAddress
  dst : TunnelAddress
  deriving DecidableEq

/-- `IPPROTO_TCP` and `IPPROTO_UDP`, the protocols of a connection. -/
inductive IpProto where
  | tcp
  | udp
  deriving DecidableEq

structure SockAddrTag where
  addr : SocketAddress
  appname : Bytes
  deriving DecidableEq

/-! ## Errors and upstream events -/

/-- `VpnErrorCode`, the two socket errors the core raises itself, and any other socket error. -/
inductive ErrorCode where
  | noError
  | error
  | invalidSettings
  | addrInUse
  | invalidState
  | authRequired
  | locationUnavailable
  | certificateVerificationFailed
  | certificateNotYetValid
  | eventLoopFailure
  | initialConnectFailed
  | fatalConnectivityError
  | connReset
  | connRefused
  | other (n : Int)
  deriving DecidableEq

structure VpnError where
  code : ErrorCode
  text : String
  deriving DecidableEq

abbrev ConnId := Nat

def nonId : ConnId := 18446744073709551615

inductive ServerEvent where
  | sessionOpened
  | sessionClosed
  | connectionOpened (id : ConnId)
  | connectionClosed (id : ConnId)
  | read (id : ConnId) (data : Bytes)
  | dataSent (id : ConnId) (length : Nat)
  | healthCheckError (e : VpnError)
  | getAvailableToSend (id : ConnId)
  | error (id : ConnId) (e : VpnError)
  | echoReply
  deriving DecidableEq

/-- The event ends the connection `id`: it was closed, or failed with an error carrying `id`. -/
def ServerEvent.reports (id : ConnId) : ServerEvent → Bool
  | .connectionClosed i => i == id
  | .error i _ => i == id
  | _ => false

def ServerEvent.endsSession : ServerEvent → Bool
  | .sessionClosed => true
  | .error i _ => i == nonId
  | _ => false

end TrustTunnel
