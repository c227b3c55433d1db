import TrustTunnel.Core.Wire
import TrustTunnel.Lib.Map
import TrustTunnel.Lib.Multimap
import TrustTunnel.Lib.System

/-!
# Dns.Client

The client that talks to the local DNS proxy (`core/src/dns_client.cpp`). A request gets an id of its
own for the wire. It is in flight, or it is deferred until the TCP connection is there and can take it.
Both kinds are in a map by id and in one by deadline. Answered requests leave the first map only; the
timer clears the second one.

The response handler may send requests. What it sends is part of a call (`Env.handler`), a list for
each response that the call raises.

`events` is what happened so far. The clock and `env` belong to the surroundings.
-/

namespace TrustTunnel.Dns.Client

open Lib

structure Request where
  elapsed : Nat
  bytes : Bytes
  tcp : Bool

/-- How the surroundings answer during a call: `room` requests fit into the TCP socket, `connects`
tells whether `tcp_socket_connect` succeeds, `handler` is what the response handler sends. -/
structure Env where
  room : Nat := 0
  connects : List Bool := []
  handler : List (List Request) := []

inductive Out where
  | returned (id : UInt16) (tcp : Bool) (originalId : Bytes) (deadline : Nat)
  | refused
  | sent (id : UInt16)
  | connected
  /-- the TCP connection is lost, or could not be made -/
  | failed
  | chunk (bytes : Bytes)
  | reply (tcp : Bool) (message : Bytes)
  | response (id : UInt16) (data : Bytes) (now : Nat)
  deriving DecidableEq

structure DnsClient where
  requestTimeout : Nat
  nextRequestId : UInt16 := 0
  originalIdByRequestId : Map UInt16 Bytes := ∅
  requestIdByDeadline : List (Nat × UInt16) := []
  deferredRequestIdByDeadline : List (Nat × UInt16) := []
  deferredRequestByRequestId : Map UInt16 Bytes := ∅
  tcpSocket : Bool := false
  tcpSocketIsConnecting : Bool := false
  timer : Bool := false
  responseSize : Option UInt16 := none
  responseBuffer : Bytes := []
  clock : Nat := 0
  env : Env := {}
  events : List Out := []

variable (c : DnsClient)

namespace DnsClient

def raise (o : Out) : DnsClient := { c with events := c.events ++ [o] }

/-! ## Sending -/

def connectSocket : DnsClient :=
  let ok := c.env.connects.headD true
  { c with
    tcpSocket := ok
    -- the flag is only set when `tcp_socket_connect` succeeds
    tcpSocketIsConnecting := c.tcpSocketIsConnecting || ok
    env := { c.env with connects := c.env.connects.tail } }

def sendRequest (request : Bytes) (id : UInt16) (tcp : Bool) : DnsClient × Bool :=
  let emplaced := { c with
    originalIdByRequestId := c.originalIdByRequestId.emplace id (request.take 2) }
  if tcp then
    if !c.tcpSocket || c.tcpSocketIsConnecting then
      (if c.tcpSocketIsConnecting then c else c.connectSocket, false)
    else if c.env.room = 0 then (c, false)
    else ({ emplaced with env := { c.env with room := c.env.room - 1 } }.raise (.sent id), true)
  else (emplaced.raise (.sent id), true)

/-- `send`. The id is used up in any case. -/
def send (request : Bytes) (tcp : Bool) : DnsClient :=
  let id := c.nextRequestId
  let c := { c with nextRequestId := id + 1 }
  if request.length < 2 then c.raise .refused
  else if (c.originalIdByRequestId.lookup id).isSome || (c.deferredRequestByRequestId.lookup id).isSome then
    c.raise .refused
  else
    let deadline := c.clock + c.requestTimeout
    let (c, sent) := (c.raise (.returned id tcp (request.take 2) deadline)).sendRequest request id tcp
    let c :=
      if sent then { c with requestIdByDeadline := Multimap.emplace c.requestIdByDeadline deadline id }
      else { c with
        deferredRequestIdByDeadline := Multimap.emplace c.deferredRequestIdByDeadline deadline id
        deferredRequestByRequestId := c.deferredRequestByRequestId.emplace id request }
    { c with timer := true }

def sendAll (c : DnsClient) : List Request → DnsClient
  | [] => c
  | r :: rs => sendAll ({ c with clock := c.clock + r.elapsed }.send r.bytes r.tcp) rs

def respond (id : UInt16) (data : Bytes) : DnsClient :=
  ({ c with env := { c.env with handler := c.env.handler.tail } }.raise (.response id data c.clock)).sendAll
    (c.env.handler.headD [])

/-! ## Reading -/

def onMessage (tcp : Bool) (message : Bytes) : DnsClient :=
  let c := c.raise (.reply tcp message)
  match Wire.getU16 message with
  | none => c
  | some (id, body) =>
    match c.originalIdByRequestId.lookup id with
    | none => c
    | some originalId =>
      { c with originalIdByRequestId := c.originalIdByRequestId.erase id }.respond id (originalId ++ body)

/-- The size before a message, if it is there. -/
def takeSize : DnsClient :=
  match c.responseSize with
  | some _ => c
  | none =>
    match Wire.getU16 c.responseBuffer with
    | none => c
    | some (size, rest) => { c with responseSize := some size, responseBuffer := rest }

/-- The loop of `on_tcp_read`, for at most so many messages. -/
def parse : Nat → DnsClient → DnsClient
  | 0, c => c
  | n + 1, c =>
    let c := c.takeSize
    match c.responseSize with
    | none => c
    | some size =>
      if c.responseBuffer.length < size.toNat then c
      else
        parse n ({ c with
          responseBuffer := c.responseBuffer.drop size.toNat
          responseSize := none }.onMessage true (c.responseBuffer.take size.toNat))

def failAll (c : DnsClient) : List UInt16 → DnsClient
  | [] => c
  | id :: ids => failAll (c.respond id []) ids

/-- `on_tcp_read` with an empty response. The loop goes through the requests that are in flight when it
begins. -/
def onDisconnected : DnsClient :=
  let c := { c with tcpSocket := false }.raise .failed
  let c := c.failAll c.originalIdByRequestId.keys
  let c := { c with requestIdByDeadline := [], originalIdByRequestId := ∅ }
  if c.deferredRequestIdByDeadline.isEmpty then c else c.connectSocket

def onTcpRead (response : Bytes) : DnsClient :=
  if response.isEmpty then c.onDisconnected
  else
    let c := { c with responseBuffer := c.responseBuffer ++ response }.raise (.chunk response)
    c.parse (c.responseBuffer.length + 1)

/-! ## The connection -/

def sendDeferred (c : DnsClient) : List (Nat × UInt16) → DnsClient
  | [] => c
  | (deadline, id) :: rest =>
    let body := (c.deferredRequestByRequestId.lookup id).getD []
    let (c, sent) := c.sendRequest body id true
    if sent then
      sendDeferred { c with
        deferredRequestByRequestId := c.deferredRequestByRequestId.erase id
        requestIdByDeadline := Multimap.emplace c.requestIdByDeadline deadline id
        deferredRequestIdByDeadline := rest } rest
    else c

def sendDeferredRequests : DnsClient := c.sendDeferred c.deferredRequestIdByDeadline

/-- The requests that the response handler has still to send. -/
def toSend : Nat := (c.env.handler.map List.length).sum

/-- The loop of `on_connected` over the deferred requests, from the `i`-th on. Requests that the handler
adds come behind and are visited too. -/
def failDeferred : Nat → Nat → DnsClient → DnsClient
  | 0, _, c => c
  | n + 1, i, c =>
    match c.deferredRequestIdByDeadline[i]? with
    | none => c
    | some (_, id) => failDeferred n (i + 1) (c.respond id [])

def onConnected (ok : Bool) : DnsClient :=
  let c := { c with tcpSocketIsConnecting := false }
  if ok then (c.raise .connected).sendDeferredRequests
  else
    let c := { c with tcpSocket := false }.raise .failed
    let c := failDeferred (c.deferredRequestIdByDeadline.length + c.toSend) 0 c
    { c with deferredRequestIdByDeadline := [], deferredRequestByRequestId := ∅ }

/-! ## The timer -/

/-- An entry is erased after the handler was called for it, which makes no difference to the handler. -/
def timeOutInFlight (e : Nat × UInt16) (rest : List (Nat × UInt16)) : DnsClient :=
  let c := { c with requestIdByDeadline := rest }
  if (c.originalIdByRequestId.lookup e.2).isSome then
    { c with originalIdByRequestId := c.originalIdByRequestId.erase e.2 }.respond e.2 []
  else c

def timeOutDeferred (e : Nat × UInt16) (rest : List (Nat × UInt16)) : DnsClient :=
  let c := { c with deferredRequestIdByDeadline := rest }
  if (c.deferredRequestByRequestId.lookup e.2).isSome then
    { c with deferredRequestByRequestId := c.deferredRequestByRequestId.erase e.2 }.respond e.2 []
  else c

/-- The entries up to the iterator `expiredEnd`, with those that the handler puts before it. -/
def expireInFlight (expiredEnd : Option (Nat × UInt16)) : Nat → DnsClient → DnsClient :=
  Multimap.sweep requestIdByDeadline timeOutInFlight expiredEnd

def expireDeferred (expiredEnd : Option (Nat × UInt16)) : Nat → DnsClient → DnsClient :=
  Multimap.sweep deferredRequestIdByDeadline timeOutDeferred expiredEnd

/-- The loops end: they take an entry off in every pass, and only requests of the handler add one. -/
def timerHandler : DnsClient :=
  let now := c.clock
  let c := { c with timer := false }
  let c := expireInFlight (Multimap.upperBound c.requestIdByDeadline now) (c.requestIdByDeadline.length + c.toSend) c
  let c := expireDeferred (Multimap.upperBound c.deferredRequestIdByDeadline now)
    (c.deferredRequestIdByDeadline.length + c.toSend) c
  if c.requestIdByDeadline.isEmpty && c.deferredRequestIdByDeadline.isEmpty then c
  else { c with timer := true }

end DnsClient

/-! ## The system -/

inductive Event where
  | send (request : Bytes) (tcp : Bool)
  | udpRead (datagram : Bytes)
  | tcpRead (chunk : Bytes)
  | disconnected
  | connected
  | connectFailed
  | writeFlush
  | timer

structure Call where
  elapsed : Nat
  event : Event
  env : Env := {}

/-- Sockets raise events that fit their state, and the timer fires when it is pending. -/
def DnsClient.enabled : Event → Bool
  | .send _ _ => true
  | .udpRead _ => true
  | .tcpRead chunk => c.tcpSocket && !c.tcpSocketIsConnecting && !chunk.isEmpty
  | .disconnected => c.tcpSocket && !c.tcpSocketIsConnecting
  | .connected => c.tcpSocket && c.tcpSocketIsConnecting
  | .connectFailed => c.tcpSocket && c.tcpSocketIsConnecting
  | .writeFlush => c.tcpSocket && !c.tcpSocketIsConnecting
  | .timer => c.timer

def DnsClient.handle : Event → DnsClient
  | .send request tcp => c.send request tcp
  | .udpRead datagram => c.onMessage false datagram
  | .tcpRead chunk => c.onTcpRead chunk
  | .disconnected => c.onTcpRead []
  | .connected => c.onConnected true
  | .connectFailed => c.onConnected false
  | .writeFlush => c.sendDeferredRequests
  | .timer => c.timerHandler

def DnsClient.next (e : Call) : DnsClient :=
  if c.enabled e.event then
    { c with clock := c.clock + e.elapsed, env := e.env }.handle e.event
  else c

def client (requestTimeout : Nat) : System DnsClient Call Empty where
  init := { requestTimeout := requestTimeout }
  step := fun c e => (c.next e, [])

end TrustTunnel.Dns.Client
