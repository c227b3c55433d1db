import TrustTunnel.Core.Wire
import TrustTunnel.Lib.Map
import TrustTunnel.Lib.Stream
import TrustTunnel.Lib.System

/-!
# Udp.Mux

`HttpUdpMultiplexer`: UDP "connections" carried as framed packets in one HTTP stream.

Times are milliseconds of the steady clock, given with each call that reads it. The tasks submitted
to the event loop are flags of the connection: erasing a connection cancels them. The order in which
a hash table is walked is not fixed; `reorder` changes it.
-/

namespace TrustTunnel.Udp

open Lib List

/-! ## Packet format -/

def udppktLengthSize : Nat := 4

def udppktAddrSize : Nat := 16

def udppktPortSize : Nat := 2

def udppktInPrefixSize : Nat := udppktLengthSize + 2 * (udppktAddrSize + udppktPortSize)

def udppktApplenSize : Nat := 1

def maxUdpPayloadSize : Nat := 65535 - 8

def maxUdpInPacketLength : Nat := maxUdpPayloadSize + udppktInPrefixSize - udppktLengthSize

def udpTimeout : Nat := 300 * 1000

/-! ## State -/

inductive MultiplexerState where
  | idle
  | established
  deriving DecidableEq

inductive RecvConnectionState where
  | idle
  | payload
  | dropping
  deriving DecidableEq

structure Connection where
  readEnabled : Bool
  addr : TunnelAddressPair
  appName : Bytes
  sentBytesSinceFlush : Nat
  timeout : Nat
  openTask : Bool
  closeTask : Bool
  deriving DecidableEq

structure RecvConnection where
  state : RecvConnectionState
  id : ConnId
  bytesLeft : Nat
  buffer : Bytes

def RecvConnection.empty : RecvConnection := ⟨.idle, nonId, 0, []⟩

structure PacketInfo where
  id : ConnId
  payloadLength : Nat

structure Mux where
  state : MultiplexerState
  streamId : Nat
  recv : RecvConnection
  addrToId : Map TunnelAddressPair ConnId
  connections : Map ConnId Connection
  timer : Bool
  pendingError : Option VpnError

inductive Output where
  | raised (e : ServerEvent)
  /-- these bytes were read as the prefix of a packet -/
  | parsed (header : Bytes)
  | consumed (size : Nat)
  | sent (packet : Bytes)
  | opened (ok : Bool)
  | result (n : Int)
  | assertFailed
  deriving DecidableEq

abbrev Part := Mux × List Output

variable (m : Mux) (id : ConnId)

namespace Mux

def init : Mux := ⟨.idle, 0, .empty, ∅, ∅, false, none⟩

/-! ## Receiving -/

/-- `read_prefix`; `none` is a missing optional. -/
def readPrefix (data : Bytes) : Option PacketInfo := do
  let (length, data) ← Wire.getU32 data
  if length < udppktInPrefixSize - udppktLengthSize then some ⟨nonId, 0⟩
  else
    let (srcAddr, data) ← Wire.getIpPadded data
    let (srcPort, data) ← Wire.getU16 data
    let (dstAddr, data) ← Wire.getIpPadded data
    let (dstPort, _) ← Wire.getU16 data
    if maxUdpInPacketLength < length then some ⟨nonId, 0⟩
    else
      let payloadLength := length - (udppktInPrefixSize - udppktLengthSize)
      match m.addrToId.lookup ⟨dstAddr.setPort dstPort, .sock (srcAddr.setPort srcPort)⟩ with
      | some id => some ⟨id, payloadLength⟩
      | none => some ⟨nonId, payloadLength⟩

def dropPacket (info : PacketInfo) : Bool :=
  if info.id = nonId then true
  else
    match m.connections.lookup info.id with
    | none => true
    | some conn => !conn.readEnabled

/-- One pass of the loop of `process_read_event`: the receiver after it, the events, the bytes left.
`none` is a failed assertion. -/
def recvPass (r : RecvConnection) (data : Bytes) : Option (RecvConnection × List Output × Bytes) :=
  match r.state with
  | .idle =>
    if udppktInPrefixSize ≤ r.buffer.length then none
    else
      let toRead := min (udppktInPrefixSize - r.buffer.length) data.length
      let buffer := r.buffer ++ data.take toRead
      if buffer.length < udppktInPrefixSize then
        some ({ r with buffer := buffer }, [], data.drop toRead)
      else
        (m.readPrefix buffer).map fun info =>
          (if m.dropPacket info then ⟨.dropping, r.id, info.payloadLength, []⟩
            else ⟨.payload, info.id, info.payloadLength, []⟩,
          [.parsed buffer], data.drop toRead)
  | .payload =>
    if (m.connections.lookup r.id).isNone then none
    else
      let toRead := min r.bytesLeft data.length
      let buffer := r.buffer ++ data.take toRead
      if r.bytesLeft - toRead = 0 then
        some (.empty, [.raised (.read r.id buffer)], data.drop toRead)
      else some ({ r with buffer := buffer, bytesLeft := r.bytesLeft - toRead }, [], data.drop toRead)
  | .dropping =>
    let toDrop := min r.bytesLeft data.length
    if r.bytesLeft - toDrop = 0 then some (.empty, [], data.drop toDrop)
    else some ({ r with bytesLeft := r.bytesLeft - toDrop }, [], data.drop toDrop)

def touch (now : Nat) : Mux :=
  match m.recv.state with
  | .payload =>
    { m with connections := m.connections.modify m.recv.id fun c =>
        { c with timeout := now + udpTimeout } }
  | _ => m

def readPass (now : Nat) (m : Mux) (data : Bytes) : Option (Mux × List Output × Bytes) :=
  (m.recvPass m.recv data).map fun p => ({ m.touch now with recv := p.1 }, p.2)

/-- Between packets every pass takes a byte; elsewhere a pass may only return to that state. -/
def rank (r : RecvConnection) : Nat :=
  match r.state with
  | .idle => 0
  | _ => 1

theorem rank_le (r : RecvConnection) : rank r ≤ 1 := by
  unfold rank
  split <;> decide

theorem recvPass_progress {m : Mux} {r r' : RecvConnection} {d rest : Bytes} {o : List Output}
    (hd : d ≠ []) (h : m.recvPass r d = some (r', o, rest)) :
    rest.length < d.length ∨ (rest.length = d.length ∧ rank r' < rank r) := by
  have hpos : 0 < d.length := length_pos_iff.mpr hd
  unfold recvPass at h
  split at h
  · split at h
    · cases h
    dsimp only at h
    split at h
    · cases h
      simp only [length_drop]
      omega
    · obtain ⟨info, -, heq⟩ := Option.map_eq_some_iff.mp h
      cases heq
      simp only [length_drop]
      omega
  · rename_i hstate
    split at h
    · cases h
    dsimp only at h
    split at h
    · cases h
      simp only [length_drop, rank, hstate, RecvConnection.empty]
      omega
    · cases h
      simp only [length_drop]
      omega
  · rename_i hstate
    dsimp only at h
    split at h
    · cases h
      simp only [length_drop, rank, hstate, RecvConnection.empty]
      omega
    · cases h
      simp only [length_drop]
      omega

/-- The loop of `process_read_event` over a fixed table. -/
def recvLoop : ReadLoop RecvConnection UInt8 Output :=
  ⟨m.recvPass, rank, 1, rank_le, fun _ _ _ _ _ hd h => recvPass_progress hd h⟩

/-- The loop of `process_read_event`. -/
def readLoop (now : Nat) : ReadLoop Mux UInt8 Output :=
  ⟨readPass now, fun m => rank m.recv, 1, fun m => rank_le m.recv, by
    intro m d m' o rest hd h
    obtain ⟨⟨r, o', rest'⟩, hp, heq⟩ := Option.map_eq_some_iff.mp h
    cases heq
    exact recvPass_progress hd hp⟩

def processReadEvent (now : Nat) (data : Bytes) : Option Part :=
  ((readLoop now).feed m data).map fun p => (p.1, p.2 ++ [.consumed data.length])

/-! ## Connections -/

/-- Erase the connection; the rest of a packet that was being received for it is dropped. -/
def cleanConnectionData (m : Mux) : Mux :=
  match m.connections.lookup id with
  | none => m
  | some conn =>
    { m with
      recv := if m.recv.id = id then { m.recv with state := .dropping } else m.recv
      addrToId := m.addrToId.erase conn.addr
      connections := m.connections.erase id }

/-- `open_connection`; `stream` is what `send_connect_request_callback` returns when asked. -/
def openConnection (now : Nat) (id : ConnId) (addr : TunnelAddressPair) (appName : Bytes)
    (stream : Option Nat) : Part :=
  match addr.dst with
  | .name _ _ => (m, [.opened false])
  | .sock _ =>
    if (m.connections.lookup id).isSome then (m, [.opened false])
    else
      let conn : Connection := ⟨false, addr, appName, 0, now + udpTimeout, true, false⟩
      match m.state, stream with
      | .idle, none => (m, [.opened false])
      | .idle, some streamId =>
        ({ m with
          state := .established, streamId := streamId
          connections := m.connections.emplace id conn, timer := true }, [.opened true])
      | .established, _ =>
        ({ m with connections := m.connections.emplace id conn, timer := true }, [.opened true])

def completeUdpConnection : Part :=
  match m.state, m.connections.lookup id with
  | .established, some conn =>
    ({ m with
      connections := m.connections.modify id fun c => { c with openTask := false }
      addrToId := m.addrToId.insert conn.addr id }, [.raised (.connectionOpened id)])
  | _, _ => (m, [])

def closeConnectionNow (m : Mux) : Part :=
  if (m.connections.lookup id).isNone then (m, [])
  else (m.cleanConnectionData id, [.raised (.connectionClosed id)])

def closeConnection (async : Bool) : Part :=
  if !async then m.closeConnectionNow id
  else if (m.connections.lookup id).isNone then (m, [.raised (.connectionClosed id)])
  else ({ m with connections := m.connections.modify id fun c => { c with closeTask := true } }, [])

def expire (now : Nat) (id : ConnId) (m : Mux) : Part :=
  match m.connections.lookup id with
  | none => (m, [])
  | some conn =>
    if conn.timeout ≤ now then (m.cleanConnectionData id, [.raised (.connectionClosed id)])
    else (m, [])

def timerCallback (now : Nat) : Part := forEach (expire now) m.connections.keys m

def setReadEnabled (v : Bool) : Mux :=
  { m with connections := m.connections.modify id fun c => { c with readEnabled := v } }

/-! ## Sending -/

/-- The buffer is made for the whole name and filled with the first 255 bytes of it. -/
def composeUdpPacket (src dst : SocketAddress) (appName data : Bytes) : Bytes :=
  let fullLength := udppktInPrefixSize + udppktApplenSize + appName.length + data.length
  let name := appName.take 255
  let written := Wire.putU32 (fullLength - udppktLengthSize) ++ Wire.putIpPadded src
    ++ Wire.putU16 src.port ++ Wire.putIpPadded dst ++ Wire.putU16 dst.port ++ Wire.putU8 name.length ++ name ++ data
  written ++ List.replicate (fullLength - written.length) 0

/-- `send`; `ok` says whether `send_data_callback` returns 0. -/
def send (now : Nat) (id : ConnId) (data : Bytes) (ok : Bool) : Part :=
  match m.connections.lookup id with
  | none => (m, [.result (-1)])
  | some conn =>
    match conn.addr.dst with
    | .name _ _ => (m, [.assertFailed])
    | .sock dst =>
      let packet := composeUdpPacket conn.addr.src dst conn.appName data
      if ok then
        ({ m with connections := m.connections.modify id fun c =>
            { c with
              timeout := now + udpTimeout
              sentBytesSinceFlush := c.sentBytesSinceFlush + data.length } },
          [.sent packet, .result data.length])
      else (m, [.sent packet, .result (-1)])

def reportSent (m : Mux) : Part :=
  match m.connections.lookup id with
  | none => (m, [])
  | some conn =>
    if 0 < conn.sentBytesSinceFlush then
      ({ m with connections := m.connections.modify id fun c => { c with sentBytesSinceFlush := 0 } },
        [.raised (.dataSent id conn.sentBytesSinceFlush)])
    else (m, [])

def reportSentBytes : Part := forEach reportSent m.connections.keys m

/-! ## The stream -/

def handleResponse (statusCode : Nat) : Mux :=
  if statusCode ≠ 200 then
    { m with pendingError := some ⟨.connRefused, "HTTP stream creation failed"⟩ }
  else m

def reset : Mux :=
  { m with state := .idle, streamId := 0, addrToId := ∅, recv := .empty, timer := false }

def closeOne (error : Option VpnError) (id : ConnId) (m : Mux) : Part :=
  (m.cleanConnectionData id, [.raised (match error with
      | some e => .error id e
      | none => .connectionClosed id)])

def close (servErr : VpnError) : Part :=
  let error := m.pendingError.or (if servErr.code ≠ .noError then some servErr else none)
  andDo (forEach (closeOne error) m.connections.keys m) fun m' => (m'.reset, [])

end Mux

/-! ## Runs -/

inductive Call where
  | openConnection (now : Nat) (id : ConnId) (addr : TunnelAddressPair) (appName : Bytes)
      (stream : Option Nat)
  | closeConnection (id : ConnId) (async : Bool)
  | openTask (id : ConnId)
  | closeTask (id : ConnId)
  | timer (now : Nat)
  | setReadEnabled (id : ConnId) (v : Bool)
  | send (now : Nat) (id : ConnId) (data : Bytes) (ok : Bool)
  | reportSentBytes
  /-- what the owner passes on for the stream the multiplexer has -/
  | response (statusCode : Nat)
  | data (now : Nat) (bytes : Bytes)
  | close (servErr : VpnError)
  | reorder (id : ConnId)

namespace Mux

/-- A task runs while its connection is there and it is still to be run. -/
def runTask (pending : Connection → Bool) (task : Part) : Part :=
  if (m.connections.lookup id).any pending then task else (m, [])

def step : Call → Part
  | .openConnection now id addr appName stream => m.openConnection now id addr appName stream
  | .closeConnection id async => m.closeConnection id async
  | .openTask id => m.runTask id Connection.openTask (m.completeUdpConnection id)
  | .closeTask id => m.runTask id Connection.closeTask (m.closeConnectionNow id)
  | .timer now => if m.timer then m.timerCallback now else (m, [])
  | .setReadEnabled id v => (m.setReadEnabled id v, [])
  | .send now id data ok => if m.state = .established then m.send now id data ok else (m, [])
  | .reportSentBytes => m.reportSentBytes
  | .response statusCode =>
    if m.state = .established then (m.handleResponse statusCode, []) else (m, [])
  | .data now bytes =>
    if m.state = .established then (m.processReadEvent now bytes).getD (m, [.assertFailed])
    else (m, [])
  | .close servErr => m.close servErr
  | .reorder id =>
    match m.connections.lookup id with
    | some conn => ({ m with connections := m.connections.insert id conn }, [])
    | none => (m, [])

def system : System Mux Call Output := ⟨init, step⟩

end Mux
end TrustTunnel.Udp
