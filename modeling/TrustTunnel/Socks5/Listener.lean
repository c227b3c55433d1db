import TrustTunnel.Lib.Action
import TrustTunnel.Lib.Map
import TrustTunnel.Socks5.Message

/-!
# Socks5.Listener

The SOCKS5 listener (`socks5_listener.cpp`). A TCP connection from a client goes through the
handshake, then carries a stream or keeps a UDP relay alive; each pair of addresses seen by a relay is
a connection of its own. The owner hears of connections by events and answers by calls, which it may
also make from inside the events `CONNECT_REQUEST` and `READ`.

Connections and relays are objects on the heap. A pointer to one is its identifier, which is never
used again; the tables hold the objects that are alive, and every access through a pointer is checked.
Memory violations, accesses to freed objects and failed assertions end the run.
-/

namespace TrustTunnel.Socks5

open Lib

/-! ## State -/

inductive ConnectionState where
  | idle
  | waitingUsernamePassword
  | waitingRequest
  | waitingConnectResult
  | waitingAccept
  | established
  | failed
  deriving DecidableEq

/-- `state >= S5CONNS_WAITING_CONNECT_RESULT` -/
def ConnectionState.pastRequest (s : ConnectionState) : Bool :=
  ConnectionState.waitingConnectResult.ctorIdx ≤ s.ctorIdx

structure AddressPair where
  src : SocketAddress
  dst : ConnectionAddress
  deriving DecidableEq

/-- A connection with what its socket has received and not given away yet. `relay` is set for UDP
connections. -/
structure Connection where
  state : ConnectionState := .idle
  proto : Option IpProto := none
  addr : AddressPair := ⟨.empty, .sockaddr .empty⟩
  appName : Bytes := []
  unread : Bytes := []
  readEnabled : Bool := false
  readable : Bool := false
  sentBytesSinceFlush : Nat := 0
  pendingUdpPackets : List Bytes := []
  relay : ConnId := 0
  deriving DecidableEq

structure UdpRelay where
  connectionsByAddr : Map AddressPair ConnId

/-- `nextId` is the identifier `SOCKS5L_EVENT_GENERATE_CONN_ID` asks the owner for. -/
structure Socks5Listener where
  connections : Map ConnId Connection
  udpRelays : Map ConnId UdpRelay
  asyncTask : Bool
  connsWithPendingUdp : List ConnId
  nextId : ConnId

/-- Events for the owner, bytes given to sockets, and what happens to connections and relays. -/
inductive Out where
  | connectRequest (id : ConnId) (proto : Option IpProto) (src : SocketAddress)
      (dst : ConnectionAddress) (appName : Bytes)
  | connectionAccepted (id : ConnId)
  | read (id : ConnId) (data : Bytes)
  | dataSent (id : ConnId) (length : Nat)
  | connectionClosed (id : ConnId) (error : VpnError)
  | write (id : ConnId) (data : Bytes)
  | sendTo (src : SocketAddress) (data : Bytes)
  | setRst (id : ConnId)
  | returned (result : Int)
  | received (id : ConnId) (data : Bytes)
  | created (id : ConnId)
  | createdUdp (id relay : ConnId)
  | freed (id : ConnId)
  | createdRelay (id : ConnId)
  | freedRelay (id : ConnId)
  deriving DecidableEq

inductive Fault where
  | memory (v : Violation)
  | useAfterFree
  | assertion
  deriving DecidableEq

abbrev Action := Act Socks5Listener Out Fault

def noError : VpnError := ⟨.noError, ""⟩

def succeeded (e : VpnError) : Bool := e.code == .noError

variable (relay : ConnId) (s : Socks5Listener) (config : Config) (id : ConnId)

namespace Socks5Listener

def setConn (f : Connection → Connection) : Socks5Listener :=
  { s with connections := s.connections.modify id f }

def eraseConn : Socks5Listener :=
  { s with connections := s.connections.erase id }

def setRelay (f : UdpRelay → UdpRelay) : Socks5Listener :=
  { s with udpRelays := s.udpRelays.modify id f }

def isUdpAssociation (conn : Connection) : Bool :=
  conn.proto == none && (s.udpRelays.lookup id).isSome

end Socks5Listener

/-! ## Objects -/

open Act

def deref : Action Connection := do
  let s ← get
  match s.connections.lookup id with
  | some conn => pure conn
  | none => fail .useAfterFree

def derefRelay : Action UdpRelay := do
  let s ← get
  match s.udpRelays.lookup id with
  | some relay => pure relay
  | none => fail .useAfterFree

def update (f : Connection → Connection) : Action Unit := do
  let _ ← deref id
  modify fun s => s.setConn id f

def access {α : Type} (x : Except Violation α) : Action α := lift .memory x

def generateConnId : Action ConnId := do
  let s ← get
  modify fun s => { s with nextId := s.nextId + 1 }
  pure s.nextId

def destroyConnection : Action Unit := do
  let conn ← deref id
  modify fun s => s.eraseConn id
  if conn.proto = some .udp then
    let _ ← derefRelay conn.relay
    modify fun s => s.setRelay conn.relay fun r =>
      { r with connectionsByAddr := r.connectionsByAddr.erase conn.addr }
    raise (.freed id)
  else raise (.freed id)

def closeRelayed (error : VpnError) (id : ConnId) : Action Unit := do
  let _ ← deref id
  raise (.connectionClosed id error)
  destroyConnection id

def terminateUdpAssociation (error : VpnError) : Action Unit := do
  let conn ← deref id
  let s ← get
  if s.isUdpAssociation id conn then
    let relay ← derefRelay id
    forEach (closeRelayed error) relay.connectionsByAddr.values
    modify fun s => { s with udpRelays := s.udpRelays.erase id }
    destroyConnection id
    raise (.freedRelay id)
  else fail .assertion

/-! ## Calls of the owner -/

/-- What a reply to a client comes to: the port of the socket's own address, and the result of the
write. -/
structure ReplyEnv where
  localPort : UInt16
  write : VpnError

def completeTcpConnection (result : ConnectResult) (env : ReplyEnv) : Action Unit := do
  let conn ← deref id
  let reply ← access (tcpReply conn.addr.dst result env.localPort)
  raise (.write id reply)
  if succeeded env.write then pure ()
  else
    raise (.connectionClosed id env.write)
    destroyConnection id

def completeUdpConnection (result : ConnectResult) : Action Unit := do
  if result = .success then
    raise (.connectionAccepted id)
    update id fun c => { c with state := .established }
    modify fun s =>
      { s with connsWithPendingUdp := s.connsWithPendingUdp ++ [id], asyncTask := true }
  else
    raise (.connectionClosed id noError)
    destroyConnection id

def completeConnectRequest (result : ConnectResult) (env : ReplyEnv) : Action Unit := do
  let s ← get
  match s.connections.lookup id with
  | none => pure ()
  | some conn =>
    if conn.state = .failed then pure ()
    else if conn.state = .waitingConnectResult then
      update id fun c => { c with state := if result = .success then .waitingAccept else .failed }
      if conn.proto = some .tcp then completeTcpConnection id result env
      else completeUdpConnection id result
    else fail .assertion

/-- How the operating system takes data: the result of the call, and whether it was taken or can be
tried again. -/
structure SendEnv where
  result : Int
  taken : Bool

def sendData (data : Bytes) (env : SendEnv) : Action Unit := do
  let s ← get
  match s.connections.lookup id with
  | none => raise (.returned (-1))
  | some conn =>
    if conn.state = .established then
      if conn.proto = some .tcp then
        raise (.write id data)
        raise (.returned env.result)
      else
        match conn.addr.dst with
        | .domainName _ _ => fail .assertion
        | .sockaddr ip =>
          let reply ← access (udpReply ip data)
          let _ ← derefRelay conn.relay
          raise (.sendTo conn.addr.src reply)
          if env.taken then
            update id fun c => { c with sentBytesSinceFlush := c.sentBytesSinceFlush + data.length }
            raise (.returned 0)
          else raise (.returned env.result)
    else fail .assertion

def turnRead (on : Bool) : Action Unit := do
  let s ← get
  match s.connections.lookup id with
  | none => pure ()
  | some conn =>
    if conn.proto = some .tcp then update id fun c => { c with readEnabled := on }
    else update id fun c => { c with readable := on }

def closeConnection (graceful : Bool) : Action Unit := do
  let s ← get
  match s.connections.lookup id with
  | none => pure ()
  | some conn =>
    if !graceful && conn.proto == some .tcp then
      raise (.setRst id)
      raise (.connectionClosed id noError)
      destroyConnection id
    else
      raise (.connectionClosed id noError)
      destroyConnection id

/-- What the owner does from inside an event, for the event's connection. -/
inductive Reaction where
  | close (graceful : Bool)
  | complete (result : ConnectResult) (env : ReplyEnv)
  | turnRead (on : Bool)

def react : Reaction → Action Unit
  | .close graceful => closeConnection id graceful
  | .complete result env => completeConnectRequest id result env
  | .turnRead on => turnRead id on

/-- The owner's answer to `READ`: what it does, and the result it fills in. -/
structure Answer where
  reactions : List Reaction := []
  result : Int := 0

/-! ## The handshake -/

structure Env where
  reply : ReplyEnv
  remote : SocketAddress
  /-- where the socket of a new relay is bound, if it can be created -/
  udpSocket : Option SocketAddress
  boundSize : ∀ a ∈ udpSocket, a.addr.length ≤ Wire.ipv6AddrSize
  onRequest : List Reaction
  onRead : List Answer

def closeAndReport (error : VpnError) : Action Unit := do
  let conn ← deref id
  if conn.state.pastRequest then
    raise (.connectionClosed id error)
    let s ← get
    if (s.connections.lookup id).isSome then destroyConnection id else pure ()
  else destroyConnection id

/-- `tcp_socket_drain`. Bytes can always be taken from the front of a socket's buffer, all of them if
there are not as many. -/
def drain (toDrain : Nat) : Action Unit :=
  update id fun c => { c with unread := c.unread.drop toDrain }

def respond (data : Bytes) (toDrain : Nat) (env : Env) : Action Unit := do
  let _ ← deref id
  raise (.write id data)
  if succeeded env.reply.write then drain id toDrain
  else closeAndReport id env.reply.write

def onIdle (chunk : Bytes) (env : Env) : Action Unit := do
  let verdict ← access (processAuthRequest config chunk)
  match verdict with
  | .wait => drain id 0
  | .chosen method toDrain =>
    update id fun c => { c with
      state := if method = usernamePassword ∨ method = usernamePassword + appNameMethod then
        .waitingUsernamePassword else .waitingRequest }
    respond id [socks5Ver, method] toDrain env
  | .failed =>
    update id fun c => { c with state := .failed }
    respond id [socks5Ver, noAcceptableMethods] chunk.length env

def onUsernamePassword (chunk : Bytes) (env : Env) : Action Unit := do
  let verdict ← access (processUsernamePassword config chunk)
  match verdict with
  | .wait => drain id 0
  | .matched toDrain =>
    update id fun c => { c with state := .waitingRequest }
    respond id [usernamePasswordVer, 0] toDrain env
  | .failed =>
    update id fun c => { c with state := .failed }
    respond id [usernamePasswordVer, 1] chunk.length env

def raiseConnectRequest (reactions : List Reaction) : Action Unit := do
  let conn ← deref id
  raise (.connectRequest id conn.proto conn.addr.src conn.addr.dst conn.appName)
  forEach (react id) reactions

/-- A relay for the connection, if there is a socket for it. -/
def createRelay (hasEvent : Bool) : Action Unit := do
  let s ← get
  if hasEvent then
    if (s.udpRelays.lookup id).isSome then fail .assertion
    else
      modify fun s => { s with udpRelays := s.udpRelays.insert id ⟨∅⟩ }
      raise (.createdRelay id)
  else pure ()

/-- The relay is put in the table, the reply is sent, and the relay terminated if it does not go out. -/
def startUdpAssociation (reply : Bytes) (hasEvent : Bool) (write : VpnError) : Action Bool := do
  createRelay id hasEvent
  raise (.write id reply)
  if succeeded write then
    if hasEvent then
      update id fun c => { c with readEnabled := true }
      pure true
    else pure false
  else
    terminateUdpAssociation id write
    pure false

def associationResult (hasEvent : Bool) : ConnectResult := if hasEvent then .success else .reject

def completeUdpAssociation (env : Env) : Action Bool := do
  let conn ← deref id
  let bound := env.udpSocket.getD .empty
  let atyp := associationAtyp conn.addr.dst bound
  if atyp = .domainName then fail .assertion
  else
    let reply ← access (associationReply (atyp == .ipv4) (associationResult env.udpSocket.isSome) bound)
    startUdpAssociation id reply env.udpSocket.isSome env.reply.write

def onValidRequest (cmd : UInt8) (toDrain : Nat) (env : Env) : Action Unit := do
  if cmd = cmdConnect then
    update id fun c => { c with
      state := .waitingConnectResult
      addr := { c.addr with src := env.remote } }
    raiseConnectRequest id env.onRequest
    let s ← get
    if (s.connections.lookup id).isSome then
      update id fun c => { c with readEnabled := false }
      drain id toDrain
    else drain id toDrain
  else
    let associated ← completeUdpAssociation id env
    update id fun c => { c with state := if associated then .established else .failed }
    drain id toDrain

def onRequest (chunk : Bytes) (env : Env) : Action Unit := do
  let verdict ← access (processRequest env.reply.localPort chunk)
  update id fun c => { c with proto := if asksToConnect chunk then some .tcp else c.proto }
  match verdict with
  | .wait => drain id 0
  | .request cmd dst appName toDrain =>
    update id fun c => { c with addr := { c.addr with dst := dst }, appName := appName }
    onValidRequest id cmd toDrain env
  | .invalid reply =>
    update id fun c => { c with state := .failed }
    respond id reply chunk.length env

/-! ## Events of TCP sockets -/

/-- The loop on a socket that carries a stream, `budget` passes at most; `j` were made. -/
def readStream (id : ConnId) (eof : Bool) (env : Env) : Nat → Nat → Action Unit
  | 0, _ => drain id 0
  | budget + 1, j => do
    let conn ← deref id
    if conn.readEnabled then
      let answer := env.onRead.getD j {}
      raise (.read id conn.unread)
      forEach (react id) answer.reactions
      if answer.result < 0 then closeAndReport id noError
      else if answer.result = 0 then drain id 0
      else
        drain id answer.result.toNat
        let conn ← deref id
        if conn.unread.isEmpty then
          if eof then closeAndReport id noError else drain id 0
        else readStream id eof env budget (j + 1)
    else drain id 0

def readBudget : Nat := 64

/-- The socket has a chunk of bytes for a connection that does not keep a relay alive. -/
def onChunk (conn : Connection) (eof : Bool) (env : Env) : Action Unit :=
  match conn.state with
  | .idle => onIdle config id conn.unread env
  | .waitingUsernamePassword => onUsernamePassword config id conn.unread env
  | .waitingRequest => onRequest id conn.unread env
  | .waitingAccept => closeAndReport id noError
  | .waitingConnectResult => closeAndReport id noError
  | .established => readStream id eof env readBudget 0
  | .failed => drain id conn.unread.length

/-- `TCP_SOCKET_EVENT_READABLE`; `eof` tells whether the client has finished sending. -/
def onReadable (eof : Bool) (env : Env) : Action Unit := do
  let conn ← deref id
  let s ← get
  if conn.unread.isEmpty then
    if eof then
      if s.isUdpAssociation id conn then
        terminateUdpAssociation id ⟨.other (-1), "EOF on TCP socket of UDP association session"⟩
      else closeAndReport id noError
    else pure ()
  else if s.isUdpAssociation id conn then
    terminateUdpAssociation id ⟨.other (-1), "Got some data on TCP socket of UDP association session"⟩
  else onChunk config id conn eof env

def onSocketError (error : VpnError) : Action Unit := do
  let conn ← deref id
  let s ← get
  if s.isUdpAssociation id conn then terminateUdpAssociation id error
  else closeAndReport id error

def onSent (bytes : Nat) : Action Unit := do
  let conn ← deref id
  let s ← get
  if !s.isUdpAssociation id conn && conn.state == .established then raise (.dataSent id bytes)
  else pure ()

def reportSent : Action Unit := do
  let conn ← deref id
  if conn.state = .established ∧ 0 < conn.sentBytesSinceFlush then
    raise (.dataSent id conn.sentBytesSinceFlush)
    update id fun c => { c with sentBytesSinceFlush := 0 }
  else pure ()

def onWriteFlush : Action Unit := do
  let conn ← deref id
  let s ← get
  if s.isUdpAssociation id conn then
    match conn.state with
    | .established =>
      let relay ← derefRelay id
      forEach reportSent relay.connectionsByAddr.values
    | .failed => terminateUdpAssociation id ⟨.other (-1), ""⟩
    | _ => pure ()
  else if conn.proto = some .tcp then
    match conn.state with
    | .waitingAccept =>
      raise (.connectionAccepted id)
      update id fun c => { c with state := .established }
    | .failed => closeAndReport id noError
    | _ => pure ()
  else pure ()

inductive SocketEvent where
  | readable (eof : Bool) (env : Env)
  | error (e : VpnError)
  | sent (bytes : Nat)
  | writeFlush

def sockHandler (what : SocketEvent) : Action Unit := do
  let s ← get
  if (s.connections.lookup id).isSome then
    match what with
    | .readable eof env => onReadable config id eof env
    | .error e => onSocketError id e
    | .sent bytes => onSent id bytes
    | .writeFlush => onWriteFlush id
  else pure ()

/-! ## Datagrams -/

def handleUdpRead (data : Bytes) (reactions : List Reaction) : Action Unit := do
  let conn ← deref id
  match conn.state with
  | .idle =>
    update id fun c => { c with
      state := .waitingConnectResult
      pendingUdpPackets := c.pendingUdpPackets ++ [data] }
    raiseConnectRequest id reactions
  | .waitingConnectResult =>
    update id fun c => { c with pendingUdpPackets := c.pendingUdpPackets ++ [data] }
  | .established =>
    if conn.readable then
      raise (.read id data)
      forEach (react id) reactions
    else pure ()
  | .failed => pure ()
  | _ => fail .assertion

/-- The connection of the relay for a pair of addresses, a new one if there is none. -/
def findUdpConnection (key : AddressPair) (appName : Bytes) : Action ConnId := do
  let r ← derefRelay relay
  match r.connectionsByAddr.lookup key with
  | some id => pure id
  | none =>
    let id ← generateConnId
    modify fun s => s.setRelay relay fun r =>
      { r with connectionsByAddr := r.connectionsByAddr.insert key id }
    let s ← get
    if (s.connections.lookup id).isSome then fail .assertion
    else
      modify fun s => { s with
        connections := s.connections.insert id { proto := some .udp, addr := key, relay := relay, appName := appName } }
      raise (.createdUdp id relay)
      pure id

def onDatagram (src : SocketAddress) (data : Bytes) (reactions : List Reaction) : Action Unit := do
  let verdict ← access (processUdpHeader data)
  match verdict with
  | .ignored _ => pure ()
  | .packet dst appName size =>
    let id ← findUdpConnection relay ⟨src, dst⟩ appName
    handleUdpRead id (data.drop size) reactions

inductive UdpEvent where
  | datagram (src : SocketAddress) (data : Bytes) (reactions : List Reaction)
  | timeout (e : VpnError)

def udpEventHandler (what : UdpEvent) : Action Unit := do
  let s ← get
  if (s.connections.lookup relay).isSome && (s.udpRelays.lookup relay).isSome then
    match what with
    | .datagram src data reactions => onDatagram relay src data reactions
    | .timeout e => terminateUdpAssociation relay e
  else fail .assertion

def sendPackets (id : ConnId) : List Bytes → List Answer → Action Unit
  | [], _ => pure ()
  | packet :: rest, answers => do
    let answer := answers.headD {}
    raise (.read id packet)
    forEach (react id) answer.reactions
    if answer.result < 0 then
      let _ ← deref id
      raise (.connectionClosed id ⟨.other (-1), "Read handler failed"⟩)
      destroyConnection id
    else sendPackets id rest answers.tail

def sendPendingOf (answers : ConnId → List Answer) (id : ConnId) : Action Unit := do
  let s ← get
  match s.connections.lookup id with
  | none => pure ()
  | some conn =>
    update id fun c => { c with pendingUdpPackets := [] }
    sendPackets id conn.pendingUdpPackets (answers id)

def sendPendingUdpData (answers : ConnId → List Answer) : Action Unit := do
  let s ← get
  modify fun s => { s with asyncTask := false, connsWithPendingUdp := [] }
  forEach (sendPendingOf answers) s.connsWithPendingUdp

/-! ## Start and stop -/

/-- `on_accept`; `acquired` tells whether the socket could be set up. -/
def onAccept (acquired : Bool) : Action Unit := do
  let id ← generateConnId
  raise (.created id)
  if acquired then
    modify fun s => { s with connections := s.connections.insert id { readEnabled := true } }
  else raise (.freed id)

def cleanUpUdpRelays : Action Unit := do
  let s ← get
  forEach (fun id => terminateUdpAssociation id noError) s.udpRelays.keys

/-- Connections are reported under their place in the table, `slot`, and not under their
identifier. -/
def cleanUpConnections (slot : ConnId → ConnId) : Action Unit := do
  let s ← get
  forEach (fun id => do
      destroyConnection id
      raise (.connectionClosed (slot id) noError))
    s.connections.keys

def stop (slot : ConnId → ConnId) : Action Unit := do
  modify fun s => { s with asyncTask := false }
  cleanUpUdpRelays
  cleanUpConnections slot

/-! ## The system -/

/-- The calls of the event loop and of the owner. `received` are bytes that come to a client's socket;
`slot` is the place of each connection in the hash table at that time. -/
inductive Call where
  | accept (acquired : Bool)
  | received (id : ConnId) (data : Bytes)
  | socket (id : ConnId) (what : SocketEvent)
  | udp (relay : ConnId) (what : UdpEvent)
  | task (answers : ConnId → List Answer)
  | complete (id : ConnId) (result : ConnectResult) (env : ReplyEnv)
  | send (id : ConnId) (data : Bytes) (env : SendEnv)
  | turnRead (id : ConnId) (on : Bool)
  | close (id : ConnId) (graceful : Bool)
  | stop (slot : ConnId → ConnId)

def onReceived (data : Bytes) : Action Unit := do
  update id fun c => { c with unread := c.unread ++ data }
  raise (.received id data)

def perform : Call → Action Unit
  | .accept acquired => onAccept acquired
  | .received id data => onReceived id data
  | .socket id what => sockHandler config id what
  | .udp relay what => udpEventHandler relay what
  | .task answers => sendPendingUdpData answers
  | .complete id result env => completeConnectRequest id result env
  | .send id data env => sendData id data env
  | .turnRead id on => turnRead id on
  | .close id graceful => closeConnection id graceful
  | .stop slot => stop slot

/-- The owner has been told of the connection, as far as its state shows. -/
def Connection.announced (c : Connection) : Bool := c.proto.isSome && c.state.pastRequest

/-- Which calls are made. Sockets belong to connections that are not UDP ones, relays have their event
while they exist, the task runs once it is submitted, and the owner names connections it was told of. -/
def Socks5Listener.enabled : Call → Bool
  | .accept _ => true
  | .received id _ => (s.connections.lookup id).any fun c => c.proto != some .udp
  | .socket id _ => (s.connections.lookup id).any fun c => c.proto != some .udp
  | .udp relay _ => (s.udpRelays.lookup relay).isSome
  | .task _ => s.asyncTask
  | .complete id _ _ => (s.connections.lookup id).all Connection.announced
  | .send id _ _ => (s.connections.lookup id).all Connection.announced
  | .turnRead id _ => (s.connections.lookup id).all Connection.announced
  | .close id _ => (s.connections.lookup id).all Connection.announced
  | .stop _ => true

structure Run where
  listener : Socks5Listener
  fault : Option Fault

def faultOf : Except Fault Unit → Option Fault
  | .ok _ => none
  | .error f => some f

def step (r : Run) (e : Call) : Run × List Out :=
  if r.fault.isNone && r.listener.enabled e then
    let (result, s, outs) := perform config e r.listener []
    (⟨s, faultOf result⟩, outs)
  else (r, [])

/-- `socks5_listener_create`: nothing if the credentials are incomplete, or missing on an address that
is not a loopback one. -/
def create (isLoopback : SocketAddress → Bool) (listenAddress : SocketAddress) : Option Run :=
  if config.username.isEmpty ≠ config.password.isEmpty then none
  else if (listenAddress.valid && !isLoopback listenAddress) && config.username.isEmpty then none
  else some ⟨⟨∅, ∅, false, [], 1⟩, none⟩

def listener : System Run Call Out where
  init := ⟨⟨∅, ∅, false, [], 1⟩, none⟩
  step := step config

end TrustTunnel.Socks5
