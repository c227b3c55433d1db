import TrustTunnel.Core.Types
import TrustTunnel.Lib.Action
import TrustTunnel.Lib.Map

/-!
# Tcpip.UdpCm

UDP connections of the TUN stack (`udp_conn_manager.cpp`, `process_udp` of `ip_hooks.cpp`). The first
datagram between two addresses asks the owner for a decision, and datagrams are queued until it comes.
When the connection is forwarded, the queued packets are put into lwIP again one after the other, come
to the same hook, and from there to the owner.

The hook and the code that puts packets in again call each other; `hook` counts how deep.

lwIP is taken to hand a packet that the hook passes on to `udp_raw_recv` at once.
-/

namespace TrustTunnel.Tcpip.UdpCm

open Lib

def sndQueueLimit : Nat := 256 * 1024

def udpTimeout : Nat := 300

structure AddressPair where
  src : SocketAddress
  dst : SocketAddress
  deriving DecidableEq

structure Datagram where
  headerLen : Nat
  payload : Bytes

/-- `tot_len` of the buffer, IP header included. -/
def Datagram.totLen (d : Datagram) : Nat := d.headerLen + 8 + d.payload.length

inductive UdpConnState where
  | idle
  | requested
  | confirmed
  | rejected
  | unreachable
  deriving DecidableEq

structure UdpConnDescriptor where
  addr : AddressPair
  state : UdpConnState := .idle
  pendingPackets : List Datagram := []
  pendingPacketsBytes : Nat := 0
  connTimeout : Nat := 0

inductive TcpipAction where
  | reject
  | bypass
  | drop
  | rejectUnreachable
  deriving DecidableEq

inductive Reaction where
  | complete (action : TcpipAction)
  | close

structure ReadAnswer where
  closes : Bool := false
  result : Int := 0

structure Owner where
  onRequest : List Reaction := []
  closesAccepted : Bool := false
  onRead : List ReadAnswer := []

/-- `now` is the cached time of the event loop. -/
structure UdpCtx where
  byId : Map ConnId UdpConnDescriptor
  byAddr : Map AddressPair ConnId
  nextId : ConnId
  now : Nat
  owner : Owner

inductive Out where
  /-- a datagram comes from the device for a connection that is forwarded -/
  | came (id : ConnId) (d : Datagram)
  | queued (id : ConnId) (d : Datagram)
  | overflowed (id : ConnId) (d : Datagram)
  | rejected (id : ConnId) (d : Datagram)
  | destUnreach (id : ConnId) (d : Datagram)
  | connectRequest (id : ConnId) (addr : AddressPair)
  | decided (id : ConnId) (action : TcpipAction)
  | accepted (id : ConnId) (closes : Bool)
  | read (id : ConnId) (payload : Bytes) (answer : ReadAnswer)
  | dataSent (id : ConnId) (length : Nat)
  | closed (id : ConnId)

inductive Fault where
  | useAfterFree
  | tooDeep
  deriving DecidableEq

abbrev Action := Act UdpCtx Out Fault

/-! ## Descriptors -/

variable (input : AddressPair → Datagram → Action Unit) (id : ConnId)

open Act

def deref : Action UdpConnDescriptor := do
  let s ← get
  match s.byId.lookup id with
  | some conn => pure conn
  | none => fail .useAfterFree

def UdpCtx.set (s : UdpCtx) (id : ConnId) (f : UdpConnDescriptor → UdpConnDescriptor) : UdpCtx :=
  { s with byId := s.byId.modify id f }

def update (f : UdpConnDescriptor → UdpConnDescriptor) : Action Unit := do
  let _ ← deref id
  modify fun s => s.set id f

def refresh : Action Unit := do
  let s ← get
  update id fun c => { c with connTimeout := s.now + udpTimeout }

def closeDescriptor : Action Unit := do
  let s ← get
  match s.byId.lookup id with
  | none => pure ()
  | some conn =>
    raise (.closed id)
    modify fun s => { s with byId := s.byId.erase id, byAddr := s.byAddr.erase conn.addr }

def enqueueIncomingPacket (d : Datagram) : Action Unit := do
  let conn ← deref id
  if conn.pendingPacketsBytes + d.totLen ≤ sndQueueLimit then
    update id fun c => { c with
      pendingPacketsBytes := c.pendingPacketsBytes + d.totLen
      pendingPackets := c.pendingPackets ++ [d] }
    raise (.queued id d)
  else raise (.overflowed id d)

def createDescriptor (addr : AddressPair) (d : Datagram) : Action ConnId := do
  let s ← get
  modify fun s => { s with
    nextId := s.nextId + 1
    byId := s.byId.insert s.nextId { addr := addr, connTimeout := s.now + udpTimeout }
    byAddr := s.byAddr.insert addr s.nextId }
  enqueueIncomingPacket s.nextId d
  pure s.nextId

/-! ## Packets -/

def nextAnswer : Action ReadAnswer := do
  let s ← get
  modify fun s => { s with owner := { s.owner with onRead := s.owner.onRead.tail } }
  pure (s.owner.onRead.headD {})

def receive (addr : AddressPair) (d : Datagram) : Action Unit := do
  let s ← get
  match s.byAddr.lookup addr with
  | none => pure ()
  | some id =>
    let answer ← nextAnswer
    raise (.read id d.payload answer)
    if answer.closes then closeDescriptor id else pure ()
    if 0 ≤ answer.result then refresh id else closeDescriptor id

/-- The loop of `process_new_connection` over the packets it took from the queue. `input` is
`netif_input`. -/
def replay (input : AddressPair → Datagram → Action Unit) (id : ConnId) : Bool → List Datagram → Action Unit
  | _, [] => pure ()
  | first, d :: rest => do
    let s ← get
    if !first && (s.byId.lookup id).isNone then pure ()
    else
      let conn ← deref id
      input conn.addr d
      replay input id false rest

def processNewConnection : Action Unit := do
  let s ← get
  raise (.accepted id s.owner.closesAccepted)
  if s.owner.closesAccepted then closeDescriptor id else pure ()
  let conn ← deref id
  update id fun c => { c with pendingPackets := [], pendingPacketsBytes := 0 }
  replay input id true conn.pendingPackets

def processRejectedConnection : Action Unit :=
  update id fun c => { c with state := .rejected }

/-- The last packet is put in again, for the ICMP message. -/
def processUnreachableConnection : Action Unit := do
  update id fun c => { c with state := .unreachable }
  let conn ← deref id
  match conn.pendingPackets.getLast? with
  | none => pure ()
  | some d =>
    update id fun c => { c with pendingPackets := c.pendingPackets.dropLast }
    input conn.addr d
    let _ ← deref id
    closeDescriptor id

def completeConnectRequest (action : TcpipAction) : Action Unit := do
  let s ← get
  match s.byId.lookup id with
  | none => pure ()
  | some conn =>
    if conn.state = .requested then
      update id fun c => { c with state := .confirmed }
      refresh id
      raise (.decided id action)
      match action with
      | .reject => processRejectedConnection id
      | .bypass => processNewConnection input id
      | .drop => processRejectedConnection id
      | .rejectUnreachable => processUnreachableConnection input id
    else pure ()

def react : Reaction → Action Unit
  | .complete action => completeConnectRequest input id action
  | .close => closeDescriptor id

def requestConnection : Action Unit := do
  update id fun c => { c with state := .requested }
  let conn ← deref id
  let s ← get
  raise (.connectRequest id conn.addr)
  forEach (react input id) s.owner.onRequest

def processUdp (addr : AddressPair) (d : Datagram) : Action Unit := do
  let s ← get
  match s.byAddr.lookup addr with
  | some id =>
    let conn ← deref id
    match conn.state with
    | .rejected => raise (.rejected id d)
    | .requested => enqueueIncomingPacket id d
    | .unreachable => raise (.destUnreach id d)
    | .idle => receive addr d
    | .confirmed => receive addr d
  | none =>
    let id ← createDescriptor addr d
    requestConnection input id

/-- The hook, entered again from inside at most so many times. -/
def hook : Nat → AddressPair → Datagram → Action Unit
  | 0, _, _ => fail .tooDeep
  | n + 1, addr, d => processUdp (hook n) addr d

/-! ## The system -/

inductive Call where
  | packet (addr : AddressPair) (d : Datagram) (owner : Owner)
  | complete (id : ConnId) (action : TcpipAction) (owner : Owner)
  | close (id : ConnId)
  | send (id : ConnId) (length : Nat) (ok : Bool)
  | tick (now : Nat)
  | cleanUp

def onPacket (addr : AddressPair) (d : Datagram) : Action Unit := do
  let s ← get
  match s.byAddr.lookup addr with
  | some id =>
    let conn ← deref id
    if conn.state = .confirmed then raise (.came id d) else pure ()
  | none => pure ()
  hook 2 addr d

/-- `udp_cm_send_data`; `ok` tells whether lwIP takes the data. -/
def sendData (length : Nat) (ok : Bool) : Action Unit := do
  let s ← get
  match s.byId.lookup id with
  | none => pure ()
  | some _ =>
    refresh id
    if ok then raise (.dataSent id length) else closeDescriptor id

def timerTick (now : Nat) : Action Unit := do
  let s ← get
  modify fun s => { s with now := now }
  forEach (fun id => do
      let s ← get
      match s.byId.lookup id with
      | none => pure ()
      | some conn => if conn.connTimeout < now then closeDescriptor id else pure ())
    s.byId.keys

def cleanUp : Action Unit := do
  let s ← get
  forEach closeDescriptor s.byId.keys

def perform : Call → Action Unit
  | .packet addr d owner => do
    modify fun s => { s with owner := owner }
    onPacket addr d
  | .complete id action owner => do
    modify fun s => { s with owner := owner }
    completeConnectRequest (hook 1) id action
  | .close id => closeDescriptor id
  | .send id length ok => sendData id length ok
  | .tick now => timerTick now
  | .cleanUp => cleanUp

structure Run where
  ctx : UdpCtx
  events : List Out
  fault : Option Fault

def faultOf : Except Fault Unit → Option Fault
  | .ok _ => none
  | .error f => some f

def Run.next (r : Run) (e : Call) : Run :=
  if r.fault.isNone then
    let (result, s, events) := perform e r.ctx r.events
    ⟨s, events, faultOf result⟩
  else r

def manager : System Run Call Empty where
  init := ⟨⟨∅, ∅, 0, 0, {}⟩, [], none⟩
  step := fun r e => (r.next e, [])

end TrustTunnel.Tcpip.UdpCm
