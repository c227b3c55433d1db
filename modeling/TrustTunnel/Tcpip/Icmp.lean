import TrustTunnel.Icmp.Multiplexer
import TrustTunnel.Lib.Map
import TrustTunnel.Lib.System

/-!
# Tcpip.Icmp

The echo requests that enter the TUN stack (`ip_hooks.cpp`, `icmp_request_manager.cpp`,
`icmp_request.cpp`). The hook keeps the packet of a request in a descriptor, by identifier and
sequence number, until the request is answered. The packet is then put into lwIP again, comes to the
same hook, and is handed on or answered there.

A second request with the pair of a pending one takes the branch meant for the packet put in again.
-/

namespace TrustTunnel.Tcpip

open Lib Option
open Icmp (IcmpEchoRequest IcmpEchoReply)

/-! ## The model -/

structure IcmpRequestKey where
  id : UInt16
  seqno : UInt16
  deriving DecidableEq

structure Packet where
  v6 : Bool
  src : Bytes
  dst : Bytes
  ttl : UInt8
  headerLen : Nat
  icmp : Bytes
  deriving DecidableEq

structure Pbuf where
  id : Nat
  packet : Packet
  deriving DecidableEq

structure IcmpRequestDescriptor where
  key : IcmpRequestKey
  ttl : UInt8
  v6 : Bool
  src : Bytes
  dst : Bytes
  replySrc : Bytes
  replyType : UInt8
  replyCode : UInt8
  buffer : Option Pbuf

structure IcmpCtx where
  requests : List (IcmpRequestKey × IcmpRequestDescriptor)
  nextBuffer : Nat
  crashed : Bool

inductive Out where
  | given (b : Pbuf)
  | echo (r : IcmpEchoRequest)
  | freed (b : Pbuf)
  /-- lwIP owns the buffer; an echo reply is sent from `src` -/
  | passed (b : Pbuf) (src : Bytes)
  | destUnreach (b : Pbuf) (code : UInt8) (src : Bytes)
  | timeExceeded (b : Pbuf) (code : UInt8) (src : Bytes)

inductive Alloc where
  | ok
  /-- `calloc` fails -/
  | noDescriptor
  /-- `kh_put` fails -/
  | noEntry

structure Env where
  alloc : Alloc
  result : Int

def icmpEcho : UInt8 := 8
def icmp6TypeEreq : UInt8 := 128
def icmpMtDrop : UInt8 := 84

def icmpEchoHdrSize : Nat := 8

def isAny (a : Bytes) : Bool := a.all (· == 0)

def Packet.echoKey (p : Packet) : Option IcmpRequestKey :=
  if p.icmp.length < icmpEchoHdrSize then none
  else if p.icmp.getD 0 0 ≠ (if p.v6 then icmp6TypeEreq else icmpEcho) then none
  else
    some ⟨(p.icmp.getD 4 0).toUInt16 + (p.icmp.getD 5 0).toUInt16 * 256,
        (p.icmp.getD 6 0).toUInt16 + (p.icmp.getD 7 0).toUInt16 * 256⟩

variable {d : IcmpRequestDescriptor} (s : IcmpCtx)

namespace IcmpCtx

def findDescriptor (k : IcmpRequestKey) : Option IcmpRequestDescriptor :=
  (extract k s.requests).map Prod.fst

/-- `icmp_rm_close_descriptor` with `icmp_request_destroy`. -/
def closeDescriptor (request : IcmpRequestDescriptor) : IcmpCtx × List Out :=
  ({ s with
      requests := match extract request.key s.requests with
        | some (_, rest) => rest
        | none => s.requests },
    match request.buffer with
    | some b => [.freed b]
    | none => [])

/-- The two functions that end a request differ in the numbers of the message types. -/
def finalizeWith (echoReply destUnreach timeExceeded : UInt8) (request : IcmpRequestDescriptor) (b : Pbuf) : List Out :=
  if isAny request.replySrc then [.freed b]
  else if request.replyType = echoReply then [.passed b request.replySrc]
  else if request.replyType = destUnreach then
    [.destUnreach b request.replyCode request.replySrc, .freed b]
  else if request.replyType = timeExceeded then
    [.timeExceeded b request.replyCode request.replySrc, .freed b]
  else [.freed b]

def finalizeIcmpRequest : IcmpRequestDescriptor → Pbuf → List Out := finalizeWith 0 3 11

def finalizeIcmpv6Request : IcmpRequestDescriptor → Pbuf → List Out := finalizeWith 129 1 3

/-- `forward_existing_icmp_entry`: `b` is meant to be the packet of the request. -/
def forwardExistingIcmpEntry (request : IcmpRequestDescriptor) (b : Pbuf) : IcmpCtx × List Out :=
  let outs := if request.v6 then finalizeIcmpv6Request request b else finalizeIcmpRequest request b
  let r := s.closeDescriptor { request with buffer := none }
  (r.1, outs ++ r.2)

def requestCreate (k : IcmpRequestKey) (b : Pbuf) : IcmpRequestDescriptor :=
  ⟨k, b.packet.ttl, b.packet.v6, b.packet.src, b.packet.dst, [], 0, 0, some b⟩

def echoEvent (request : IcmpRequestDescriptor) (b : Pbuf) : IcmpEchoRequest :=
  ⟨⟨request.dst, 0⟩, request.key.id, request.key.seqno, request.ttl,
    (b.packet.headerLen + b.packet.icmp.length).toUInt16⟩

/-- `process_new_icmp_request` with `icmp_rm_create_descriptor` and `icmp_rm_start_request`. -/
def processNewIcmpRequest (env : Env) (k : IcmpRequestKey) (b : Pbuf) : IcmpCtx × List Out :=
  let request := requestCreate k b
  match env.alloc with
  -- the table reads the key of a null descriptor
  | .noDescriptor => ({ s with crashed := true }, [])
  -- closing the descriptor frees the buffer, and the caller drops it again
  | .noEntry =>
    let r := s.closeDescriptor request
    (r.1, r.2 ++ [.freed b])
  | .ok =>
    let s' := { s with requests := (k, request) :: s.requests }
    if env.result ≠ 0 then
      let r := s'.closeDescriptor { request with buffer := none }
      (r.1, .echo (echoEvent request b) :: r.2 ++ [.freed b])
    else (s', [.echo (echoEvent request b)])

/-- `process_icmp` and `process_icmp6`, with `process_icmp_req`. -/
def processIcmp (env : Env) (b : Pbuf) : IcmpCtx × List Out :=
  match b.packet.echoKey with
  | none => (s, [.passed b b.packet.dst])
  | some k =>
    match s.findDescriptor k with
    | some request => s.forwardExistingIcmpEntry request b
    | none => s.processNewIcmpRequest env k b

/-- `icmp_rm_process_reply`: the packet of the request is put into lwIP again and comes to the hook. -/
def processReply (env : Env) (reply : IcmpEchoReply) : IcmpCtx × List Out :=
  match extract ⟨reply.id, reply.seqno⟩ s.requests with
  | none => (s, [])
  | some (request, rest) =>
    if reply.type = icmpMtDrop then s.closeDescriptor request
    else
      let answered :=
        { request with
          replySrc := reply.peer.addr, replyType := reply.type, replyCode := reply.code, buffer := none }
      let s := { s with requests := (⟨reply.id, reply.seqno⟩, answered) :: rest }
      match request.buffer with
      | none => (s, [])
      | some b => s.processIcmp env b

def cleanUp : IcmpCtx × List Out :=
  ({ s with requests := [] }, s.requests.filterMap fun e => e.2.buffer.map Out.freed)

inductive Call where
  | packet (p : Packet) (env : Env)
  | reply (r : IcmpEchoReply) (env : Env)
  | cleanUp

def received : IcmpCtx := { s with nextBuffer := s.nextBuffer + 1 }

def step (c : Call) : IcmpCtx × List Out :=
  if s.crashed then (s, [])
  else
    match c with
    | .packet p env =>
      let b : Pbuf := ⟨s.nextBuffer, p⟩
      let r := s.received.processIcmp env b
      (r.1, .given b :: r.2)
    | .reply r env => s.processReply env r
    | .cleanUp => s.cleanUp

def start : IcmpCtx := ⟨[], 0, false⟩

def stack : System IcmpCtx Call Out := ⟨start, step⟩

/-! ## Pending requests -/

variable {s : IcmpCtx} {k : IcmpRequestKey} {b : Pbuf} {env : Env}

/-- A pending request: as it was created, with the packet it came in. -/
def Pending (n : Nat) (e : IcmpRequestKey × IcmpRequestDescriptor) : Prop :=
  ∃ b : Pbuf, e.2 = requestCreate e.1 b ∧ b.packet.echoKey = some e.1 ∧ b.id < n

structure Inv (s : IcmpCtx) : Prop where
  running : s.crashed = false
  keys : (s.requests.map Prod.fst).Nodup
  pending : ∀ e ∈ s.requests, Pending s.nextBuffer e

theorem inv_start : start.Inv := ⟨rfl, List.nodup_nil, by simp [start]⟩

theorem findDescriptor_eq_some : s.findDescriptor k = some d ↔ ∃ rest, extract k s.requests = some (d, rest) := by
  simp only [findDescriptor, map_eq_some_iff, Prod.exists, exists_and_right, exists_eq_right]

theorem findDescriptor_eq_none : s.findDescriptor k = none ↔ k ∉ s.requests.map Prod.fst := by
  rw [findDescriptor, map_eq_none_iff, extract_eq_none]

theorem Inv.rest (h : s.Inv) {d : IcmpRequestDescriptor}
    {rest : List (IcmpRequestKey × IcmpRequestDescriptor)} (hx : extract k s.requests = some (d, rest))
    {n : Nat} (hn : s.nextBuffer ≤ n) : Inv ⟨rest, n, s.crashed⟩ := by
  have hperm := extract_perm hx
  refine ⟨h.running, ?_, fun e he => ?_⟩
  · have hkeys := (hperm.map Prod.fst).nodup_iff.mp h.keys
    exact (List.nodup_cons.mp hkeys).2
  · obtain ⟨b, hd, hecho, hid⟩ := h.pending e (hperm.symm.subset (List.mem_cons_of_mem _ he))
    exact ⟨b, hd, hecho, Nat.lt_of_lt_of_le hid hn⟩

theorem Inv.not_mem_rest (h : s.Inv) {d : IcmpRequestDescriptor} {rest : List (IcmpRequestKey × IcmpRequestDescriptor)}
    (hx : extract k s.requests = some (d, rest)) : k ∉ rest.map Prod.fst := by
  have hkeys := ((extract_perm hx).map Prod.fst).nodup_iff.mp h.keys
  exact (List.nodup_cons.mp hkeys).1

/-! ## What the calls do -/

def answerFrom (k : IcmpRequestKey) (b : Pbuf) (reply : IcmpEchoReply) : List Out :=
  if reply.type = icmpMtDrop then [.freed b]
  else
    let answered :=
      { requestCreate k b with
        replySrc := reply.peer.addr, replyType := reply.type, replyCode := reply.code, buffer := none }
    if b.packet.v6 then finalizeIcmpv6Request answered b else finalizeIcmpRequest answered b

theorem closeDescriptor_eq {d d' : IcmpRequestDescriptor} {rest : List (IcmpRequestKey × IcmpRequestDescriptor)}
    (hx : extract d.key s.requests = some (d', rest)) : s.closeDescriptor d =
      ({ s with requests := rest }, d.buffer.elim [] fun b => [.freed b]) := by
  unfold closeDescriptor
  rw [hx]
  cases d.buffer <;> rfl

theorem processIcmp_other (hecho : b.packet.echoKey = none) : s.processIcmp env b = (s, [.passed b b.packet.dst]) := by
  rw [processIcmp, hecho]

/-- A second request with the pair of a pending one: its packet is freed, the pending request is
forgotten and the packet of that is not freed. -/
theorem processIcmp_repeat {b₀ : Pbuf} {rest : List (IcmpRequestKey × IcmpRequestDescriptor)}
    (hecho : b.packet.echoKey = some k) (hx : extract k s.requests = some (requestCreate k b₀, rest)) :
    s.processIcmp env b = ({ s with requests := rest }, [.freed b]) := by
  have hfind := findDescriptor_eq_some.mpr ⟨rest, hx⟩
  have hclose := closeDescriptor_eq (d := { requestCreate k b₀ with buffer := none }) hx
  simp only [processIcmp, hecho, hfind, forwardExistingIcmpEntry, hclose]
  have hany : isAny (requestCreate k b₀).replySrc = true := rfl
  cases (requestCreate k b₀).v6 <;>
    simp [finalizeIcmpRequest, finalizeIcmpv6Request, finalizeWith, hany]

theorem processIcmp_new (hecho : b.packet.echoKey = some k) (hfind : s.findDescriptor k = none) :
    s.processIcmp env b = s.processNewIcmpRequest env k b := by
  simp [processIcmp, hecho, hfind]

theorem processNew_ok (halloc : env.alloc = .ok) : s.processNewIcmpRequest env k b =
      if env.result = 0 then
        ({ s with requests := (k, requestCreate k b) :: s.requests }, [.echo (echoEvent (requestCreate k b) b)])
      else (s, [.echo (echoEvent (requestCreate k b) b), .freed b]) := by
  unfold processNewIcmpRequest
  rw [halloc]
  dsimp only
  by_cases hzero : env.result = 0
  · rw [if_neg (by simpa using hzero), if_pos hzero]
  have hx : extract k ((k, requestCreate k b) :: s.requests) = some (requestCreate k b, s.requests) := by
    simp [extract]
  rw [if_pos hzero, if_neg hzero, closeDescriptor_eq (s := { s with requests := (k, requestCreate k b) :: s.requests })
      (d := { requestCreate k b with buffer := none }) hx]
  rfl

theorem Inv.processReply_eq (h : s.Inv) (env : Env) {reply : IcmpEchoReply} {d : IcmpRequestDescriptor}
    {rest : List (IcmpRequestKey × IcmpRequestDescriptor)}
    (hx : extract ⟨reply.id, reply.seqno⟩ s.requests = some (d, rest)) :
    ∃ b : Pbuf, d = requestCreate ⟨reply.id, reply.seqno⟩ b ∧
      s.processReply env reply = ({ s with requests := rest }, answerFrom ⟨reply.id, reply.seqno⟩ b reply) := by
  obtain ⟨b, hd, hecho, -⟩ := h.pending _ (mem_of_extract hx)
  dsimp only at hd hecho
  subst hd
  refine ⟨b, rfl, ?_⟩
  unfold processReply answerFrom
  rw [hx]
  dsimp only
  split
  case isTrue => exact closeDescriptor_eq hx
  case isFalse =>
    -- the packet comes to the hook again and finds the request with the reply noted
    have hfirst : ∀ d, extract ⟨reply.id, reply.seqno⟩
        ((⟨reply.id, reply.seqno⟩, d) :: rest) = some (d, rest) := fun d => by simp [extract]
    simp only [requestCreate, processIcmp, hecho, findDescriptor, hfirst, map_some, forwardExistingIcmpEntry]
    rw [closeDescriptor_eq (hfirst _)]
    simp

/-! ## Accounting -/

def givenIn : Out → Option Pbuf
  | .given b => some b
  | _ => none

def releasedIn : Out → Option Pbuf
  | .freed b => some b
  | .passed b _ => some b
  | _ => none

def given (o : List Out) : List Pbuf := o.filterMap givenIn

def released (o : List Out) : List Pbuf := o.filterMap releasedIn

@[simp] theorem given_nil : given [] = [] := rfl

@[simp] theorem released_nil : released [] = [] := rfl

@[simp] theorem given_cons (x : Out) (o : List Out) : given (x :: o) = (givenIn x).toList ++ given o := by
  cases h : givenIn x <;> simp [given, h]

@[simp] theorem released_cons (x : Out) (o : List Out) : released (x :: o) = (releasedIn x).toList ++ released o := by
  cases h : releasedIn x <;> simp [released, h]

def held (s : IcmpCtx) : List Pbuf := s.requests.filterMap (·.2.buffer)

theorem finalizeWith_released (e u x : UInt8) (d : IcmpRequestDescriptor) (b : Pbuf) :
    released (finalizeWith e u x d b) = [b] ∧ given (finalizeWith e u x d b) = [] := by
  unfold finalizeWith
  split
  · exact ⟨rfl, rfl⟩
  split
  · exact ⟨rfl, rfl⟩
  · split
    · exact ⟨rfl, rfl⟩
    · split <;> exact ⟨rfl, rfl⟩

theorem answerFrom_released (k : IcmpRequestKey) (b : Pbuf) (reply : IcmpEchoReply) :
    released (answerFrom k b reply) = [b] ∧ given (answerFrom k b reply) = [] := by
  unfold answerFrom
  split
  · exact ⟨rfl, rfl⟩
  · split
    all_goals exact finalizeWith_released _ _ _ _ _

theorem held_rest {rest : List (IcmpRequestKey × IcmpRequestDescriptor)}
    (hx : extract k s.requests = some (d, rest)) (hb : d.buffer = some b) :
    s.held.Perm (b :: rest.filterMap (·.2.buffer)) := by
  have hperm := (extract_perm hx).filterMap (·.2.buffer)
  simpa [held, hb] using hperm

/-- A call accounts for the buffers: those given and those held before are released or held after. -/
def Conserves (s : IcmpCtx) (c : Call) : Prop :=
  (given (s.step c).2 ++ s.held).Perm (released (s.step c).2 ++ (s.step c).1.held)

/-- An echo request comes with a pair that is not pending, and the allocations for it succeed. -/
def Fresh (s : IcmpCtx) : Call → Prop
  | .packet p env => ∀ k, p.echoKey = some k → s.findDescriptor k = none ∧ env.alloc = .ok
  | _ => True

theorem Inv.reply_conserves (h : s.Inv) (r : IcmpEchoReply) (env : Env) : Conserves s (.reply r env) := by
  have hstep : s.step (.reply r env) = s.processReply env r := by
    rw [step, if_neg (by simp [h.running])]
  unfold Conserves
  rw [hstep]
  cases hx : extract ⟨r.id, r.seqno⟩ s.requests with
  | none =>
    rw [processReply, hx]
    exact .refl _
  | some e =>
    obtain ⟨b, hd, heq⟩ := h.processReply_eq env hx
    obtain ⟨hrel, hgiven⟩ := answerFrom_released ⟨r.id, r.seqno⟩ b r
    rw [heq, hrel, hgiven]
    exact held_rest hx (by rw [hd]; rfl)

theorem cleanUp_conserves (hr : s.crashed = false) : Conserves s .cleanUp := by
  have hstep : s.step .cleanUp = s.cleanUp := by
    rw [step, if_neg (by simp [hr])]
  unfold Conserves
  rw [hstep]
  have hrel : released s.cleanUp.2 = s.held := by
    simp only [released, cleanUp, List.filterMap_filterMap]
    refine congrArg (fun f => List.filterMap f s.requests) (funext fun e => ?_)
    cases e.2.buffer <;> rfl
  have hgiven : given s.cleanUp.2 = [] := by
    simp only [given, cleanUp, List.filterMap_filterMap, List.filterMap_eq_nil_iff]
    intro e _
    cases e.2.buffer <;> rfl
  rw [hrel, hgiven]
  simp [cleanUp, held]

theorem step_packet (hr : s.crashed = false) (p : Packet) : s.step (.packet p env) =
      ((s.received.processIcmp env ⟨s.nextBuffer, p⟩).1,
        .given ⟨s.nextBuffer, p⟩ :: (s.received.processIcmp env ⟨s.nextBuffer, p⟩).2) := by
  rw [step, if_neg (by simp [hr])]

theorem fresh_iff {p : Packet} (hecho : p.echoKey = some k) :
    s.Fresh (.packet p env) ↔ s.findDescriptor k = none ∧ env.alloc = .ok := by
  simp [Fresh, hecho]

attribute [local simp] releasedIn received givenIn

theorem Inv.packet_conserves_iff (h : s.Inv) (p : Packet) (env : Env) :
    Conserves s (.packet p env) ↔ s.Fresh (.packet p env) := by
  unfold Conserves
  rw [step_packet h.running]
  cases hecho : p.echoKey with
  | none =>
    rw [processIcmp_other hecho]
    refine iff_of_true ?_ (by simp [Fresh, hecho])
    simp [held]
  | some k =>
    rw [fresh_iff hecho]
    cases hfind : s.findDescriptor k with
    | some d =>
      -- the packet kept for the pending request is neither released nor held any more
      obtain ⟨rest, hx⟩ := findDescriptor_eq_some.mp hfind
      obtain ⟨b₀, hd, -, hid⟩ := h.pending _ (mem_of_extract hx)
      dsimp only at hd hid
      subst hd
      rw [processIcmp_repeat (s := s.received) hecho hx]
      refine iff_of_false (fun hperm => ?_) (by simp)
      have hcount := hperm.count_eq b₀
      have hheld := (held_rest hx rfl).count_eq b₀
      have hne : ⟨s.nextBuffer, p⟩ ≠ b₀ := fun heq => by
        rw [← heq] at hid
        exact Nat.lt_irrefl _ hid
      simp [hne, held] at hcount hheld
      omega
    | none =>
      have hnone : s.received.findDescriptor k = none := hfind
      rw [processIcmp_new hecho hnone]
      cases halloc : env.alloc with
      | noDescriptor =>
        simp only [processNewIcmpRequest, halloc]
        refine iff_of_false (fun hperm => ?_) (by simp)
        have hlen := hperm.length_eq
        simp [held] at hlen
      | noEntry =>
        have hx : extract k s.received.requests = none := map_eq_none_iff.mp hfind
        have hkey : (requestCreate k ⟨s.nextBuffer, p⟩).key = k := rfl
        simp only [processNewIcmpRequest, halloc, closeDescriptor, hkey, hx]
        refine iff_of_false (fun hperm => ?_) (by simp)
        have hlen := hperm.length_eq
        simp [held, requestCreate] at hlen
      | ok =>
        rw [processNew_ok halloc]
        split
        · simp [held, requestCreate]
        · simp [held]

theorem Inv.conserves_iff (h : s.Inv) (c : Call) : Conserves s c ↔ s.Fresh c := by
  cases c with
  | packet p env => exact h.packet_conserves_iff p env
  | reply r env => exact iff_of_true (h.reply_conserves r env) trivial
  | cleanUp => exact iff_of_true (cleanUp_conserves h.running) trivial

/-! ## Steps -/

theorem step_reply (hr : s.crashed = false) (r : IcmpEchoReply) : s.step (.reply r env) = s.processReply env r := by
  rw [step, if_neg (by simp [hr])]

theorem Inv.packet_requests (h : s.Inv) {p : Packet} (hf : s.Fresh (.packet p env)) :
    (s.step (.packet p env)).1 = s.received ∨
      ∃ k, p.echoKey = some k ∧ s.findDescriptor k = none ∧ (s.step (.packet p env)).1 = { s.received with
          requests := (k, requestCreate k ⟨s.nextBuffer, p⟩) :: s.requests } := by
  rw [step_packet h.running]
  cases hecho : p.echoKey with
  | none =>
    left
    rw [processIcmp_other hecho]
  | some k =>
    obtain ⟨hfind, halloc⟩ := (fresh_iff hecho).mp hf
    rw [processIcmp_new (s := s.received) hecho hfind, processNew_ok halloc]
    split
    · exact .inr ⟨k, rfl, hfind, rfl⟩
    · exact .inl rfl

theorem Inv.received (h : s.Inv) : s.received.Inv :=
  ⟨h.running, h.keys, fun e he => by
    obtain ⟨b, hd, hecho, hid⟩ := h.pending e he
    exact ⟨b, hd, hecho, Nat.lt_succ_of_lt hid⟩⟩

theorem Inv.step (h : s.Inv) {c : Call} (hf : s.Fresh c) : (s.step c).1.Inv := by
  cases c with
  | packet p env =>
    rcases h.packet_requests hf with heq | ⟨k, hecho, hfind, heq⟩
    · rw [heq]
      exact h.received
    rw [heq]
    refine ⟨h.running, ?_, fun e he => ?_⟩
    · exact List.nodup_cons.mpr ⟨findDescriptor_eq_none.mp hfind, h.keys⟩
    · rcases List.mem_cons.mp he with rfl | he
      · exact ⟨_, rfl, hecho, Nat.lt_succ_self _⟩
      · exact h.received.pending e he
  | reply r env =>
    rw [step_reply h.running]
    cases hx : extract ⟨r.id, r.seqno⟩ s.requests with
    | none =>
      rw [processReply, hx]
      exact h
    | some e =>
      obtain ⟨b, -, heq⟩ := h.processReply_eq env hx
      rw [heq]
      exact h.rest hx (Nat.le_refl _)
  | cleanUp =>
    rw [IcmpCtx.step, if_neg (by simp [h.running])]
    exact ⟨h.running, List.nodup_nil, by simp [IcmpCtx.cleanUp]⟩

/-- Whether a call answers the request `k`, or ends all of them. -/
def Ends (k : IcmpRequestKey) : Call → Prop
  | .packet _ _ => False
  | .reply r _ => k = ⟨r.id, r.seqno⟩
  | .cleanUp => True

theorem Inv.stays (h : s.Inv) {c : Call} (hf : s.Fresh c) {d : IcmpRequestDescriptor}
    (hfind : s.findDescriptor k = some d) (he : ¬ Ends k c) : (s.step c).1.findDescriptor k = some d := by
  cases c with
  | packet p env =>
    rcases h.packet_requests hf with heq | ⟨k', -, hnone, heq⟩
    · rw [heq]
      exact hfind
    have hne : k' ≠ k := by
      rintro rfl
      rw [hfind] at hnone
      cases hnone
    rw [heq, findDescriptor, extract, if_neg hne, map_map]
    exact hfind
  | reply r env =>
    rw [step_reply h.running]
    cases hx : extract ⟨r.id, r.seqno⟩ s.requests with
    | none =>
      rw [processReply, hx]
      exact hfind
    | some e =>
      obtain ⟨b, -, heq⟩ := h.processReply_eq env hx
      rw [heq, findDescriptor, extract_other hx he]
      exact hfind
  | cleanUp => exact absurd trivial he

theorem Inv.answers (h : s.Inv) (env : Env) {r : IcmpEchoReply} {d : IcmpRequestDescriptor}
    (hfind : s.findDescriptor ⟨r.id, r.seqno⟩ = some d) : ∃ b, d = requestCreate ⟨r.id, r.seqno⟩ b ∧
      (s.step (.reply r env)).2 = answerFrom ⟨r.id, r.seqno⟩ b r ∧
      (s.step (.reply r env)).1.findDescriptor ⟨r.id, r.seqno⟩ = none := by
  obtain ⟨rest, hx⟩ := findDescriptor_eq_some.mp hfind
  obtain ⟨b, hd, heq⟩ := h.processReply_eq env hx
  rw [step_reply h.running, heq]
  exact ⟨b, hd, rfl, findDescriptor_eq_none.mpr (h.not_mem_rest hx)⟩

/-! ## Runs -/

/-- After the calls `es`: every buffer given to the hook is released, once, or kept for a pending
request. -/
def Accounted (es : List Call) : Prop :=
  (given (System.outputs (stack.trace start es))).Perm
    (released (System.outputs (stack.trace start es)) ++ (stack.exec start es).held)

/-- A pending request stays registered until it is answered. -/
def Stays (r : Record IcmpCtx Call Out) : Prop :=
  ∀ k d, r.before.findDescriptor k = some d → ¬ Ends k r.call → r.after.findDescriptor k = some d

def MadeFrom (h : List (Record IcmpCtx Call Out)) (k : IcmpRequestKey) (d : IcmpRequestDescriptor) (b : Pbuf) : Prop :=
  d = requestCreate k b ∧ b.packet.echoKey = some k ∧
    ∃ r ∈ h, (∃ env, r.call = .packet b.packet env) ∧ Out.given b ∈ r.outs

/-- A reply to a pending request is made from the packet of that request, and ends it. -/
def AnswersOwn (h : List (Record IcmpCtx Call Out)) (r : Record IcmpCtx Call Out) : Prop :=
  ∀ reply env d, r.call = .reply reply env → r.before.findDescriptor ⟨reply.id, reply.seqno⟩ = some d →
      ∃ b, MadeFrom h ⟨reply.id, reply.seqno⟩ d b ∧ r.outs = answerFrom ⟨reply.id, reply.seqno⟩ b reply ∧
        r.after.findDescriptor ⟨reply.id, reply.seqno⟩ = none

theorem accounted_snoc (es : List Call) (c : Call) (h : Accounted es) :
    Accounted (es ++ [c]) ↔ Conserves (stack.exec start es) c := by
  have houts : System.outputs (stack.trace start (es ++ [c])) =
      System.outputs (stack.trace start es) ++ ((stack.exec start es).step c).2 := by
    rw [System.trace_append, System.outputs_append]
    exact congrArg _ (System.outputs_record stack _ c)
  have hexec : stack.exec start (es ++ [c]) = ((stack.exec start es).step c).1 := by
    rw [System.exec_append]
    rfl
  unfold Accounted Conserves at *
  rw [houts, hexec, List.perm_iff_count, List.perm_iff_count]
  refine forall_congr' fun b => ?_
  have hb := h.count_eq b
  simp only [given, released, List.filterMap_append, List.count_append] at hb ⊢
  omega

theorem inv_of_run {es : List Call} (h : stack.Meets Fresh start es) : (stack.exec start es).Inv :=
  stack.inv_run (J := fun _ s => s.Inv) inv_start (fun _ _ _ hi hf => hi.step hf) es h

theorem MadeFrom.mono {h : List (Record IcmpCtx Call Out)} {d : IcmpRequestDescriptor}
    (hm : MadeFrom h k d b) (r : Record IcmpCtx Call Out) : MadeFrom (h ++ [r]) k d b := by
  obtain ⟨hd, hecho, r', hr', hcall⟩ := hm
  exact ⟨hd, hecho, r', List.mem_append_left _ hr', hcall⟩

def Traced (h : List (Record IcmpCtx Call Out)) (s : IcmpCtx) : Prop :=
  ∀ k d, s.findDescriptor k = some d → ∃ b, MadeFrom h k d b

theorem Inv.find_after_reply (h : s.Inv) {r : IcmpEchoReply} {d : IcmpRequestDescriptor}
    (hfind : (s.step (.reply r env)).1.findDescriptor k = some d) : s.findDescriptor k = some d := by
  rw [step_reply h.running] at hfind
  cases hx : extract ⟨r.id, r.seqno⟩ s.requests with
  | none =>
    rw [processReply, hx] at hfind
    exact hfind
  | some e =>
    obtain ⟨b, -, heq⟩ := h.processReply_eq env hx
    rw [heq] at hfind
    have hne : k ≠ ⟨r.id, r.seqno⟩ := by
      rintro rfl
      have hnone : ({ s with requests := e.2 }).findDescriptor ⟨r.id, r.seqno⟩ = none :=
        findDescriptor_eq_none.mpr (h.not_mem_rest hx)
      rw [hnone] at hfind
      cases hfind
    rw [findDescriptor, extract_other hx hne] at hfind
    exact hfind

theorem Traced.step {h : List (Record IcmpCtx Call Out)} (ht : Traced h s) (hi : s.Inv) {c : Call}
    (hf : s.Fresh c) : Traced (h ++ [stack.record s c]) (s.step c).1 := by
  intro k d hfind
  cases c with
  | packet p env =>
    have hold : s.findDescriptor k = some d → ∃ b, MadeFrom (h ++ [stack.record s (.packet p env)]) k d b :=
      fun hk => by
        obtain ⟨b, hb⟩ := ht k d hk
        exact ⟨b, hb.mono _⟩
    rcases hi.packet_requests hf with heq | ⟨k', hecho, -, heq⟩
    · rw [heq] at hfind
      exact hold hfind
    rw [heq, findDescriptor, extract] at hfind
    split at hfind
    · next hk =>
      subst hk
      obtain rfl : requestCreate k' ⟨s.nextBuffer, p⟩ = d := Option.some.inj hfind
      refine ⟨⟨s.nextBuffer, p⟩, rfl, hecho, _, List.mem_append_right _ List.mem_cons_self, ⟨env, rfl⟩, ?_⟩
      simp only [System.record, stack, step_packet hi.running]
      exact List.mem_cons_self
    · rw [map_map] at hfind
      exact hold hfind
  | reply r env =>
    obtain ⟨b, hb⟩ := ht k d (hi.find_after_reply hfind)
    exact ⟨b, hb.mono _⟩
  | cleanUp =>
    rw [IcmpCtx.step, if_neg (by simp [hi.running])] at hfind
    cases hfind

/-- For every sequence of packets, start results, replies and drops: echo requests come with a pair
that is not pending, and are registered, if and only if at every point every buffer given to the hook
is released once or kept, every pending request stays until its own answer, and that answer is made
from its own packet. -/
theorem buffers_and_replies (es : List Call) : stack.Meets Fresh start es ↔
      (∀ n, Accounted (es.take n)) ∧ (∀ r ∈ stack.trace start es, Stays r) ∧
        ∀ r ∈ stack.trace start es, AnswersOwn (stack.trace start es) r := by
  have hexact : stack.Meets Fresh start es ↔ ∀ n, Accounted (es.take n) := by
    refine stack.meets_iff_forall_take (.refl _) (fun es c hm ha => ?_) es
    rw [accounted_snoc es c ha, (inv_of_run hm).conserves_iff]
  constructor
  · intro hm
    have hrun := stack.inv_run
      (J := fun h s => s.Inv ∧ Traced h s ∧ (∀ r ∈ h, Stays r) ∧ ∀ r ∈ h, AnswersOwn h r)
      ⟨inv_start, fun k d hfind => by simp [findDescriptor, stack, start, extract] at hfind,
        by simp, by simp⟩ ?_ es hm
    · exact ⟨hexact.mp hm, hrun.2.2.1, hrun.2.2.2⟩
    rintro h s c ⟨hi, ht, hstays, hown⟩ hf
    refine ⟨hi.step hf, ht.step hi hf, fun r hr => ?_, fun r hr => ?_⟩
    · rcases List.mem_append.mp hr with hr | hr
      · exact hstays r hr
      · obtain rfl := List.mem_singleton.mp hr
        exact fun k d hfind he => hi.stays hf hfind he
    · rcases List.mem_append.mp hr with hr | hr
      · intro reply env d hcall hfind
        obtain ⟨b, hb, houts⟩ := hown r hr reply env d hcall hfind
        exact ⟨b, hb.mono _, houts⟩
      obtain rfl := List.mem_singleton.mp hr
      intro reply env d hcall hfind
      obtain ⟨b, hb⟩ := ht _ d hfind
      obtain ⟨b', hd, houts, hnone⟩ := hi.answers env hfind
      obtain rfl : b = b' := by
        have heq : requestCreate _ b = requestCreate _ b' := hb.1.symm.trans hd
        exact Option.some.inj (congrArg IcmpRequestDescriptor.buffer heq)
      obtain rfl : c = .reply reply env := hcall
      exact ⟨b, hb.mono _, houts, hnone⟩
  · exact fun h => hexact.mpr h.1

def echoTo (dst : Bytes) : Packet := ⟨false, [10, 0, 0, 2], dst, 64, 20, [8, 0, 0, 0, 1, 0, 2, 0]⟩

/-- Two echo requests with the same pair to two destinations, the first still pending: the packet of
the first is neither released nor kept, and the reply to it finds nothing. -/
theorem repeated_pair_lost :
    let es : List Call :=
      [.packet (echoTo [1, 1, 1, 1]) ⟨.ok, 0⟩, .packet (echoTo [8, 8, 8, 8]) ⟨.ok, 0⟩]
    let first : Pbuf := ⟨0, echoTo [1, 1, 1, 1]⟩
    first ∈ given (System.outputs (stack.trace start es)) ∧
      first ∉ released (System.outputs (stack.trace start es)) ∧ (stack.exec start es).held = [] ∧
      ((stack.exec start es).step (.reply ⟨⟨[1, 1, 1, 1], 0⟩, 1, 2, 0, 0⟩ ⟨.ok, 0⟩)).2 = [] := by
  decide

end IcmpCtx

end TrustTunnel.Tcpip
