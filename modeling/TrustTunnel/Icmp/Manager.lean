import TrustTunnel.Icmp.Multiplexer
import TrustTunnel.Lib.Map
import TrustTunnel.Lib.System
import Mathlib.Data.List.Sort

/-!
# Icmp.Manager

`IcmpManager` (`icmp_manager.cpp`): the echo requests on the wire, by identifier and sequence number,
until a reply or a timeout answers them.
-/

namespace TrustTunnel.Icmp

open Lib List Bool

/-! ## The manager -/

structure RequestAttempt where
  seqno : UInt16
  timeoutTs : Nat
  deriving DecidableEq

structure RequestInfo where
  originalPeer : SocketAddress
  tries : List RequestAttempt

structure IcmpManager where
  requests : Map UInt16 RequestInfo
  requestTimeout : Nat
  timer : Bool

inductive MessageStatus where
  | pass
  | drop
  deriving DecidableEq

inductive Event where
  | request (status : MessageStatus)
  | reply (status : MessageStatus) (r : IcmpEchoReply)
  | replyReady (r : IcmpEchoReply)
  deriving DecidableEq

def icmpMtEchoReply : UInt8 := 0
def icmpv6MtEchoReply : UInt8 := 129
def icmpMtDrop : UInt8 := 84

/-- In milliseconds. -/
def defaultPingRequestTimeout : Nat := 3000

def isIpv4 (a : SocketAddress) : Bool := a.addr.length == Wire.ipv4AddrSize
def isIpv6 (a : SocketAddress) : Bool := a.addr.length == Wire.ipv6AddrSize

variable (m : IcmpManager)

namespace IcmpManager

def init (requestTimeout : Option Nat) : IcmpManager :=
  ⟨∅, requestTimeout.getD defaultPingRequestTimeout, false⟩

def registerRequest (now : Nat) (request : IcmpEchoRequest) : IcmpManager × List Event :=
  let info := (m.requests.lookup request.id).getD ⟨request.peer, []⟩
  if info.tries.any (·.seqno == request.seqno) then
    ({ m with requests := m.requests.insert request.id info }, [.request .drop])
  else
    let info := { info with tries := info.tries ++ [⟨request.seqno, now + m.requestTimeout⟩] }
    ({ m with requests := m.requests.insert request.id info, timer := true }, [.request .pass])

def isError (reply : IcmpEchoReply) : Bool :=
  (isIpv4 reply.peer && reply.type != icmpMtEchoReply) || (isIpv6 reply.peer && reply.type != icmpv6MtEchoReply)

/-- The attempt a reply is for: an error message is taken as one for the oldest. -/
def findTry (info : RequestInfo) (reply : IcmpEchoReply) : Option RequestAttempt :=
  if isError reply then info.tries.head? else info.tries.find? (·.seqno == reply.seqno)

def store (id : UInt16) (info : RequestInfo) : IcmpManager :=
  { m with requests :=
      if info.tries.isEmpty then m.requests.erase id else m.requests.insert id info }

def registerReply (reply : IcmpEchoReply) : IcmpManager × List Event :=
  match m.requests.lookup reply.id with
  | none => (m, [.reply .drop reply])
  | some info =>
    match findTry info reply with
    | none => (m, [.reply .drop reply])
    | some t =>
      (m.store reply.id { info with tries := info.tries.erase t }, [.reply .pass { reply with seqno := t.seqno }])

def makeReplyOnTimeout (id : UInt16) (peer : SocketAddress) (seqno : UInt16) : IcmpEchoReply :=
  ⟨peer, id, seqno, icmpMtDrop, 0⟩

def expire (now : Nat) (id : UInt16) (m : IcmpManager) : IcmpManager × List Event :=
  match m.requests.lookup id with
  | none => (m, [])
  | some info =>
    let expired := info.tries.filter fun t => !decide (now < t.timeoutTs)
    (m.store id { info with tries := info.tries.filter fun t => decide (now < t.timeoutTs) },
      expired.map fun t => .replyReady (makeReplyOnTimeout id info.originalPeer t.seqno))

/-- `timer_callback`: identifiers in the order of the map. -/
def timerCallback (now : Nat) : IcmpManager × List Event :=
  forEach (expire now) (m.requests.keys.mergeSort (fun a b => decide (a ≤ b))) m

inductive Call where
  | registerRequest (now : Nat) (request : IcmpEchoRequest)
  | registerReply (reply : IcmpEchoReply)
  | tick (now : Nat)

def step : Call → IcmpManager × List Event
  | .registerRequest now request => m.registerRequest now request
  | .registerReply reply => m.registerReply reply
  -- the timer is started by the first request
  | .tick now => if m.timer then m.timerCallback now else (m, [])

def system (requestTimeout : Option Nat) : System IcmpManager Call Event :=
  ⟨init requestTimeout, step⟩

/-! ## One call -/

abbrev Pair := UInt16 × UInt16

variable (p : Pair)

def onWire : Nat :=
  (m.requests.lookup p.1).elim 0 fun info => info.tries.countP (·.seqno == p.2)

def pending : Bool :=
  (m.requests.lookup p.1).elim false fun info => info.tries.any (·.seqno == p.2)

def isAnswer : Event → Bool
  | .reply .pass r => (r.id, r.seqno) == p
  | .replyReady r => (r.id, r.seqno) == p
  | _ => false

def answers (events : List Event) : Nat := events.countP (isAnswer p)

def isAccepted : Call → List Event → Bool
  | .registerRequest _ request, events => (request.id, request.seqno) == p && events == [.request .pass]
  | _, _ => false

@[simp] theorem isAnswer_request (status : MessageStatus) : isAnswer p (.request status) = false := rfl

@[simp] theorem isAnswer_dropped (r : IcmpEchoReply) : isAnswer p (.reply .drop r) = false := rfl

@[simp] theorem answers_nil : answers p [] = 0 := rfl

@[simp] theorem answers_append (a b : List Event) : answers p (a ++ b) = answers p a + answers p b :=
  countP_append

variable {m : IcmpManager} {info : RequestInfo}

theorem onWire_of_lookup {p : Pair} (h : m.requests.lookup p.1 = some info) :
    m.onWire p = info.tries.countP (·.seqno == p.2) := by
  rw [onWire, h]
  rfl

theorem onWire_store (id : UInt16) : (m.store id info).onWire p =
      if p.1 = id then info.tries.countP (·.seqno == p.2) else m.onWire p := by
  unfold store onWire
  cases hempty : info.tries.isEmpty with
  | true =>
    rw [List.isEmpty_iff] at hempty
    simp only [if_true, Map.lookup_erase_eq, hempty]
    split <;> rfl
  | false =>
    simp only [false_eq_true, if_false, Map.lookup_insert_eq]
    split <;> rfl

def Accounts (accepted : Nat) (m m' : IcmpManager) (events : List Event) : Prop :=
  accepted + m.onWire p = answers p events + m'.onWire p

theorem onWire_getD (peer : SocketAddress) :
    m.onWire p = ((m.requests.lookup p.1).getD ⟨peer, []⟩).tries.countP (·.seqno == p.2) := by
  unfold onWire
  cases m.requests.lookup p.1 <;> rfl

theorem pending_getD (peer : SocketAddress) :
    m.pending p = ((m.requests.lookup p.1).getD ⟨peer, []⟩).tries.any (·.seqno == p.2) := by
  unfold pending
  cases m.requests.lookup p.1 <;> rfl

section

variable (m : IcmpManager) (now : Nat) (request : IcmpEchoRequest)

theorem registerRequest_status : (m.registerRequest now request).2 =
      [.request (if m.pending (request.id, request.seqno) then .drop else .pass)] := by
  have hpending := m.pending_getD (request.id, request.seqno) request.peer
  simp only [registerRequest]
  by_cases hany : m.pending (request.id, request.seqno) = true
  · rw [if_pos hany, if_pos (hpending ▸ hany)]
  · rw [if_neg hany, if_neg (hpending ▸ hany)]

theorem onWire_registerRequest : (m.registerRequest now request).1.onWire p = m.onWire p +
      if (request.id, request.seqno) = p ∧ m.pending p = false then 1 else 0 := by
  obtain ⟨id, seqno⟩ := p
  have hpending := m.pending_getD (request.id, request.seqno) request.peer
  have hwire := m.onWire_getD (id, seqno) request.peer
  simp only [registerRequest]
  cases hany : m.pending (request.id, request.seqno) with
  | true =>
    have hno : ¬((request.id, request.seqno) = (id, seqno) ∧ m.pending (id, seqno) = false) := by
      rintro ⟨heq, hfalse⟩
      rw [← heq, hany] at hfalse
      cases hfalse
    rw [if_neg hno, if_pos (hpending ▸ hany)]
    -- the entry is put back as it was
    cases hl : m.requests.lookup request.id with
    | none => simp [pending, hl] at hany
    | some info => simp [onWire, Map.lookup_reinsert hl]
  | false =>
    rw [hany] at hpending
    rw [if_neg (by rw [← hpending]; exact false_ne_true)]
    by_cases hid : id = request.id
    · subst hid
      have hnew : (m.requests.insert request.id { (m.requests.lookup request.id).getD
          ⟨request.peer, []⟩ with tries := ((m.requests.lookup request.id).getD
            ⟨request.peer, []⟩).tries ++ [⟨request.seqno, now + m.requestTimeout⟩] }).lookup
          request.id = some { (m.requests.lookup request.id).getD ⟨request.peer, []⟩ with
            tries := ((m.requests.lookup request.id).getD ⟨request.peer, []⟩).tries ++
              [⟨request.seqno, now + m.requestTimeout⟩] } := by
        rw [Map.lookup_insert_eq, if_pos rfl]
      rw [onWire_of_lookup hnew, hwire]
      by_cases hseq : request.seqno = seqno
      · simp [← hseq, hany]
      · simp [hseq]
    · have hne : request.id ≠ id := fun h => hid h.symm
      simp [onWire, hid, hne]

theorem registerRequest_accounts (p : Pair) :
    Accounts p (isAccepted p (.registerRequest now request) (m.registerRequest now request).2).toNat m
      (m.registerRequest now request).1 (m.registerRequest now request).2 := by
  rw [Accounts, onWire_registerRequest, registerRequest_status, isAccepted]
  by_cases hp : (request.id, request.seqno) = p
  · subst hp
    cases m.pending (request.id, request.seqno) <;> simp [answers, Nat.add_comm]
  · simp [answers, hp]

end

theorem findTry_mem {reply : IcmpEchoReply} {t : RequestAttempt} (h : findTry info reply = some t) :
    t ∈ info.tries := by
  unfold findTry at h
  split at h
  · exact mem_of_head? h
  · exact mem_of_find?_eq_some h

theorem registerReply_accounts (m : IcmpManager) (reply : IcmpEchoReply) (p : Pair) :
    Accounts p 0 m (m.registerReply reply).1 (m.registerReply reply).2 := by
  unfold Accounts registerReply
  cases hl : m.requests.lookup reply.id with
  | none => simp [answers]
  | some info =>
    cases ht : findTry info reply with
    | none => simp [answers, ht]
    | some t =>
      have hmem := findTry_mem ht
      simp only [ht, onWire_store, answers, countP_singleton, isAnswer]
      by_cases hid : p.1 = reply.id
      · obtain ⟨id, seqno⟩ := p
        subst hid
        have hperm := (perm_cons_erase hmem).countP_eq (·.seqno == seqno)
        rw [countP_cons] at hperm
        rw [onWire_of_lookup hl, hperm]
        by_cases hseq : t.seqno = seqno
        · simp [Nat.add_comm]
        · simp [hseq]
      · have hne : ((reply.id, t.seqno) == p) = false := by
          rw [beq_eq_false_iff_ne]
          rintro rfl
          exact hid rfl
        simp [hne, hid]

theorem expire_accounts (now : Nat) (id : UInt16) (m : IcmpManager) (p : Pair) :
    Accounts p 0 m (expire now id m).1 (expire now id m).2 := by
  unfold Accounts expire
  cases hl : m.requests.lookup id with
  | none => simp
  | some info =>
    simp only [onWire_store, answers, countP_map]
    by_cases hid : p.1 = id
    · obtain ⟨i, seqno⟩ := p
      subst hid
      have hsplit := countP_eq_countP_filter_add info.tries (·.seqno == seqno) (fun t => decide (now < t.timeoutTs))
      have hanswer : (isAnswer (i, seqno) ∘ fun t : RequestAttempt =>
          Event.replyReady (makeReplyOnTimeout i info.originalPeer t.seqno)) =
          fun t => t.seqno == seqno := by
        funext t
        simp [isAnswer, makeReplyOnTimeout]
      rw [onWire_of_lookup hl, if_pos rfl, hanswer, hsplit, Nat.zero_add, Nat.add_comm]
    · have hnone : (info.tries.filter fun t => !decide (now < t.timeoutTs)).countP
          (isAnswer p ∘ fun t : RequestAttempt =>
            Event.replyReady (makeReplyOnTimeout id info.originalPeer t.seqno)) = 0 := by
        refine countP_eq_zero.mpr fun t _ => ?_
        simp only [Function.comp, isAnswer, not_eq_true, beq_eq_false_iff_ne]
        rintro rfl
        exact hid rfl
      rw [hnone, if_neg hid]

theorem timerCallback_accounts (m : IcmpManager) (now : Nat) (p : Pair) :
    Accounts p 0 m (m.timerCallback now).1 (m.timerCallback now).2 := by
  have hloop := forEach_inv (f := expire now) (s := m) (o := [])
    (l := m.requests.keys.mergeSort (fun a b => decide (a ≤ b)))
    (J := fun o m' => m.onWire p = answers p o + m'.onWire p) (by simp) ?_
  · simpa [Accounts, timerCallback] using hloop
  intro id _ o m' h
  have hone := expire_accounts now id m' p
  rw [Accounts] at hone
  rw [answers_append]
  omega

theorem step_accounts (m : IcmpManager) (c : Call) (p : Pair) :
    Accounts p (isAccepted p c (m.step c).2).toNat m (m.step c).1 (m.step c).2 := by
  cases c with
  | registerRequest now request => exact registerRequest_accounts m now request p
  | registerReply reply => exact registerReply_accounts m reply p
  | tick now =>
    simp only [step]
    split
    · exact timerCallback_accounts m now p
    · simp [Accounts, isAccepted]

/-! ## Pairs are on the wire once -/

def Distinct (m : IcmpManager) : Prop :=
  ∀ id info, m.requests.lookup id = some info → (info.tries.map (·.seqno)).Nodup

theorem distinct_store (h : m.Distinct) {id : UInt16} (hinfo : (info.tries.map (·.seqno)).Nodup) :
    (m.store id info).Distinct := by
  intro j info' hl
  unfold store at hl
  split at hl
  · rw [Map.lookup_erase_eq] at hl
    split at hl
    · cases hl
    · exact h j info' hl
  · rw [Map.lookup_insert_eq] at hl
    split at hl
    · cases hl
      exact hinfo
    · exact h j info' hl

theorem distinct_expire (h : m.Distinct) (now : Nat) (id : UInt16) : (expire now id m).1.Distinct := by
  unfold expire
  cases hl : m.requests.lookup id with
  | none => exact h
  | some info => exact distinct_store h ((h id info hl).sublist (filter_sublist.map _))

theorem distinct_step (h : m.Distinct) (c : Call) : (m.step c).1.Distinct := by
  cases c with
  | registerRequest now request =>
    have hinfo : (((m.requests.lookup request.id).getD ⟨request.peer, []⟩).tries.map (·.seqno)).Nodup := by
      cases hl : m.requests.lookup request.id with
      | none => exact nodup_nil
      | some info => exact h request.id info hl
    simp only [step, registerRequest]
    split
    · intro j info hl
      simp only [Map.lookup_insert_eq] at hl
      split at hl
      · cases hl
        exact hinfo
      · exact h j info hl
    · next hnew =>
      intro j info hl
      simp only [Map.lookup_insert_eq] at hl
      split at hl
      · cases hl
        rw [map_append, map_singleton]
        refine nodup_append.mpr ⟨hinfo, nodup_singleton _, fun a ha b hb heq => hnew ?_⟩
        obtain ⟨t, ht, rfl⟩ := mem_map.mp ha
        rw [mem_singleton] at hb
        exact any_eq_true.mpr ⟨t, ht, by simp [heq, hb]⟩
      · exact h j info hl
  | registerReply reply =>
    simp only [step, registerReply]
    cases hl : m.requests.lookup reply.id with
    | none => exact h
    | some info =>
      cases ht : findTry info reply with
      | none => simpa only [ht] using h
      | some t =>
        simp only [ht]
        exact distinct_store h ((h reply.id info hl).sublist (erase_sublist.map _))
  | tick now =>
    simp only [step]
    split
    · exact forEach_state h fun id _ m hm => distinct_expire hm now id
    · exact h

theorem onWire_eq (h : m.Distinct) (p : Pair) : m.onWire p = if m.pending p then 1 else 0 := by
  cases hl : m.requests.lookup p.1 with
  | none => simp [onWire, pending, hl]
  | some info =>
    have hnodup := h p.1 info hl
    have hcount : info.tries.countP (·.seqno == p.2) = (info.tries.map (·.seqno)).count p.2 := by
      rw [List.count, countP_map]
      rfl
    have hpending : m.pending p = info.tries.any (·.seqno == p.2) := by rw [pending, hl, Option.elim_some]
    rw [onWire_of_lookup hl, hcount]
    cases hany : m.pending p with
    | true =>
      obtain ⟨t, ht, hseq⟩ := any_eq_true.mp (hpending.symm.trans hany)
      exact count_eq_one_of_mem hnodup (mem_map.mpr ⟨t, ht, by simpa using hseq⟩)
    | false =>
      refine count_eq_zero.mpr fun hmem => false_ne_true (hany.symm.trans ?_)
      obtain ⟨t, ht, hseq⟩ := mem_map.mp hmem
      exact hpending.trans (any_eq_true.mpr ⟨t, ht, by simp [hseq]⟩)

/-! ## Runs -/

def accepted (h : List (Record IcmpManager Call Event)) : Nat :=
  h.countP fun r => isAccepted p r.call r.outs

def reached (requestTimeout : Option Nat) (es : List Call) : IcmpManager :=
  (system requestTimeout).exec (system requestTimeout).init es

def history (requestTimeout : Option Nat) (es : List Call) : List (Record IcmpManager Call Event) :=
  (system requestTimeout).trace (system requestTimeout).init es

theorem accounts_run (requestTimeout : Option Nat) (es : List Call) (p : Pair) :
    accepted p (history requestTimeout es) =
        answers p (System.outputs (history requestTimeout es)) + (reached requestTimeout es).onWire p ∧
      (reached requestTimeout es).Distinct := by
  refine (system requestTimeout).inv_run
    (J := fun h m => accepted p h = answers p (System.outputs h) + m.onWire p ∧ m.Distinct)
    ⟨rfl, nofun⟩ ?_ es (System.meets_true _ _ es)
  rintro h m c ⟨hcount, hdistinct⟩ -
  refine ⟨?_, distinct_step hdistinct c⟩
  have hstep : (isAccepted p c (m.step c).2).toNat + m.onWire p =
      answers p (m.step c).2 + (m.step c).1.onWire p := step_accounts m c p
  have haccepted : accepted p (h ++ [(system requestTimeout).record m c]) =
      accepted p h + (isAccepted p c (m.step c).2).toNat := by
    rw [accepted, countP_append, countP_singleton]
    show _ + (if isAccepted p c (m.step c).2 = true then 1 else 0) = _
    cases isAccepted p c (m.step c).2 <;> rfl
  rw [System.outputs_append, System.outputs_record, answers_append]
  show _ = _ + answers p (m.step c).2 + (m.step c).1.onWire p
  omega

theorem isAccepted_new (m : IcmpManager) (p : Pair) (c : Call)
    (h : isAccepted p c (m.step c).2 = true) : m.pending p = false ∧ answers p (m.step c).2 = 0 := by
  cases c with
  | registerRequest now request =>
    simp only [isAccepted, step, registerRequest_status, and_eq_true, beq_iff_eq] at h
    obtain ⟨hp, hevent⟩ := h
    subst hp
    cases hpending : m.pending (request.id, request.seqno) with
    | true => simp [hpending] at hevent
    | false => exact ⟨rfl, by simp [step, registerRequest_status, answers]⟩
  | registerReply reply | tick now => cases h

/-- Over every run each accepted registration of a pair is answered at most once: registrations and
answers agree, but for the one that is pending. A registration is dropped just when the pair is
pending, and a pair stays pending until the call that answers it, with one reply or one timeout. -/
theorem answered_once (requestTimeout : Option Nat) (es : List Call) (p : Pair) :
    accepted p (history requestTimeout es) = answers p (System.outputs (history requestTimeout es)) +
      (if (reached requestTimeout es).pending p then 1 else 0) ∧ (∀ now request, (request.id, request.seqno) = p →
      ((reached requestTimeout es).registerRequest now request).2 =
        [.request (if (reached requestTimeout es).pending p then .drop else .pass)]) ∧
    ∀ c, answers p ((reached requestTimeout es).step c).2 =
      if (reached requestTimeout es).pending p && !((reached requestTimeout es).step c).1.pending p
        then 1 else 0 := by
  obtain ⟨hcount, hdistinct⟩ := accounts_run requestTimeout es p
  generalize reached requestTimeout es = m at hcount hdistinct ⊢
  rw [onWire_eq hdistinct] at hcount
  refine ⟨hcount, fun now request hp => hp ▸ registerRequest_status m now request, fun c => ?_⟩
  have hstep := step_accounts m c p
  rw [Accounts, onWire_eq hdistinct, onWire_eq (distinct_step hdistinct c)] at hstep
  cases hacc : isAccepted p c (m.step c).2 with
  | true =>
    obtain ⟨hpending, hnone⟩ := isAccepted_new m p c hacc
    rw [hnone, hpending]
    rfl
  | false =>
    rw [hacc] at hstep
    cases hpending : m.pending p <;> cases hnext : (m.step c).1.pending p <;>
      simp [hpending, hnext] at hstep ⊢ <;> omega

end IcmpManager

end TrustTunnel.Icmp
