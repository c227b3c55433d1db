import TrustTunnel.Dns.Client
import TrustTunnel.Lib.Action
import TrustTunnel.Lib.Frames

/-!
# Dns.Replies

What the DNS client answers. `digest id` is what the events say about the request that has the id: that
it waits, whether it went out, whether the TCP connection failed since, and the first message that came
for it.

`Waiting` is the invariant: the requests that wait are those in the maps, each with its own deadline.
Inside of the loops that call the handler, a request that was answered may still be in a map; `gone` and
`gone'` are those.
-/

namespace TrustTunnel.Dns.Client

open Lib List Option

/-! ## What the events say about a request -/

structure Slot where
  tcp : Bool
  originalId : Bytes
  deadline : Nat
  sent : Bool := false
  failed : Bool := false
  reply : Option Bytes := none
  deriving DecidableEq

def messageId (message : Bytes) : Option UInt16 := (Wire.getU16 message).map Prod.fst

def Slot.add (slot : Slot) (id : UInt16) : Out → Option Slot
  | .sent j => if j = id then some { slot with sent := true } else some slot
  | .connected => some { slot with failed := false }
  | .failed => some { slot with failed := true }
  | .reply _ message =>
    if messageId message = some id ∧ slot.sent = true ∧ slot.reply = none then
      some { slot with reply := some message }
    else some slot
  | .response j _ _ => if j = id then none else some slot
  | _ => some slot

def addTo (id : UInt16) (g : Option Slot) (o : Out) : Option Slot :=
  match o with
  | .returned j tcp originalId deadline =>
    if j = id then some { tcp := tcp, originalId := originalId, deadline := deadline } else g
  | o => g.bind fun slot => slot.add id o

def digest (id : UInt16) (l : List Out) : Option Slot := l.foldl (addTo id) none

/-- A response is justified: it is the first message that came for the request since it went out, with
the original id in place; or it is empty, and the deadline has passed or the TCP connection failed. -/
def Slot.Answer (slot : Slot) (data : Bytes) (now : Nat) : Prop :=
  match slot.reply with
  | some message => data = slot.originalId ++ message.drop 2
  | none => data = [] ∧ (slot.deadline ≤ now ∨ slot.tcp = true ∧ slot.failed = true)

/-- An id is returned when no request has it, and responses are justified. -/
def Orderly (l : List Out) : Out → Prop
  | .returned id _ _ _ => digest id l = none
  | .response id data now => ∃ slot, digest id l = some slot ∧ slot.Answer data now
  | _ => True

variable (c : DnsClient) (request : Bytes) (tcp : Bool)

section Digest

variable {id j : UInt16} {l : List Out} {slot : Slot}

theorem digest_snoc (id : UInt16) (l : List Out) (o : Out) : digest id (l ++ [o]) = addTo id (digest id l) o := by
  rw [digest, foldl_append]
  rfl

theorem digest_returned (originalId : Bytes) (deadline : Nat) : digest id (l ++ [.returned j tcp originalId deadline]) =
      if j = id then some { tcp := tcp, originalId := originalId, deadline := deadline } else digest id l :=
  digest_snoc id l _

theorem digest_sent_self (h : digest id l = some slot) :
    digest id (l ++ [.sent id]) = some { slot with sent := true } := by
  rw [digest_snoc, h]
  show (if id = id then some { slot with sent := true } else some slot) = _
  rw [if_pos rfl]

theorem digest_sent_other (h : j ≠ id) : digest id (l ++ [.sent j]) = digest id l := by
  rw [digest_snoc]
  cases digest id l with
  | none => rfl
  | some slot =>
    show (if j = id then some { slot with sent := true } else some slot) = _
    rw [if_neg h]

theorem digest_response_self (data : Bytes) (now : Nat) : digest id (l ++ [.response id data now]) = none := by
  rw [digest_snoc]
  cases digest id l with
  | none => rfl
  | some slot =>
    show (if id = id then none else some slot) = none
    rw [if_pos rfl]

theorem digest_response_other (h : j ≠ id) (data : Bytes) (now : Nat) :
    digest id (l ++ [.response j data now]) = digest id l := by
  rw [digest_snoc]
  cases digest id l with
  | none => rfl
  | some slot =>
    show (if j = id then none else some slot) = some slot
    rw [if_neg h]

theorem digest_reply_self {message : Bytes} (h : digest id l = some slot)
    (hid : messageId message = some id) (hsent : slot.sent = true) (hreply : slot.reply = none) :
    digest id (l ++ [.reply tcp message]) = some { slot with reply := some message } := by
  rw [digest_snoc, h]
  show (if messageId message = some id ∧ slot.sent = true ∧ slot.reply = none then
    some { slot with reply := some message } else some slot) = _
  rw [if_pos ⟨hid, hsent, hreply⟩]

theorem digest_reply_other {message : Bytes}
    (h : messageId message ≠ some id ∨ ∀ slot, digest id l = some slot → slot.sent = false) :
    digest id (l ++ [.reply tcp message]) = digest id l := by
  rw [digest_snoc]
  cases hd : digest id l with
  | none => rfl
  | some slot =>
    show (if messageId message = some id ∧ slot.sent = true ∧ slot.reply = none then
      some { slot with reply := some message } else some slot) = _
    rw [if_neg]
    rintro ⟨hid, hsent, -⟩
    rcases h with h | h
    · exact h hid
    · rw [h slot hd] at hsent
      cases hsent

theorem digest_failed : digest id (l ++ [.failed]) = (digest id l).map fun s => { s with failed := true } := by
  rw [digest_snoc]
  cases digest id l <;> rfl

theorem digest_connected : digest id (l ++ [.connected]) = (digest id l).map fun s => { s with failed := false } := by
  rw [digest_snoc]
  cases digest id l <;> rfl

end Digest

/-! ## The invariant -/

open Multimap

structure Waiting (gone : List UInt16) (c : DnsClient) : Prop where
  each : Each Orderly c.events
  inFlight : ∀ id originalId, c.originalIdByRequestId.lookup id = some originalId → id ∉ gone →
    ∃ slot, digest id c.events = some slot ∧ slot.sent = true ∧ slot.reply = none ∧
      slot.originalId = originalId ∧ ∀ e ∈ c.requestIdByDeadline, e.2 = id → e.1 = slot.deadline
  entry : ∀ id originalId, c.originalIdByRequestId.lookup id = some originalId →
    ∃ e ∈ c.requestIdByDeadline, e.2 = id
  deferred : ∀ id body, c.deferredRequestByRequestId.lookup id = some body → id ∉ gone →
    ∃ slot, digest id c.events = some slot ∧ slot.sent = false ∧ slot.reply = none ∧ slot.tcp = true ∧
      slot.originalId = body.take 2 ∧ ∀ e ∈ c.deferredRequestIdByDeadline, e.2 = id → e.1 = slot.deadline
  deferredEntry : ∀ id, (∃ e ∈ c.deferredRequestIdByDeadline, e.2 = id) ↔
    (c.deferredRequestByRequestId.lookup id).isSome = true
  nodup : (c.deferredRequestIdByDeadline.map Prod.snd).Nodup
  apart : ∀ e ∈ c.requestIdByDeadline, c.deferredRequestByRequestId.lookup e.2 = none
  waits : ∀ id slot, digest id c.events = some slot → id ∉ gone ∧
    ((c.originalIdByRequestId.lookup id).isSome = true ∨ (c.deferredRequestByRequestId.lookup id).isSome = true)
  gone : ∀ id ∈ gone, (c.originalIdByRequestId.lookup id).isSome = true ∨
    (c.deferredRequestByRequestId.lookup id).isSome = true
  sorted : Sorted c.requestIdByDeadline
  sorted' : Sorted c.deferredRequestIdByDeadline

/-- The next `n` ids are not those of entries that the timer has still to clear. -/
def Fresh (n : Nat) (c : DnsClient) : Prop :=
  ∀ i < n, ∀ e ∈ c.requestIdByDeadline, e.2 ≠ c.nextRequestId + UInt16.ofNat i

theorem Fresh.next {n : Nat} {c : DnsClient} (h : Fresh (n + 1) c) :
    ∀ e ∈ c.requestIdByDeadline, e.2 ≠ c.nextRequestId := by
  intro e he
  simpa using h 0 (Nat.succ_pos n) e he

/-! ## Sending -/

def DnsClient.online : Bool := c.tcpSocket && !c.tcpSocketIsConnecting

def DnsClient.withSent (request : Bytes) (tcp : Bool) (room : Nat) : DnsClient :=
  { c with
    nextRequestId := c.nextRequestId + 1
    originalIdByRequestId := c.originalIdByRequestId.emplace c.nextRequestId (request.take 2)
    requestIdByDeadline :=
      emplace c.requestIdByDeadline (c.clock + c.requestTimeout) c.nextRequestId
    timer := true
    env := { c.env with room := room }
    events := c.events ++ [.returned c.nextRequestId tcp (request.take 2) (c.clock + c.requestTimeout)] ++
      [.sent c.nextRequestId] }

def DnsClient.withDeferred (request : Bytes) (socket connecting : Bool) (env : Env) : DnsClient :=
  { c with
    nextRequestId := c.nextRequestId + 1
    deferredRequestIdByDeadline :=
      emplace c.deferredRequestIdByDeadline (c.clock + c.requestTimeout) c.nextRequestId
    deferredRequestByRequestId := c.deferredRequestByRequestId.emplace c.nextRequestId request
    timer := true
    tcpSocket := socket
    tcpSocketIsConnecting := connecting
    env := env
    events := c.events ++ [.returned c.nextRequestId true (request.take 2) (c.clock + c.requestTimeout)] }

theorem digest_withSent {c : DnsClient} {id : UInt16} (hne : c.nextRequestId ≠ id) (request : Bytes) (tcp : Bool)
    (room : Nat) : digest id (c.withSent request tcp room).events = digest id c.events := by
  show digest id (c.events ++ _ ++ _) = _
  rw [digest_sent_other hne, digest_returned, if_neg hne]

theorem digest_withDeferred {c : DnsClient} {id : UInt16} (hne : c.nextRequestId ≠ id) (request : Bytes)
    (socket connecting : Bool) (env : Env) :
    digest id (c.withDeferred request socket connecting env).events = digest id c.events := by
  show digest id (c.events ++ _) = _
  rw [digest_returned, if_neg hne]

theorem sendRequest_cases (id : UInt16) (tcp : Bool) :
    (tcp = true → c.online = true) ∧ (∃ room, c.sendRequest request id tcp = ({ c with
      originalIdByRequestId := c.originalIdByRequestId.emplace id (request.take 2)
      env := { c.env with room := room }
      events := c.events ++ [.sent id] }, true)) ∨
    tcp = true ∧ ∃ socket connecting env, env.handler = c.env.handler ∧
      (socket && !connecting) = c.online ∧ c.sendRequest request id tcp = ({ c with
        tcpSocket := socket
        tcpSocketIsConnecting := connecting
        env := env }, false) := by
  unfold DnsClient.sendRequest
  cases tcp with
  | false => exact .inl ⟨fun h => (by cases h), c.env.room, rfl⟩
  | true =>
    simp only
    by_cases hoff : (!c.tcpSocket || c.tcpSocketIsConnecting) = true
    · rw [if_pos hoff]
      have honline : c.online = false := by
        rw [DnsClient.online]
        revert hoff
        cases c.tcpSocket <;> cases c.tcpSocketIsConnecting <;> decide
      refine .inr ⟨trivial, ?_⟩
      by_cases hconn : c.tcpSocketIsConnecting = true
      · rw [if_pos hconn]
        exact ⟨c.tcpSocket, c.tcpSocketIsConnecting, c.env, rfl, rfl, rfl⟩
      rw [if_neg hconn]
      refine ⟨c.env.connects.headD true, c.tcpSocketIsConnecting || c.env.connects.headD true,
        { c.env with connects := c.env.connects.tail }, rfl, ?_, rfl⟩
      rw [honline]
      cases c.env.connects.headD true <;> simp
    · rw [if_neg hoff]
      have honline : c.online = true := by
        rw [DnsClient.online]
        revert hoff
        cases c.tcpSocket <;> cases c.tcpSocketIsConnecting <;> decide
      by_cases hroom : c.env.room = 0
      · rw [if_pos hroom]
        exact .inr ⟨trivial, c.tcpSocket, c.tcpSocketIsConnecting, c.env, rfl, rfl, rfl⟩
      · rw [if_neg hroom]
        exact .inl ⟨fun _ => honline, c.env.room - 1, rfl⟩

theorem send_cases : c.send request tcp =
      { c with nextRequestId := c.nextRequestId + 1, events := c.events ++ [.refused] } ∨
    c.originalIdByRequestId.lookup c.nextRequestId = none ∧
    c.deferredRequestByRequestId.lookup c.nextRequestId = none ∧
    ((tcp = true → c.online = true) ∧ (∃ room, c.send request tcp = c.withSent request tcp room) ∨
      tcp = true ∧ ∃ socket connecting env, env.handler = c.env.handler ∧ (socket && !connecting) = c.online ∧
        c.send request tcp = c.withDeferred request socket connecting env) := by
  unfold DnsClient.send
  by_cases hshort : request.length < 2
  · left
    simp only [if_pos hshort]
    rfl
  simp only [if_neg hshort]
  by_cases hused : ((c.originalIdByRequestId.lookup c.nextRequestId).isSome ||
      (c.deferredRequestByRequestId.lookup c.nextRequestId).isSome) = true
  · left
    simp only [if_pos hused]
    rfl
  simp only [if_neg hused]
  rw [Bool.or_eq_true, not_or, not_isSome_iff_eq_none, not_isSome_iff_eq_none] at hused
  refine .inr ⟨hused.1, hused.2, ?_⟩
  rcases sendRequest_cases (DnsClient.raise { c with nextRequestId := c.nextRequestId + 1 }
    (.returned c.nextRequestId tcp (request.take 2) (c.clock + c.requestTimeout))) request c.nextRequestId tcp with
    ⟨honline, room, heq⟩ | ⟨rfl, socket, connecting, env, henv, honline, heq⟩
  · rw [heq]
    exact .inl ⟨honline, room, rfl⟩
  · rw [heq]
    exact .inr ⟨rfl, socket, connecting, env, henv, honline, rfl⟩

section Changes

variable {gone : List UInt16} {c c' : DnsClient} {id : UInt16} {slot : Slot} {n : Nat}

/-- Slots that differ at most in whether the TCP connection failed. -/
def Alike (g g' : Option Slot) : Prop :=
  g.map (fun s => { s with failed := false }) = g'.map fun s => { s with failed := false }

theorem Alike.exists {g g' : Option Slot} (h : Alike g g') (hg : g = some slot) :
    ∃ slot', g' = some slot' ∧ slot'.sent = slot.sent ∧ slot'.reply = slot.reply ∧ slot'.tcp = slot.tcp ∧
      slot'.originalId = slot.originalId ∧ slot'.deadline = slot.deadline := by
  subst hg
  cases g' with
  | none => cases h
  | some slot' =>
    refine ⟨slot', rfl, ?_⟩
    injection h with h
    injection h with h₁ h₂ h₃ h₄ h₅ h₆
    exact ⟨h₄.symm, h₆.symm, h₁.symm, h₂.symm, h₃.symm⟩

structure Place where
  originalId : Option Bytes
  body : Option Bytes
  slot : Option Slot
  due : Nat → Prop
  due' : Nat → Prop
  gone : Prop

def DnsClient.place (gone : List UInt16) (c : DnsClient) (id : UInt16) : Place where
  originalId := c.originalIdByRequestId.lookup id
  body := c.deferredRequestByRequestId.lookup id
  slot := digest id c.events
  due t := (t, id) ∈ c.requestIdByDeadline
  due' t := (t, id) ∈ c.deferredRequestIdByDeadline
  gone := id ∈ gone

structure Place.Right (p : Place) : Prop where
  inFlight : ∀ originalId, p.originalId = some originalId → ¬p.gone → ∃ slot, p.slot = some slot ∧
    slot.sent = true ∧ slot.reply = none ∧ slot.originalId = originalId ∧ ∀ t, p.due t → t = slot.deadline
  entry : ∀ originalId, p.originalId = some originalId → ∃ t, p.due t
  deferred : ∀ body, p.body = some body → ¬p.gone → ∃ slot, p.slot = some slot ∧ slot.sent = false ∧
    slot.reply = none ∧ slot.tcp = true ∧ slot.originalId = body.take 2 ∧ ∀ t, p.due' t → t = slot.deadline
  deferredEntry : (∃ t, p.due' t) ↔ p.body.isSome = true
  apart : ∀ t, p.due t → p.body = none
  waits : ∀ slot, p.slot = some slot → ¬p.gone ∧ (p.originalId.isSome = true ∨ p.body.isSome = true)
  gone : p.gone → p.originalId.isSome = true ∨ p.body.isSome = true

attribute [local simp] DnsClient.place

theorem Waiting.right (h : Waiting gone c) (id : UInt16) : (c.place gone id).Right where
  inFlight originalId hid hgone := by
    obtain ⟨slot, hslot, hsent, hreply, horig, hown⟩ := h.inFlight id originalId hid hgone
    exact ⟨slot, hslot, hsent, hreply, horig, fun t ht => hown _ ht rfl⟩
  entry originalId hid := by
    obtain ⟨e, he, rfl⟩ := h.entry id originalId hid
    exact ⟨e.1, he⟩
  deferred body hid hgone := by
    obtain ⟨slot, hslot, hsent, hreply, htcp, horig, hown⟩ := h.deferred id body hid hgone
    exact ⟨slot, hslot, hsent, hreply, htcp, horig, fun t ht => hown _ ht rfl⟩
  deferredEntry := by simpa using h.deferredEntry id
  apart t ht := h.apart _ ht
  waits := h.waits id
  gone := h.gone id

theorem Waiting.of_right (heach : Each Orderly c.events) (h : ∀ id, (c.place gone id).Right)
    (hnodup : (c.deferredRequestIdByDeadline.map Prod.snd).Nodup)
    (hsorted : Sorted c.requestIdByDeadline) (hsorted' : Sorted c.deferredRequestIdByDeadline) : Waiting gone c where
  each := heach
  inFlight id originalId hid hgone := by
    obtain ⟨slot, hslot, hsent, hreply, horig, hown⟩ := (h id).inFlight originalId hid hgone
    exact ⟨slot, hslot, hsent, hreply, horig, by rintro e he rfl; exact hown e.1 he⟩
  entry id originalId hid := by
    obtain ⟨t, ht⟩ := (h id).entry originalId hid
    exact ⟨(t, id), ht, rfl⟩
  deferred id body hid hgone := by
    obtain ⟨slot, hslot, hsent, hreply, htcp, horig, hown⟩ := (h id).deferred body hid hgone
    exact ⟨slot, hslot, hsent, hreply, htcp, horig, by rintro e he rfl; exact hown e.1 he⟩
  deferredEntry id := by simpa using (h id).deferredEntry
  nodup := hnodup
  apart e he := (h e.2).apart e.1 he
  waits id := (h id).waits
  gone id := (h id).gone
  sorted := hsorted
  sorted' := hsorted'

theorem Waiting.congr (h : Waiting gone c) (c' : DnsClient) (hevents : c'.events = c.events)
    (horig : c'.originalIdByRequestId = c.originalIdByRequestId)
    (hentries : c'.requestIdByDeadline = c.requestIdByDeadline)
    (hdef : c'.deferredRequestByRequestId = c.deferredRequestByRequestId)
    (hentries' : c'.deferredRequestIdByDeadline = c.deferredRequestIdByDeadline) : Waiting gone c' := by
  obtain ⟨h₁, h₂, h₃, h₄, h₅, h₆, h₇, h₈, h₉, h₁₀, h₁₁⟩ := h
  rw [← hevents, ← horig, ← hentries, ← hdef, ← hentries'] at *
  exact ⟨h₁, h₂, h₃, h₄, h₅, h₆, h₇, h₈, h₉, h₁₀, h₁₁⟩

theorem Waiting.change {gone' : List UInt16} (h : Waiting gone' c) (id : UInt16) (heach : Each Orderly c'.events)
    (hother : ∀ j, j ≠ id → c'.place gone j = c.place gone' j) (hself : (c'.place gone id).Right)
    (hnodup : (c'.deferredRequestIdByDeadline.map Prod.snd).Nodup) (hsorted : Sorted c'.requestIdByDeadline)
    (hsorted' : Sorted c'.deferredRequestIdByDeadline) : Waiting gone c' := by
  refine .of_right heach (fun j => ?_) hnodup hsorted hsorted'
  by_cases hj : j = id
  · rw [hj]
    exact hself
  · rw [hother j hj]
    exact h.right j

section

variable (h : Waiting gone c)
include h

theorem Waiting.alike {l : List Out} (heach : Each Orderly l)
    (halike : ∀ id, Alike (digest id c.events) (digest id l)) (hback : ∀ id,
      Alike (digest id l) (digest id c.events)) :
    Waiting gone { c with events := l } := by
  refine .of_right heach (fun id => ?_) h.nodup h.sorted h.sorted'
  have hid := h.right id
  refine { hid with inFlight := ?_, deferred := ?_, waits := ?_ }
  · intro originalId horig hgone
    obtain ⟨slot, hslot, hsent, hreply, horig, hown⟩ := hid.inFlight originalId horig hgone
    obtain ⟨slot', hslot', h₁, h₂, h₃, h₄, h₅⟩ := (halike id).exists hslot
    exact ⟨slot', hslot', h₁.trans hsent, h₂.trans hreply, h₄.trans horig, h₅ ▸ hown⟩
  · intro body hbody hgone
    obtain ⟨slot, hslot, hsent, hreply, htcp, horig, hown⟩ := hid.deferred body hbody hgone
    obtain ⟨slot', hslot', h₁, h₂, h₃, h₄, h₅⟩ := (halike id).exists hslot
    exact ⟨slot', hslot', h₁.trans hsent, h₂.trans hreply, h₃.trans htcp, h₄.trans horig, h₅ ▸ hown⟩
  · intro slot hslot
    obtain ⟨slot', hslot', -⟩ := (hback id).exists hslot
    exact hid.waits slot' hslot'

theorem Waiting.quiet {o : Out} (ho : Orderly c.events o)
    (hsame : ∀ id, digest id (c.events ++ [o]) = digest id c.events) :
    Waiting gone { c with events := c.events ++ [o] } :=
  h.alike (h.each.snoc ho) (fun id => by rw [hsame id]; rfl) (fun id => by rw [hsame id]; rfl)

theorem Waiting.free (horig : c.originalIdByRequestId.lookup id = none)
    (hdef : c.deferredRequestByRequestId.lookup id = none) : digest id c.events = none ∧ id ∉ gone := by
  have hnot : ¬((c.originalIdByRequestId.lookup id).isSome = true ∨
      (c.deferredRequestByRequestId.lookup id).isSome = true) := by
    simp [horig, hdef]
  exact ⟨eq_none_iff_forall_ne_some.mpr fun slot hd => hnot (h.waits id slot hd).2, fun hgone => hnot
    (h.gone id hgone)⟩

theorem Waiting.ne_of_digest {j : UInt16} (horig : c.originalIdByRequestId.lookup j = none)
    (hdef : c.deferredRequestByRequestId.lookup j = none) (id : UInt16) (slot : Slot)
    (hid : digest id c.events = some slot) : j ≠ id := by
  rintro rfl
  rw [(h.free horig hdef).1] at hid
  cases hid

theorem Waiting.not_deferredEntry (hdef : c.deferredRequestByRequestId.lookup id = none) (t : Nat) :
    (t, id) ∉ c.deferredRequestIdByDeadline := fun he => by
  have hsome := (h.deferredEntry id).mp ⟨_, he, rfl⟩
  rw [hdef] at hsome
  cases hsome

theorem Waiting.withSent (room : Nat) (horig : c.originalIdByRequestId.lookup c.nextRequestId = none)
    (hdef : c.deferredRequestByRequestId.lookup c.nextRequestId = none) (hfresh : Fresh (n + 1) c) :
    Waiting gone (c.withSent request tcp room) := by
  obtain ⟨hfree, hnot⟩ := h.free horig hdef
  have hentry : ∀ t, (t, c.nextRequestId) ∉ c.requestIdByDeadline := fun t ht => hfresh.next _ ht rfl
  have ho : Orderly c.events (.returned c.nextRequestId tcp (request.take 2) (c.clock + c.requestTimeout)) := hfree
  have hself : digest c.nextRequestId (c.withSent request tcp room).events = some
      { tcp := tcp, originalId := request.take 2, deadline := c.clock + c.requestTimeout, sent := true } :=
    digest_sent_self ((digest_returned tcp _ _).trans (if_pos rfl))
  refine h.change c.nextRequestId ((h.each.snoc ho).snoc trivial) (fun j hj => ?_) ?_ h.nodup h.sorted.emplace h.sorted'
  · rw [DnsClient.place, digest_withSent (Ne.symm hj)]
    simp [DnsClient.withSent, hj]
  · rw [DnsClient.place, hself]
    constructor <;> simp [DnsClient.withSent, horig, hdef, hentry, hnot, h.not_deferredEntry hdef]

theorem Waiting.withDeferred (socket connecting : Bool) (env : Env)
    (horig : c.originalIdByRequestId.lookup c.nextRequestId = none)
    (hdef : c.deferredRequestByRequestId.lookup c.nextRequestId = none) (hfresh : Fresh (n + 1) c) :
    Waiting gone (c.withDeferred request socket connecting env) := by
  obtain ⟨hfree, hnot⟩ := h.free horig hdef
  have hentry : ∀ t, (t, c.nextRequestId) ∉ c.requestIdByDeadline := fun t ht => hfresh.next _ ht rfl
  have hentry' := h.not_deferredEntry hdef
  refine h.change c.nextRequestId (h.each.snoc hfree) (fun j hj => ?_) ?_ ?_ h.sorted h.sorted'.emplace
  · rw [DnsClient.place, digest_withDeferred (Ne.symm hj)]
    simp [DnsClient.withDeferred, hj]
  · constructor <;>
      simp [DnsClient.withDeferred, digest_returned, horig, hdef, hentry, hnot, hentry']
  have hperm := (emplace_perm c.deferredRequestIdByDeadline (c.clock + c.requestTimeout) c.nextRequestId).map Prod.snd
  refine hperm.nodup_iff.mpr (nodup_cons.mpr ⟨fun hmem => ?_, h.nodup⟩)
  obtain ⟨⟨t, -⟩, ht, rfl⟩ := mem_map.mp hmem
  exact hentry' t ht

theorem Waiting.answered {slot₀ : Slot} (hwas : digest id c.events = some slot₀)
    {l : List Out} (heach : Each Orderly l) (hl : ∀ j, j ≠ id → digest j l = digest j c.events)
    (hslot : digest id l = some slot) {data : Bytes} {now : Nat} (hdata : slot.Answer data now) :
    Waiting (id :: gone) { c with events := l ++ [.response id data now] } := by
  have hid := h.right id
  refine h.change id (heach.snoc ⟨slot, hslot, hdata⟩) (fun j hj => ?_) ?_ h.nodup h.sorted h.sorted'
  · simp [digest_response_other (Ne.symm hj), hl j hj, hj]
  exact { hid with
    inFlight := fun _ _ hgone => absurd mem_cons_self hgone
    deferred := fun _ _ hgone => absurd mem_cons_self hgone
    waits := fun slot hslot => by
      rw [DnsClient.place, digest_response_self] at hslot
      cases hslot
    gone := fun _ => (hid.waits slot₀ hwas).2 }

end

theorem Waiting.eraseInFlight (h : Waiting (id :: gone) c) (hgone : id ∉ gone)
    (hdef : c.deferredRequestByRequestId.lookup id = none) {rest : List (Nat × UInt16)}
    (hsub : rest.Sublist c.requestIdByDeadline) (hrest : ∀ e ∈ c.requestIdByDeadline, e.2 ≠ id → e ∈ rest) :
    Waiting gone { c with
      originalIdByRequestId := c.originalIdByRequestId.erase id
      requestIdByDeadline := rest } := by
  have hslot : ∀ slot, digest id c.events ≠ some slot := fun slot hid =>
    (h.waits id slot hid).1 mem_cons_self
  refine h.change id h.each (fun j hj => ?_) ?_ h.nodup (h.sorted.sublist hsub) h.sorted'
  · have hdue : ∀ t, (t, j) ∈ rest ↔ (t, j) ∈ c.requestIdByDeadline := fun t =>
      ⟨fun ht => hsub.subset ht, fun ht => hrest _ ht hj⟩
    simp [hj, hdue]
  · constructor <;> simp [hdef, hgone, hslot, h.not_deferredEntry hdef]

theorem Waiting.not_deferred (h : Waiting gone c) {originalId : Bytes}
    (horig : c.originalIdByRequestId.lookup id = some originalId) : c.deferredRequestByRequestId.lookup id = none := by
  obtain ⟨e, he, rfl⟩ := h.entry id originalId horig
  exact h.apart e he

theorem Waiting.not_inFlight (h : Waiting gone c) {body : Bytes}
    (hbody : c.deferredRequestByRequestId.lookup id = some body) : c.originalIdByRequestId.lookup id = none :=
  eq_none_iff_forall_ne_some.mpr fun _ horig => by
    rw [h.not_deferred horig] at hbody
    cases hbody

theorem Waiting.head (h : Waiting gone c) {deadline : Nat} {rest : List (Nat × UInt16)}
    (hlist : c.deferredRequestIdByDeadline = (deadline, id) :: rest) :
    (rest.map Prod.snd).Nodup ∧ Sorted rest ∧ (∀ t, (t, id) ∉ rest) ∧
      ∀ j, j ≠ id → ∀ t, (t, j) ∈ c.deferredRequestIdByDeadline ↔ (t, j) ∈ rest := by
  have hnodup := h.nodup
  have hsorted := h.sorted'
  rw [hlist, map_cons, nodup_cons] at hnodup
  rw [hlist] at hsorted ⊢
  refine ⟨hnodup.2, (pairwise_cons.mp hsorted).2, fun t ht => hnodup.1 (mem_map.mpr ⟨_, ht,
    rfl⟩), fun j hj t => ?_⟩
  simp [hj]

theorem Waiting.eraseDeferred (h : Waiting (id :: gone) c) (hgone : id ∉ gone)
    (horig : c.originalIdByRequestId.lookup id = none) {deadline : Nat} {rest : List (Nat × UInt16)}
    (hlist : c.deferredRequestIdByDeadline = (deadline, id) :: rest) : Waiting gone { c with
      deferredRequestByRequestId := c.deferredRequestByRequestId.erase id
      deferredRequestIdByDeadline := rest } := by
  obtain ⟨hnodup, hsorted, hnot, hothers⟩ := h.head hlist
  have hslot : ∀ slot, digest id c.events ≠ some slot := fun slot hid =>
    (h.waits id slot hid).1 mem_cons_self
  refine h.change id h.each (fun j hj => ?_) ?_ hnodup h.sorted hsorted
  · simp [hj, hothers j hj]
  · constructor <;> simp [horig, hgone, hslot, hnot]

theorem Waiting.clearInFlight (h : Waiting gone c)
    (hall : ∀ id, (c.originalIdByRequestId.lookup id).isSome = true ↔ id ∈ gone) :
    Waiting [] { c with originalIdByRequestId := ∅, requestIdByDeadline := [] } where
  each := h.each
  inFlight _ _ hid := by cases hid
  entry _ _ hid := by cases hid
  deferred id body hid _ := by
    refine h.deferred id body hid fun hgone => ?_
    have hsome := (hall id).mpr hgone
    rw [h.not_inFlight hid] at hsome
    cases hsome
  deferredEntry := h.deferredEntry
  nodup := h.nodup
  apart e he := by cases he
  waits id slot hid := by
    obtain ⟨hnot, hmap⟩ := h.waits id slot hid
    refine ⟨by simp, .inr (hmap.resolve_left fun hmap => hnot ((hall id).mp hmap))⟩
  gone id hid := by cases hid
  sorted := List.Pairwise.nil
  sorted' := h.sorted'

theorem Waiting.clearDeferred (h : Waiting gone c)
    (hall : ∀ id, (c.deferredRequestByRequestId.lookup id).isSome = true ↔ id ∈ gone) :
    Waiting [] { c with deferredRequestIdByDeadline := [], deferredRequestByRequestId := ∅ } where
  each := h.each
  inFlight id originalId hid _ := by
    refine h.inFlight id originalId hid fun hgone => ?_
    have hsome := (hall id).mpr hgone
    rw [h.not_deferred hid] at hsome
    cases hsome
  entry := h.entry
  deferred _ _ hid := by cases hid
  deferredEntry id := by simp
  nodup := List.Pairwise.nil
  apart e he := rfl
  waits id slot hid := by
    obtain ⟨hnot, hmap⟩ := h.waits id slot hid
    refine ⟨by simp, .inl (hmap.resolve_right fun hmap => hnot ((hall id).mp hmap))⟩
  gone id hid := by cases hid
  sorted := h.sorted
  sorted' := List.Pairwise.nil

theorem Waiting.moved (h : Waiting gone c) {deadline : Nat} {rest : List (Nat × UInt16)} {body : Bytes}
    (hlist : c.deferredRequestIdByDeadline = (deadline, id) :: rest)
    (hbody : c.deferredRequestByRequestId.lookup id = some body) (hgone : id ∉ gone) (room : Nat) :
    Waiting gone { c with
      originalIdByRequestId := c.originalIdByRequestId.emplace id (body.take 2)
      env := { c.env with room := room }
      events := c.events ++ [.sent id]
      deferredRequestByRequestId := c.deferredRequestByRequestId.erase id
      requestIdByDeadline := emplace c.requestIdByDeadline deadline id
      deferredRequestIdByDeadline := rest } := by
  obtain ⟨slot, hslot, -, hreply, htcp, horig, hown⟩ := h.deferred id body hbody hgone
  have hentry : ∀ t, (t, id) ∉ c.requestIdByDeadline := fun t ht => by
    have hn := h.apart _ ht
    rw [hbody] at hn
    cases hn
  have hnone := h.not_inFlight hbody
  obtain ⟨hnodup, hsorted, hnot, hothers⟩ := h.head hlist
  have hdeadline : deadline = slot.deadline := hown (deadline, id) (by rw [hlist]; simp) rfl
  refine h.change id (h.each.snoc trivial) (fun j hj => ?_) ?_ hnodup h.sorted.emplace hsorted
  · simp [digest_sent_other (Ne.symm hj), hj, hothers j hj]
  · constructor <;>
      simp [digest_sent_self hslot, hnone, hreply, horig, hentry, hdeadline, hnot, hgone]

end Changes

/-! ## What sending keeps -/

section Send

variable {gone : List UInt16} {c : DnsClient} {n : Nat}

theorem ne_add_ofNat (a : UInt16) {i : Nat} (hi : i < 65535) : a ≠ a + 1 + UInt16.ofNat i := by
  intro heq
  have hnat := congrArg UInt16.toNat heq
  simp only [UInt16.toNat_add, UInt16.toNat_ofNat', UInt16.toNat_one] at hnat
  omega

theorem Fresh.tail (h : Fresh (n + 1) c) : ∀ i < n, ∀ e ∈ c.requestIdByDeadline,
    e.2 ≠ c.nextRequestId + 1 + UInt16.ofNat i := by
  intro i hi e he
  have hne := h (i + 1) (by omega) e he
  rw [UInt16.ofNat_add, UInt16.add_comm (UInt16.ofNat i), ← UInt16.add_assoc] at hne
  exact hne

/-- What sending keeps, when `n` of the next ids are fresh afterwards: the invariant, the requests that
wait, and what is not its business. An entry that is new has a late deadline. -/
structure Kept (gone : List UInt16) (n : Nat) (c c' : DnsClient) : Prop where
  waiting : Waiting gone c'
  fresh : Fresh n c'
  digest : ∀ id slot, digest id c.events = some slot → Client.digest id c'.events = some slot
  handler : c'.env.handler = c.env.handler
  clock : c.clock ≤ c'.clock
  online : c'.online = c.online
  timeout : c'.requestTimeout = c.requestTimeout
  later : Grown (c.clock + c.requestTimeout) c.requestIdByDeadline c'.requestIdByDeadline
  later' : Grown (c.clock + c.requestTimeout) c.deferredRequestIdByDeadline c'.deferredRequestIdByDeadline

theorem send_kept (h : Waiting gone c) (hfresh : Fresh (n + 1) c) (hn : n < 65536) (request : Bytes)
    (tcp : Bool) : Kept gone n c (c.send request tcp) := by
  rcases send_cases c request tcp with
    heq | ⟨horig, hdef, ⟨-, room, heq⟩ | ⟨rfl, socket, connecting, env, henv, honline, heq⟩⟩
  · have hsame : ∀ id, digest id (c.events ++ [.refused]) = digest id c.events := fun id => by
      rw [digest_snoc]
      cases digest id c.events <;> rfl
    rw [heq]
    exact {
      waiting := (h.quiet (o := .refused) trivial hsame).congr _ rfl rfl rfl rfl rfl
      fresh := hfresh.tail
      digest := fun id slot hid => (hsame id).trans hid
      handler := rfl
      clock := Nat.le_refl _
      online := rfl
      timeout := rfl
      later := .refl
      later' := .refl }
  · have hne := h.ne_of_digest horig hdef
    rw [heq]
    exact {
      waiting := h.withSent request tcp room horig hdef hfresh
      fresh := fun i hi e he => by
        rcases mem_emplace.mp he with rfl | he
        · exact ne_add_ofNat _ (by omega)
        · exact hfresh.tail i hi e he
      digest := fun id slot hid => (digest_withSent (hne id slot hid) request tcp room).trans hid
      handler := rfl
      clock := Nat.le_refl _
      online := rfl
      timeout := rfl
      later := .emplace .refl (Nat.le_refl _)
      later' := .refl }
  · have hne := h.ne_of_digest horig hdef
    rw [heq]
    exact {
      waiting := h.withDeferred request socket connecting env horig hdef hfresh
      fresh := hfresh.tail
      digest := fun id slot hid => (digest_withDeferred (hne id slot hid) request socket connecting env).trans hid
      handler := henv
      clock := Nat.le_refl _
      online := honline
      timeout := rfl
      later := .refl
      later' := .emplace .refl (Nat.le_refl _) }

theorem sendAll_kept (rs : List Request) (h : Waiting gone c) (hfresh : Fresh (rs.length + n) c)
    (hn : rs.length + n ≤ 65536) : Kept gone n c (c.sendAll rs) := by
  induction rs generalizing c with
  | nil =>
    rw [length_nil, Nat.zero_add] at hfresh
    exact ⟨h, hfresh, fun _ _ hid => hid, rfl, Nat.le_refl _, rfl, rfl, .refl, .refl⟩
  | cons r rs ih =>
    have hlen : (r :: rs).length + n = rs.length + n + 1 := by
      rw [length_cons]
      omega
    rw [hlen] at hfresh hn
    have hfirst := send_kept (c := { c with clock := c.clock + r.elapsed })
      (h.congr _ rfl rfl rfl rfl rfl) hfresh (by omega) r.bytes r.tcp
    have hrest := ih hfirst.waiting hfirst.fresh (by omega)
    have hclock := Nat.le_trans (Nat.le_add_right c.clock r.elapsed) hfirst.clock
    have hlate := Nat.add_le_add hclock (Nat.le_of_eq hfirst.timeout.symm)
    have hgrown {m m' : List (Nat × UInt16)} (hm : Grown (c.clock + r.elapsed + c.requestTimeout) m m') :
        Grown (c.clock + c.requestTimeout) m m' := Grown.refl.trans hm (by omega)
    exact {
      waiting := hrest.waiting
      fresh := hrest.fresh
      digest := fun id slot hid => hrest.digest id slot (hfirst.digest id slot hid)
      handler := hrest.handler.trans hfirst.handler
      clock := Nat.le_trans hclock hrest.clock
      online := hrest.online.trans hfirst.online
      timeout := hrest.timeout.trans hfirst.timeout
      later := (hgrown hfirst.later).trans hrest.later hlate
      later' := (hgrown hfirst.later').trans hrest.later' hlate }

theorem respond_kept {id : UInt16} {data : Bytes}
    (h : Waiting gone { c with events := c.events ++ [.response id data c.clock] })
    (hfresh : Fresh c.toSend c) (hle : c.toSend ≤ 65536) :
    Kept gone (c.respond id data).toSend
      { c with events := c.events ++ [.response id data c.clock], env := { c.env with handler := c.env.handler.tail } }
      (c.respond id data) := by
  let c₁ : DnsClient := { c with
    events := c.events ++ [.response id data c.clock]
    env := { c.env with handler := c.env.handler.tail } }
  have hsum : c.toSend = (c.env.handler.headD []).length + c₁.toSend := by
    show (c.env.handler.map List.length).sum = _ + (c.env.handler.tail.map List.length).sum
    cases c.env.handler with
    | nil | cons rs rss => rfl
  have hkept : Kept gone c₁.toSend c₁ (c₁.sendAll (c.env.handler.headD [])) :=
    sendAll_kept _ (h.congr c₁ rfl rfl rfl rfl rfl) (hsum ▸ hfresh) (hsum ▸ hle)
  have hsame : (c.respond id data).toSend = c₁.toSend := by
    show ((c₁.sendAll _).env.handler.map List.length).sum = _
    rw [hkept.handler]
    rfl
  rw [hsame]
  exact hkept

end Send

end TrustTunnel.Dns.Client
