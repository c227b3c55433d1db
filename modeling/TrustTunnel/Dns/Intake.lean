import TrustTunnel.Dns.Answers

/-!
# Dns.Intake

What the DNS client makes of the bytes of a TCP connection, and that its timer is pending while requests
wait. Both are beside the requests: `Aside` says that a part of the code leaves them alone.
-/

namespace TrustTunnel.Dns.Client

open Lib List Bool Multimap

/-! ## The stream of a connection -/

open Wire

/-- The message at the front of a buffer, after its size. -/
def nextMessage (d : Bytes) : Front Bytes UInt8 :=
  match getU16 d with
  | none => .more
  | some (size, rest) =>
    if rest.length < size.toNat then .more else .item (rest.take size.toNat) (rest.drop size.toNat)

theorem nextMessage_more {d : Bytes} (h : getU16 d = none) : nextMessage d = .more := by
  rw [nextMessage]
  simp [h]

theorem nextMessage_eq {d rest : Bytes} {size : UInt16} (h : getU16 d = some (size, rest)) :
    nextMessage d = if rest.length < size.toNat then .more
      else .item (rest.take size.toNat) (rest.drop size.toNat) := by
  rw [nextMessage]
  simp [h]

theorem nextMessage_item {d a r : Bytes} (h : nextMessage d = .item a r) : ∃ size rest,
    getU16 d = some (size, rest) ∧ size.toNat ≤ rest.length ∧ a = rest.take size.toNat ∧
      r = rest.drop size.toNat := by
  cases hu : getU16 d with
  | none =>
    rw [nextMessage_more hu] at h
    cases h
  | some e =>
    obtain ⟨size, rest⟩ := e
    rw [nextMessage_eq hu] at h
    split at h
    · cases h
    · rename_i hlen
      cases h
      exact ⟨size, rest, rfl, Nat.le_of_not_lt hlen, rfl, rfl⟩

theorem nextMessage_ne_bad (d : Bytes) : nextMessage d ≠ .bad := by
  cases hu : getU16 d with
  | none =>
    rw [nextMessage_more hu]
    exact fun h => by cases h
  | some e =>
    rw [nextMessage_eq hu]
    split
    all_goals exact fun h => by cases h

theorem getU16_append {d rest : Bytes} {size : UInt16} (e : Bytes) (h : getU16 d = some (size, rest)) :
    getU16 (d ++ e) = some (size, rest ++ e) ∧ d.length = rest.length + 2 := by
  rcases d with _ | ⟨a, _ | ⟨b, d⟩⟩
  · cases h
  · cases h
  · obtain ⟨rfl, rfl⟩ := h
    exact ⟨rfl, rfl⟩

def messageFraming : Framing Bytes UInt8 where
  next := nextMessage
  progress {d a r} h := by
    obtain ⟨size, rest, hu, -, -, rfl⟩ := nextMessage_item h
    have hlen := (getU16_append [] hu).2
    rw [length_drop]
    omega
  item_append {d a r} e h := by
    obtain ⟨size, rest, hu, hlen, rfl, rfl⟩ := nextMessage_item h
    rw [nextMessage_eq (getU16_append e hu).1, if_neg (by rw [length_append]; omega),
      take_append_of_le_length hlen, drop_append_of_le_length hlen]
  bad_append {d} _ h := absurd h (nextMessage_ne_bad d)

/-- The bytes read since the connection was made, and the messages taken from them. -/
def addStream (s : Bytes × List Bytes) : Out → Bytes × List Bytes
  | .connected => ([], [])
  | .chunk bytes => (s.1 ++ bytes, s.2)
  | .reply true message => (s.1, s.2 ++ [message])
  | _ => s

def stream (l : List Out) : Bytes × List Bytes := l.foldl addStream ([], [])

theorem stream_snoc (l : List Out) (o : Out) : stream (l ++ [o]) = addStream (stream l) o := by
  rw [stream, foldl_append]
  rfl

def DnsClient.pending (c : DnsClient) : Bytes :=
  (c.responseSize.map putU16).getD [] ++ c.responseBuffer

def Framed (c : DnsClient) : Prop :=
  if c.online = true then messageFraming.drain (stream c.events).1 = ⟨(stream c.events).2, true, c.pending⟩
  else c.responseBuffer = [] ∧ c.responseSize = none

/-- The messages so far are those of the stream behind the bytes `p`. -/
def Reads (p : Bytes) (c : DnsClient) : Prop :=
  messageFraming.drain (p ++ (stream c.events).1) = ⟨(stream c.events).2, true, c.pending⟩

def Armed (c : DnsClient) : Prop :=
  c.requestIdByDeadline ≠ [] ∨ c.deferredRequestIdByDeadline ≠ [] → c.timer = true

/-- No deadline is later than that of a request that is sent now. -/
def Early (c : DnsClient) : Prop :=
  ∀ e, e ∈ c.requestIdByDeadline ∨ e ∈ c.deferredRequestIdByDeadline → e.1 ≤ c.clock + c.requestTimeout

theorem Early.wait {c : DnsClient} (h : Early c) (elapsed : Nat) (env : Env) :
    Early { c with clock := c.clock + elapsed, env := env } := fun e he =>
  Nat.le_trans (h e he) (Nat.add_le_add_right (Nat.le_add_right _ _) _)

/-! ## Parts that leave it alone -/

structure Aside (c c' : DnsClient) : Prop where
  timeout : c'.requestTimeout = c.requestTimeout
  buffer : c'.responseBuffer = c.responseBuffer
  size : c'.responseSize = c.responseSize
  online : c'.online = c.online
  stream : stream c'.events = stream c.events
  armed : Armed c → Armed c'
  early : Early c → Early c'

theorem Aside.refl (c : DnsClient) : Aside c c := ⟨rfl, rfl, rfl, rfl, rfl, id, id⟩

theorem Aside.trans {c c' c'' : DnsClient} (h : Aside c c') (h' : Aside c' c'') : Aside c c'' :=
  ⟨h'.timeout.trans h.timeout, h'.buffer.trans h.buffer, h'.size.trans h.size, h'.online.trans h.online,
    h'.stream.trans h.stream, fun ha => h'.armed (h.armed ha), fun he => h'.early (h.early he)⟩

theorem Aside.pending {c c' : DnsClient} (h : Aside c c') : c'.pending = c.pending := by
  rw [DnsClient.pending, h.size, h.buffer]
  rfl

theorem Aside.framed {c c' : DnsClient} (h : Aside c c') (hf : Framed c) : Framed c' := by
  rw [Framed, h.online, h.stream, h.pending, h.buffer, h.size]
  exact hf

theorem Aside.reads {p : Bytes} {c c' : DnsClient} (h : Aside c c') (hr : Reads p c) : Reads p c' := by
  rw [Reads, h.stream, h.pending]
  exact hr

section Parts

variable {c : DnsClient}

theorem early_emplace {k : Nat} {v : UInt16} {l : List (Nat × UInt16)} (h : Early c)
    (hl : ∀ e ∈ l, e ∈ c.requestIdByDeadline ∨ e ∈ c.deferredRequestIdByDeadline)
    (hk : k ≤ c.clock + c.requestTimeout) : ∀ e ∈ Multimap.emplace l k v, e.1 ≤ c.clock + c.requestTimeout := by
  intro e he
  rcases mem_emplace.mp he with rfl | he
  · exact hk
  · exact h e (hl e he)

theorem aside_send (request : Bytes) (tcp : Bool) : Aside c (c.send request tcp) := by
  rcases send_cases c request tcp with
    heq | ⟨-, -, ⟨-, room, heq⟩ | ⟨rfl, socket, connecting, env, -, honline, heq⟩⟩
  · rw [heq]
    exact ⟨rfl, rfl, rfl, rfl, stream_snoc _ _, id, id⟩
  · rw [heq]
    refine ⟨rfl, rfl, rfl, rfl, (stream_snoc _ _).trans (stream_snoc _ _), fun _ _ => rfl, fun h e he => ?_⟩
    exact he.elim (early_emplace h (fun e => .inl) (Nat.le_refl _) e) fun he => h e (.inr he)
  · rw [heq]
    refine ⟨rfl, rfl, rfl, honline, stream_snoc _ _, fun _ _ => rfl, fun h e he => ?_⟩
    exact he.elim (fun he => h e (.inl he)) (early_emplace h (fun e => .inr) (Nat.le_refl _) e)

theorem aside_sendAll (rs : List Request) : Aside c (c.sendAll rs) := by
  induction rs generalizing c with
  | nil => exact .refl c
  | cons r rs ih =>
    have hclock : Aside c { c with clock := c.clock + r.elapsed } :=
      ⟨rfl, rfl, rfl, rfl, rfl, id, fun h => h.wait r.elapsed c.env⟩
    exact (hclock.trans (aside_send r.bytes r.tcp)).trans ih

theorem aside_respond (id : UInt16) (data : Bytes) : Aside c (c.respond id data) := by
  have hraise : Aside c ({ c with env := { c.env with handler := c.env.handler.tail } }.raise
      (.response id data c.clock)) := ⟨rfl, rfl, rfl, rfl, stream_snoc _ _, fun h => h, fun h => h⟩
  exact hraise.trans (aside_sendAll _)

theorem aside_onMessage (tcp : Bool) (message : Bytes) :
    Aside (c.raise (.reply tcp message)) (c.onMessage tcp message) := by
  cases hu : getU16 message with
  | none =>
    rw [onMessage_short tcp hu]
    exact .refl _
  | some r =>
    obtain ⟨id, body⟩ := r
    cases horig : c.originalIdByRequestId.lookup id with
    | none =>
      rw [onMessage_unknown tcp hu horig]
      exact .refl _
    | some originalId =>
      rw [onMessage_known tcp hu horig]
      have herase : Aside (c.raise (.reply tcp message)) { c with
          events := c.events ++ [.reply tcp message]
          originalIdByRequestId := c.originalIdByRequestId.erase id } :=
        ⟨rfl, rfl, rfl, rfl, rfl, fun h => h, fun h => h⟩
      exact herase.trans (aside_respond id (originalId ++ body))

theorem aside_datagram (datagram : Bytes) : Aside c (c.onMessage false datagram) := by
  have hraise : Aside c (c.raise (.reply false datagram)) :=
    ⟨rfl, rfl, rfl, rfl, stream_snoc _ _, fun h => h, fun h => h⟩
  exact hraise.trans (aside_onMessage false datagram)

theorem aside_failAll (ids : List UInt16) : Aside c (c.failAll ids) := by
  induction ids generalizing c with
  | nil => exact .refl c
  | cons id ids ih => exact (aside_respond id []).trans ih

theorem aside_failDeferred (n i : Nat) : Aside c (DnsClient.failDeferred n i c) := by
  induction n generalizing c i with
  | zero => exact .refl c
  | succ n ih =>
    rw [DnsClient.failDeferred]
    split
    · exact .refl c
    · exact (aside_respond _ []).trans (ih _)

theorem aside_expireInFlight (stop : Option (Nat × UInt16)) (n : Nat) :
    Aside c (DnsClient.expireInFlight stop n c) := by
  refine sweep_keeps (P := Aside c) (fun c' e rest h hlist => h.trans ?_) n c (.refl c)
  have hrest : ∀ m, Aside c' { c' with requestIdByDeadline := rest, originalIdByRequestId := m } := fun m =>
    ⟨rfl, rfl, rfl, rfl, rfl, fun h hne => h (hne.imp_left fun _ => by rw [hlist]; simp),
      fun h e he => h e (he.imp_left fun he => by rw [hlist]; exact mem_cons_of_mem _ he)⟩
  rw [DnsClient.timeOutInFlight]
  split
  · exact (hrest _).trans (aside_respond e.2 [])
  · exact hrest _

theorem aside_expireDeferred (stop : Option (Nat × UInt16)) (n : Nat) :
    Aside c (DnsClient.expireDeferred stop n c) := by
  refine sweep_keeps (P := Aside c) (fun c' e rest h hlist => h.trans ?_) n c (.refl c)
  have hrest : ∀ m, Aside c' { c' with
      deferredRequestIdByDeadline := rest
      deferredRequestByRequestId := m } := fun m =>
    ⟨rfl, rfl, rfl, rfl, rfl, fun h hne => h (hne.imp_right fun _ => by rw [hlist]; simp),
      fun h e he => h e (he.imp_right fun he => by rw [hlist]; exact mem_cons_of_mem _ he)⟩
  rw [DnsClient.timeOutDeferred]
  split
  · exact (hrest _).trans (aside_respond e.2 [])
  · exact hrest _

theorem aside_sendDeferred (list : List (Nat × UInt16)) (hlist : c.deferredRequestIdByDeadline = list) :
    Aside c (c.sendDeferred list) := by
  induction list generalizing c with
  | nil => exact .refl c
  | cons e rest ih =>
    obtain ⟨deadline, id⟩ := e
    rw [DnsClient.sendDeferred]
    rcases sendRequest_cases c ((c.deferredRequestByRequestId.lookup id).getD []) id true with
      ⟨-, room, heq⟩ | ⟨-, socket, connecting, env, -, honline, heq⟩
    · simp only [heq]
      have hmoved : Aside c { c with
          originalIdByRequestId := c.originalIdByRequestId.emplace id
            (((c.deferredRequestByRequestId.lookup id).getD []).take 2)
          env := { c.env with room := room }
          events := c.events ++ [.sent id]
          deferredRequestByRequestId := c.deferredRequestByRequestId.erase id
          requestIdByDeadline := Multimap.emplace c.requestIdByDeadline deadline id
          deferredRequestIdByDeadline := rest } := by
        refine ⟨rfl, rfl, rfl, rfl, stream_snoc _ _, fun h _ => h (.inr (by rw [hlist]; simp)), fun h e he => ?_⟩
        have hfirst := h (deadline, id) (.inr (by rw [hlist]; exact mem_cons_self))
        exact he.elim (early_emplace h (fun e => .inl) hfirst e) fun he =>
          h e (.inr (by rw [hlist]; exact mem_cons_of_mem _ he))
      exact hmoved.trans (ih rfl)
    · simp only [heq]
      exact ⟨rfl, rfl, rfl, honline, rfl, fun h => h, fun h => h⟩

theorem aside_timerHandler : Aside c c.timerHandler := by
  let c₁ : DnsClient := { c with timer := false }
  let c₂ := DnsClient.expireInFlight (upperBound c.requestIdByDeadline c.clock)
    (c₁.requestIdByDeadline.length + c₁.toSend) c₁
  let c₃ := DnsClient.expireDeferred (upperBound c₂.deferredRequestIdByDeadline c.clock)
    (c₂.deferredRequestIdByDeadline.length + c₂.toSend) c₂
  have haside : Aside c₁ c₃ := (aside_expireInFlight _ _).trans (aside_expireDeferred _ _)
  have heq : c.timerHandler = if c₃.requestIdByDeadline.isEmpty && c₃.deferredRequestIdByDeadline.isEmpty then c₃
      else { c₃ with timer := true } := rfl
  rw [heq]
  by_cases hempty : (c₃.requestIdByDeadline.isEmpty && c₃.deferredRequestIdByDeadline.isEmpty) = true
  · rw [if_pos hempty]
    rw [and_eq_true, List.isEmpty_iff, List.isEmpty_iff] at hempty
    refine { haside with armed := fun _ hne => ?_, early := haside.early }
    rw [hempty.1, hempty.2] at hne
    rcases hne with hne | hne <;> exact absurd rfl hne
  · rw [if_neg hempty]
    exact { haside with armed := fun _ _ => rfl, early := haside.early }

end Parts

/-! ## The stream is read -/

section Reading

variable {c : DnsClient}

theorem putU16_getU16 {d rest : Bytes} {size : UInt16} (h : getU16 d = some (size, rest)) :
    putU16 size ++ rest = d := by
  rcases d with _ | ⟨a, _ | ⟨b, d⟩⟩
  · cases h
  · cases h
  obtain ⟨rfl, rfl⟩ := h
  have ha := a.toNat_lt
  have hb := b.toNat_lt
  have hfirst : ((a.toNat * 256 + b.toNat).toUInt16.toNat / 256).toUInt8 = a := by
    apply UInt8.toNat_inj.mp
    simp only [UInt8.toNat_ofNat', UInt16.toNat_ofNat']
    omega
  have hsecond : (a.toNat * 256 + b.toNat).toUInt16.toNat.toUInt8 = b := by
    apply UInt8.toNat_inj.mp
    simp only [UInt8.toNat_ofNat', UInt16.toNat_ofNat']
    omega
  rw [putU16, hfirst, hsecond]
  rfl

theorem takeSize_cases (c : DnsClient) : c.takeSize.pending = c.pending ∧
    (c.takeSize.responseSize = none ∧ getU16 c.pending = none ∨ ∃ size, c.takeSize.responseSize = some size ∧
        getU16 c.pending = some (size, c.takeSize.responseBuffer)) := by
  rw [DnsClient.takeSize, DnsClient.pending, DnsClient.pending]
  cases hsize : c.responseSize with
  | some size =>
    simp only [hsize]
    exact ⟨trivial, .inr ⟨size, rfl, getU16_putU16 size _⟩⟩
  | none =>
    cases hu : getU16 c.responseBuffer with
    | none =>
      simp only [hsize]
      exact ⟨trivial, .inl ⟨trivial, hu⟩⟩
    | some e =>
      obtain ⟨size, rest⟩ := e
      exact ⟨putU16_getU16 hu, .inr ⟨size, rfl, hu⟩⟩

theorem aside_takeSize (c : DnsClient) : c.takeSize.online = c.online ∧ c.takeSize.events = c.events ∧
    c.takeSize.requestTimeout = c.requestTimeout ∧
      (Armed c ∧ Early c → Armed c.takeSize ∧ Early c.takeSize) := by
  obtain ⟨size, buffer, heq⟩ := takeSize_eq c
  rw [heq]
  exact ⟨rfl, rfl, rfl, id⟩

theorem parse_framed (n : Nat) (hn : c.pending.length < 2 * (n + 1)) : (messageFraming.drain c.pending).ok = true ∧
    stream (c.parse n).events = ((stream c.events).1, (stream c.events).2 ++ (messageFraming.drain c.pending).items) ∧
    (c.parse n).pending = (messageFraming.drain c.pending).rest ∧ (c.parse n).online = c.online ∧
    (c.parse n).requestTimeout = c.requestTimeout ∧
    (Armed c ∧ Early c → Armed (c.parse n) ∧ Early (c.parse n)) := by
  induction n generalizing c with
  | zero =>
    have hmore : messageFraming.next c.pending = .more := by
      refine nextMessage_more ?_
      cases hu : getU16 c.pending with
      | none => rfl
      | some e =>
        have hlen := (getU16_append [] hu).2
        omega
    rw [messageFraming.drain_more hmore]
    exact ⟨rfl, by rw [append_nil]; rfl, rfl, rfl, rfl, id⟩
  | succ n ih =>
    obtain ⟨hpending, hcases⟩ := takeSize_cases c
    obtain ⟨honline, hevents, htimeout, harmed⟩ := aside_takeSize c
    rw [DnsClient.parse]
    rcases hcases with ⟨hsize, hu⟩ | ⟨size, hsize, hu⟩
    · simp only [hsize]
      rw [messageFraming.drain_more (nextMessage_more hu)]
      exact ⟨rfl, by rw [append_nil, hevents], hpending, honline, htimeout, harmed⟩
    simp only [hsize]
    by_cases hlen : c.takeSize.responseBuffer.length < size.toNat
    · rw [if_pos hlen]
      have hmore : messageFraming.next c.pending = .more := (nextMessage_eq hu).trans (if_pos hlen)
      rw [messageFraming.drain_more hmore]
      exact ⟨rfl, by rw [append_nil, hevents], hpending, honline, htimeout, harmed⟩
    · rw [if_neg hlen]
      have hitem : messageFraming.next c.pending =
          .item (c.takeSize.responseBuffer.take size.toNat) (c.takeSize.responseBuffer.drop size.toNat) :=
        (nextMessage_eq hu).trans (if_neg hlen)
      have haside := aside_onMessage (c := { c.takeSize with
        responseBuffer := c.takeSize.responseBuffer.drop size.toNat
        responseSize := none }) true (c.takeSize.responseBuffer.take size.toNat)
      have hrest : (DnsClient.onMessage { c.takeSize with
          responseBuffer := c.takeSize.responseBuffer.drop size.toNat
          responseSize := none } true (c.takeSize.responseBuffer.take size.toNat)).pending =
          c.takeSize.responseBuffer.drop size.toNat := by
        rw [DnsClient.pending, haside.buffer, haside.size]
        rfl
      have hlength := (getU16_append [] hu).2
      obtain ⟨hok, hstream, hpend, honl, htime, harm⟩ := ih (by
        rw [hrest, length_drop]
        omega)
      rw [hrest] at hok hstream hpend
      rw [messageFraming.drain_item hitem]
      refine ⟨hok, ?_, hpend, (honl.trans haside.online).trans honline,
        (htime.trans haside.timeout).trans htimeout, fun h =>
          harm ⟨haside.armed (harmed h).1, haside.early (harmed h).2⟩⟩
      rw [hstream, haside.stream]
      show ((stream (c.takeSize.events ++ [.reply true _])).1,
        (stream (c.takeSize.events ++ [.reply true _])).2 ++ _) = _
      rw [stream_snoc, hevents]
      simp only [addStream, append_assoc]
      rfl

def DnsClient.received (c : DnsClient) (chunk : Bytes) : DnsClient :=
  { c with responseBuffer := c.responseBuffer ++ chunk, events := c.events ++ [.chunk chunk] }

theorem onTcpRead_eq {chunk : Bytes} (hchunk : chunk.isEmpty = false) :
    c.onTcpRead chunk = (c.received chunk).parse ((c.received chunk).responseBuffer.length + 1) := by
  rw [DnsClient.onTcpRead, hchunk]
  rfl

theorem onTcpRead_framed {chunk : Bytes} (hchunk : chunk.isEmpty = false) :
    (messageFraming.drain (c.pending ++ chunk)).ok = true ∧ stream (c.onTcpRead chunk).events =
      ((stream c.events).1 ++ chunk, (stream c.events).2 ++ (messageFraming.drain (c.pending ++ chunk)).items) ∧
    (c.onTcpRead chunk).pending = (messageFraming.drain (c.pending ++ chunk)).rest ∧
    (c.onTcpRead chunk).online = c.online ∧ (c.onTcpRead chunk).requestTimeout = c.requestTimeout ∧
    (Armed c ∧ Early c → Armed (c.onTcpRead chunk) ∧ Early (c.onTcpRead chunk)) := by
  have hpending : (c.received chunk).pending = c.pending ++ chunk := (append_assoc _ _ _).symm
  have hlen : (c.received chunk).pending.length < 2 * ((c.received chunk).responseBuffer.length + 1 + 1) := by
    have hsize : ((c.responseSize.map putU16).getD []).length ≤ 2 := by
      cases c.responseSize with
      | none => exact Nat.zero_le _
      | some size => exact Nat.le_refl _
    show ((c.responseSize.map putU16).getD [] ++ (c.responseBuffer ++ chunk)).length <
      2 * ((c.responseBuffer ++ chunk).length + 1 + 1)
    rw [length_append]
    omega
  have hparse := parse_framed _ hlen
  rw [hpending, show stream (c.received chunk).events = ((stream c.events).1 ++ chunk, (stream c.events).2) from
    stream_snoc _ _] at hparse
  rw [onTcpRead_eq hchunk]
  exact hparse

theorem Reads.onTcpRead {p chunk : Bytes} (h : Reads p c) (hchunk : chunk.isEmpty = false) :
    Reads p (c.onTcpRead chunk) := by
  obtain ⟨hok, hstream, hpend, -⟩ := onTcpRead_framed hchunk
  rw [Reads] at h ⊢
  rw [hstream, hpend, ← append_assoc, messageFraming.drain_append (by rw [h]), h]
  rw [Drained.after, hok]

end Reading

/-! ## Calls -/

def Call.sends (e : Call) : Nat :=
  match e.event with
  | .send _ _ => 1
  | .connected => 0
  | .writeFlush => 0
  | _ => (e.env.handler.map List.length).sum

/-- Each request that the handler sends is such. -/
abbrev DnsClient.HandlerSends (c : DnsClient) (p : Request →
    Prop) : Prop := ∀ rs ∈ c.env.handler, ∀ q ∈ rs, p q

/-- If the connection is lost, all requests in flight are TCP ones, the handler sends TCP requests only,
and no part of a message is pending. If it cannot be made, the handler sends UDP requests only. If the
timer fires and a loop of it runs to the end of its map, the handler sends no request that gets there: in
flight, only TCP requests while there is no connection; deferred, only UDP requests. -/
def SparesAt (c : DnsClient) : Event → Prop
  | .disconnected =>
    (∀ id ∈ c.originalIdByRequestId.keys, ∀ slot ∈ digest id c.events, slot.tcp = true) ∧
      c.HandlerSends (fun q => q.tcp = true) ∧ c.pending = []
  | .connectFailed => c.HandlerSends fun q => q.tcp = false
  | .timer =>
    (c.originalIdByRequestId.keys ≠ [] → (∀ e ∈ c.requestIdByDeadline, e.1 ≤ c.clock) →
      c.HandlerSends fun q => q.tcp = true ∧ c.online = false) ∧
    (c.deferredRequestIdByDeadline ≠ [] ∨ c.requestTimeout = 0 →
      (∀ e ∈ c.deferredRequestIdByDeadline, e.1 ≤ c.clock) → c.HandlerSends fun q => q.tcp = false)
  | _ => True

/-- The call spares the requests: moreover, the timer has no old entry for an id that it uses. -/
def Spares (c : DnsClient) (e : Call) : Prop :=
  c.enabled e.event = true → Fresh e.sends c ∧ e.sends ≤ 65536 ∧
    SparesAt { c with clock := c.clock + e.elapsed, env := e.env } e.event

instance (n : Nat) (c : DnsClient) : Decidable (Fresh n c) :=
  inferInstanceAs (Decidable (∀ i < n, ∀ e ∈ c.requestIdByDeadline, e.2 ≠ c.nextRequestId + UInt16.ofNat i))

instance (c : DnsClient) : DecidablePred (SparesAt c)
  | .disconnected => inferInstanceAs (Decidable (_ ∧ _ ∧ _))
  | .connectFailed => inferInstanceAs (Decidable (c.HandlerSends _))
  | .timer => inferInstanceAs (Decidable ((_ → _ → _) ∧ (_ → _ → _)))
  | .send _ _ => isTrue trivial
  | .udpRead _ => isTrue trivial
  | .tcpRead _ => isTrue trivial
  | .connected => isTrue trivial
  | .writeFlush => isTrue trivial

instance (c : DnsClient) (e : Call) : Decidable (Spares c e) :=
  inferInstanceAs (Decidable (_ → _ ∧ _ ∧ SparesAt _ e.event))

/-! ## The timer -/

section Timer

variable {gone : List UInt16} {c : DnsClient} {id : UInt16} {slot : Slot} {deadline now n : Nat}
  {due rest : List (Nat × UInt16)} {stop : Option (Nat × UInt16)}

theorem Waiting.dropEntry (h : Waiting gone c)
    (hlist : c.requestIdByDeadline = (deadline, id) :: rest) (horig : c.originalIdByRequestId.lookup id = none) :
    Waiting gone { c with requestIdByDeadline := rest } := by
  have hsorted := h.sorted
  rw [hlist] at hsorted
  have hid := h.right id
  refine h.change id h.each (fun j hj => ?_) ?_ h.nodup (pairwise_cons.mp hsorted).2 h.sorted'
  · simp [DnsClient.place, hlist, hj]
  exact { hid with
    inFlight := fun _ hsome => absurd (horig.symm.trans hsome) (by simp)
    entry := fun _ hsome => absurd (horig.symm.trans hsome) (by simp)
    apart := fun t ht => hid.apart t (by rw [DnsClient.place, hlist]; exact mem_cons_of_mem _ ht) }

theorem Waiting.expired (h : Waiting gone c) (hslot : digest id c.events = some slot) (hreply : slot.reply = none)
    (hdue : slot.deadline ≤ c.clock) :
    Waiting (id :: gone) { c with events := c.events ++ [.response id [] c.clock] } := by
  refine h.answered hslot h.each (fun _ _ => rfl) hslot ?_
  rw [Slot.Answer, hreply]
  exact ⟨rfl, .inl hdue⟩

theorem late_of_head {list : List (Nat × UInt16)} (hsorted : Multimap.Sorted list)
    (hhead : ∀ e ∈ list.head?, now < e.1) : ∀ e ∈ list, now < e.1 := by
  cases list with
  | nil => simp
  | cons a list =>
    intro e he
    have ha : now < a.1 := hhead a (by simp)
    rcases mem_cons.mp he with rfl | he
    · exact ha
    · exact Nat.lt_of_lt_of_le ha ((pairwise_cons.mp hsorted).1 e he)

/-- What the passes of the loops keep. -/
structure Passes (c c' : DnsClient) : Prop where
  ready : Ready [] c'
  clock : c.clock ≤ c'.clock
  timeout : c'.requestTimeout = c.requestTimeout
  online : c'.online = c.online
  handler : c'.env.handler ⊆ c.env.handler

theorem Passes.trans {c' c'' : DnsClient} (h : Passes c c') (h' : Passes c' c'') : Passes c c'' :=
  ⟨h'.ready, Nat.le_trans h.clock h'.clock, h'.timeout.trans h.timeout, h'.online.trans h.online,
    fun _ hrs => h.handler (h'.handler hrs)⟩

theorem Passes.respond (h : Waiting [] { c with events := c.events ++ [.response id [] c.clock] })
    (hfresh : Fresh c.toSend c) (hfew : c.toSend ≤ 65536) : Passes c (c.respond id []) ∧
      Grown (c.clock + c.requestTimeout) c.requestIdByDeadline (c.respond id []).requestIdByDeadline ∧
      Grown (c.clock + c.requestTimeout) c.deferredRequestIdByDeadline
        (c.respond id []).deferredRequestIdByDeadline := by
  have hkept := respond_kept h hfresh hfew
  refine ⟨⟨respond_ready h hfresh hfew, hkept.clock, hkept.timeout, hkept.online, ?_⟩,
    hkept.later, hkept.later'⟩
  rw [hkept.handler]
  exact fun _ hrs => mem_of_mem_tail hrs

/-- A pass over the requests in flight adds none there. -/
def Quiet (c : DnsClient) : Prop :=
  (∀ id, c.originalIdByRequestId.lookup id = none) ∨ c.HandlerSends fun q => q.tcp = true ∧ c.online = false

theorem Ready.timeOutInFlight (h : Ready [] c) (hlist : c.requestIdByDeadline = (deadline, id) :: rest)
    (hdue : deadline ≤ c.clock) :
    let c' := c.timeOutInFlight (deadline, id) rest
    Passes c c' ∧ Grown (c.clock + c.requestTimeout) rest c'.requestIdByDeadline ∧
      Grown (c.clock + c.requestTimeout) c.deferredRequestIdByDeadline c'.deferredRequestIdByDeadline ∧
      (Quiet c → Quiet c' ∧ c'.requestIdByDeadline = rest) := by
  have hw := h.waiting
  have hfresh : Fresh c.toSend { c with requestIdByDeadline := rest } := fun i hi e he =>
    h.fresh i hi e (by rw [hlist]; exact mem_cons_of_mem _ he)
  intro c'
  cases horig : c.originalIdByRequestId.lookup id with
  | none =>
    have heq : c' = { c with requestIdByDeadline := rest } := by simp [c', DnsClient.timeOutInFlight, horig]
    rw [heq]
    exact ⟨⟨⟨hw.dropEntry hlist horig, hfresh, h.few⟩, Nat.le_refl _, rfl, rfl, Subset.refl _⟩, .refl, .refl,
      fun hquiet => ⟨hquiet, rfl⟩⟩
  | some originalId =>
    let c₁ : DnsClient := { c with
      requestIdByDeadline := rest
      originalIdByRequestId := c.originalIdByRequestId.erase id }
    have heq : c' = c₁.respond id [] := by simp [c', c₁, DnsClient.timeOutInFlight, horig]
    obtain ⟨slot, hslot, -, hreply, -, hown⟩ := hw.inFlight id originalId horig (by simp)
    have hdeadline : deadline = slot.deadline := hown (deadline, id) (by rw [hlist]; simp) rfl
    have hsub : rest.Sublist c.requestIdByDeadline := by
      rw [hlist]
      exact sublist_cons_self _ _
    have hrest : ∀ e ∈ c.requestIdByDeadline, e.2 ≠ id → e ∈ rest := fun e he hne => by
      rw [hlist] at he
      exact (mem_cons.mp he).resolve_left fun heq => hne (by rw [heq])
    have hanswered := (hw.expired hslot hreply (by omega)).eraseInFlight (by simp) (hw.not_deferred horig) hsub hrest
    obtain ⟨hpasses, hlater, hlater'⟩ := Passes.respond (c := c₁) hanswered hfresh h.few
    have hpasses' : Passes c (c₁.respond id []) := { hpasses with }
    rw [heq]
    refine ⟨hpasses', hlater, hlater', fun hquiet => ?_⟩
    have hsends := hquiet.resolve_left fun hnone => by simp [hnone id] at horig
    obtain ⟨-, hsame, honline⟩ := sendAll_offline (c := { c₁ with
      events := c.events ++ [.response id [] c.clock]
      env := { c.env with handler := c.env.handler.tail } }) _ (forall_headD hsends)
    refine ⟨.inr fun rs hrs q hq => ?_, hsame⟩
    obtain ⟨htcp, hoff⟩ := hsends rs (hpasses.handler hrs) q hq
    exact ⟨htcp, hpasses.online.trans hoff⟩

/-- A pass over the deferred requests adds none there. -/
def QuietDeferred (c : DnsClient) : Prop :=
  c.HandlerSends (fun q => q.tcp = false) ∨ c.deferredRequestIdByDeadline = []

theorem Ready.timeOutDeferred (h : Ready [] c) (hlist : c.deferredRequestIdByDeadline = (deadline, id) :: rest)
    (hdue : deadline ≤ c.clock) :
    let c' := c.timeOutDeferred (deadline, id) rest
    Passes c c' ∧ Grown (c.clock + c.requestTimeout) rest c'.deferredRequestIdByDeadline ∧
      Grown (c.clock + c.requestTimeout) c.requestIdByDeadline c'.requestIdByDeadline ∧
      (QuietDeferred c → QuietDeferred c' ∧ c'.deferredRequestIdByDeadline = rest) := by
  have hw := h.waiting
  obtain ⟨body, hbody⟩ := Option.isSome_iff_exists.mp
    ((hw.deferredEntry id).mp ⟨(deadline, id), by rw [hlist]; simp, rfl⟩)
  let c₁ : DnsClient := { c with
    deferredRequestIdByDeadline := rest
    deferredRequestByRequestId := c.deferredRequestByRequestId.erase id }
  intro c'
  have heq : c' = c₁.respond id [] := by simp [c', c₁, DnsClient.timeOutDeferred, hbody]
  obtain ⟨slot, hslot, -, hreply, -, -, hown⟩ := hw.deferred id body hbody (by simp)
  have hdeadline : deadline = slot.deadline := hown (deadline, id) (by rw [hlist]; simp) rfl
  have hanswered := (hw.expired hslot hreply (by omega)).eraseDeferred (by simp) (hw.not_inFlight hbody) hlist
  obtain ⟨hpasses, hlater, hlater'⟩ := Passes.respond (c := c₁) hanswered h.fresh h.few
  have hpasses' : Passes c (c₁.respond id []) := { hpasses with }
  rw [heq]
  refine ⟨hpasses', hlater', hlater, fun hquiet => ?_⟩
  have hudp := hquiet.resolve_right (by rw [hlist]; exact cons_ne_nil _ _)
  exact ⟨.inl fun rs hrs => hudp rs (hpasses.handler hrs), (sendAll_udp _ (forall_headD hudp)).1⟩

/-- A stop that is not behind the new entries keeps its place, and without a stop there are none. -/
theorem until_grown {k : Nat} {m m' : List (Nat × UInt16)} (hgrown : Grown k m m')
    (hu : Until m due stop) (hdue : ∀ d ∈ due, d.1 ≤ k) (hstop : ∀ e ∈ stop, e.1 ≤ k)
    (hnone : stop = none → m' = m) : Until m' due stop := by
  cases stop with
  | none => rwa [hnone rfl]
  | some e => exact hgrown.until hu hdue (hstop e rfl)

/-- One of the loops over `list`; `Q` keeps the handler from adding to it. -/
theorem Ready.sweep {list other : DnsClient → List (Nat × UInt16)} {Q : DnsClient → Prop}
    {pass : DnsClient → Nat × UInt16 → List (Nat × UInt16) → DnsClient}
    (hpass : ∀ {c deadline id rest}, Ready [] c → list c = (deadline, id) :: rest → deadline ≤ c.clock →
      let c' := pass c (deadline, id) rest
      Passes c c' ∧ Grown (c.clock + c.requestTimeout) rest (list c') ∧
        Grown (c.clock + c.requestTimeout) (other c) (other c') ∧ (Q c → Q c' ∧ list c' = rest))
    (h : Ready [] c) (hnow : now ≤ c.clock) (hu : Until (list c) due stop) (hn : due.length ≤ n)
    (hdue : ∀ e ∈ due, e.1 ≤ now) (hstop : ∀ e ∈ stop, now < e.1 ∧ e.1 ≤ c.clock + c.requestTimeout)
    (hquiet : stop = none → Q c) :
    let c' := Multimap.sweep list pass stop n c
    (Passes c c' ∧ Grown (c.clock + c.requestTimeout) (other c) (other c') ∧ (stop = none → Q c')) ∧
      Until (list c') [] stop := by
  refine sweep_until (P := fun c' => Passes c c' ∧ Grown (c.clock + c.requestTimeout) (other c) (other c') ∧
    (stop = none → Q c')) (fun e he => (hstop e he).1) (fun c' e due rest hc hlist hu hdue => ?_) hdue n hn c
    ⟨⟨h, Nat.le_refl _, rfl, rfl, Subset.refl _⟩, .refl, hquiet⟩ hu
  obtain ⟨hpasses, hlater, hquiet⟩ := hc
  have hclock := hpasses.clock
  have htimeout := hpasses.timeout
  obtain ⟨he, hdue⟩ := forall_mem_cons.mp hdue
  obtain ⟨hpasses', hgrown, hlater', hquiet'⟩ := hpass hpasses.ready hlist (by omega)
  refine ⟨⟨hpasses.trans hpasses', hlater.trans hlater' (by omega), fun hnone => (hquiet' (hquiet hnone)).1⟩,
    until_grown hgrown hu (fun d hd => ?_) (fun e he => ?_) fun hnone => (hquiet' (hquiet hnone)).2⟩
  · have := hdue d hd
    omega
  · have := (hstop e he).2
    omega

theorem Waiting.late (h : Waiting [] c) (hlate : ∀ e ∈ c.requestIdByDeadline, now < e.1)
    (hlate' : ∀ e ∈ c.deferredRequestIdByDeadline, now < e.1) (id : UInt16) (slot : Slot)
    (hslot : digest id c.events = some slot) : now < slot.deadline := by
  obtain ⟨-, hmap⟩ := h.waits id slot hslot
  rcases hmap with hmap | hmap
  · obtain ⟨originalId, horig⟩ := Option.isSome_iff_exists.mp hmap
    obtain ⟨slot', hslot', -, -, -, hown⟩ := h.inFlight id originalId horig (by simp)
    obtain ⟨e, he, heq⟩ := h.entry id originalId horig
    rw [hslot] at hslot'
    cases hslot'
    rw [← hown e he heq]
    exact hlate e he
  · obtain ⟨body, hbody⟩ := Option.isSome_iff_exists.mp hmap
    obtain ⟨slot', hslot', -, -, -, -, hown⟩ := h.deferred id body hbody (by simp)
    obtain ⟨e, he, heq⟩ := (h.deferredEntry id).mpr hmap
    rw [hslot] at hslot'
    cases hslot'
    rw [← hown e he heq]
    exact hlate' e he

theorem late_of_until (hsorted : Multimap.Sorted rest) (hstop : ∀ e ∈ stop, now < e.1)
    (hu : Until rest [] stop) : ∀ e ∈ rest, now < e.1 := by
  obtain ⟨_, rfl, rfl⟩ := hu
  exact late_of_head hsorted hstop

theorem Ready.timerHandler (h : Ready [] c) (hearly : Early c) (hat : SparesAt c .timer) : Waiting [] c.timerHandler ∧
    (0 < c.requestTimeout → ∀ id slot, digest id c.timerHandler.events = some slot →
      c.clock < slot.deadline) := by
  obtain ⟨hinFlight, hdeferred⟩ := hat
  let c₁ : DnsClient := { c with timer := false }
  have h₁ : Ready [] c₁ := ⟨h.waiting.congr c₁ rfl rfl rfl rfl rfl, h.fresh, h.few⟩
  obtain ⟨due, hu, hdue⟩ := until_upperBound c.requestIdByDeadline c.clock
  have hstop : ∀ e ∈ upperBound c.requestIdByDeadline c.clock,
      c.clock < e.1 ∧ e.1 ≤ c.clock + c.requestTimeout := fun e he =>
    ⟨(upperBound_mem he).2, hearly e (.inl (upperBound_mem he).1)⟩
  have hquiet : upperBound c.requestIdByDeadline c.clock = none → Quiet c₁ := fun hnone => by
    by_cases hkeys : c.originalIdByRequestId.keys = []
    · refine .inl fun id => ?_
      have hid : id ∉ c.originalIdByRequestId.keys := by simp [hkeys]
      exact AList.lookup_eq_none.mpr hid
    · exact .inr (hinFlight hkeys (upperBound_none hnone))
  obtain ⟨⟨hp, hgrown, -⟩, hend⟩ := h₁.sweep Ready.timeOutInFlight
    (n := c₁.requestIdByDeadline.length + c₁.toSend)
    (Nat.le_refl _) hu (by obtain ⟨rest, heq, -⟩ := hu; simp [c₁, heq]; omega) hdue hstop hquiet
  have hlate := late_of_until hp.ready.waiting.sorted (fun e he => (hstop e he).1) hend
  have hearly₂ : Early _ := (aside_expireInFlight (c := c₁)
    (upperBound c.requestIdByDeadline c.clock) (c₁.requestIdByDeadline.length + c₁.toSend)).early hearly
  set c₂ := DnsClient.expireInFlight (upperBound c.requestIdByDeadline c.clock)
    (c₁.requestIdByDeadline.length + c₁.toSend) c₁ with hc₂
  obtain ⟨due', hu', hdue'⟩ := until_upperBound c₂.deferredRequestIdByDeadline c.clock
  have hstop' : ∀ e ∈ upperBound c₂.deferredRequestIdByDeadline c.clock,
      c.clock < e.1 ∧ e.1 ≤ c₂.clock + c₂.requestTimeout := fun e he =>
    ⟨(upperBound_mem he).2, hearly₂ e (.inr (upperBound_mem he).1)⟩
  have hudp : upperBound c₂.deferredRequestIdByDeadline c.clock = none → QuietDeferred c₂ := fun hnone => by
    have hall := upperBound_none hnone
    by_cases hsome : c.deferredRequestIdByDeadline ≠ [] ∨ c.requestTimeout = 0
    · have hsends := hdeferred hsome fun e he => hall e (hgrown.subset he)
      exact .inl fun rs hrs => hsends rs (hp.handler hrs)
    · -- the entries are new, and too late
      obtain ⟨hnil, hpos⟩ := not_or.mp hsome
      refine .inr (eq_nil_iff_forall_not_mem.mpr fun e he => ?_)
      rcases hgrown.mem he with hold | hnew
      · have hold' : e ∈ c.deferredRequestIdByDeadline := hold
        rw [not_not.mp hnil] at hold'
        cases hold'
      · have hle : c.clock + c.requestTimeout ≤ e.1 := hnew
        have := hall e he
        omega
  obtain ⟨⟨hp', hgrown', -⟩, hend'⟩ := hp.ready.sweep Ready.timeOutDeferred
    (n := c₂.deferredRequestIdByDeadline.length + c₂.toSend) hp.clock hu'
    (by obtain ⟨rest, heq, -⟩ := hu'; rw [heq, length_append]; omega) hdue' hstop' hudp
  have hlate' := late_of_until hp'.ready.waiting.sorted' (fun e he => (hstop' e he).1) hend'
  have hfinish : 0 < c.requestTimeout → _ := fun hpos => hp'.ready.waiting.late (fun e he => by
    rcases hgrown'.mem he with he | he
    · exact hlate e he
    · have hclock : c.clock ≤ c₂.clock := hp.clock
      have htimeout : c₂.requestTimeout = c.requestTimeout := hp.timeout
      have hle : c₂.clock + c₂.requestTimeout ≤ e.1 := he
      omega) hlate'
  unfold DnsClient.timerHandler
  simp only []
  split
  · exact ⟨hp'.ready.waiting, hfinish⟩
  · exact ⟨hp'.ready.waiting.congr _ rfl rfl rfl rfl rfl, hfinish⟩

end Timer

structure Good (requestTimeout : Nat) (c : DnsClient) : Prop where
  timeout : c.requestTimeout = requestTimeout
  waiting : Waiting [] c
  framed : Framed c
  armed : Armed c
  early : Early c

section Calls

variable {T : Nat} {c : DnsClient}

theorem Aside.good {c' : DnsClient} (h : Aside c c') (hc : Good T c) (hw : Waiting [] c') : Good T c' :=
  ⟨h.timeout.trans hc.timeout, hw, h.framed hc.framed, h.armed hc.armed, h.early hc.early⟩

theorem pending_nil (h : c.pending = []) : c.responseBuffer = [] ∧ c.responseSize = none := by
  rw [DnsClient.pending, append_eq_nil_iff] at h
  refine ⟨h.2, ?_⟩
  cases hsize : c.responseSize with
  | none => rfl
  | some size =>
    rw [hsize] at h
    cases h.1

theorem Good.onTcpRead (h : Good T c) (hready : Ready [] c) (hon : c.online = true) {chunk : Bytes}
    (hchunk : chunk.isEmpty = false) : Good T (c.onTcpRead chunk) := by
  have hsame : ∀ id, digest id (c.events ++ [.chunk chunk]) = digest id c.events := fun id => by
    rw [digest_snoc]
    cases digest id c.events <;> rfl
  have hready₁ : Ready [] (c.received chunk) :=
    ⟨(hready.waiting.quiet (o := .chunk chunk) trivial hsame).congr _ rfl rfl rfl rfl rfl, hready.fresh, hready.few⟩
  have hframed := h.framed
  rw [Framed, if_pos hon] at hframed
  have hreads : Reads [] (c.onTcpRead chunk) := Reads.onTcpRead hframed hchunk
  obtain ⟨-, -, -, honl, htime, harm⟩ := onTcpRead_framed hchunk
  refine ⟨htime.trans h.timeout, ?_, ?_, (harm ⟨h.armed, h.early⟩).1, (harm ⟨h.armed, h.early⟩).2⟩
  · rw [onTcpRead_eq hchunk]
    exact (hready₁.parse _).waiting
  · rw [Framed, if_pos (honl.trans hon)]
    exact hreads

theorem Framed.offline (hoff : c.online = false) (hbuffer : c.responseBuffer = [])
    (hsize : c.responseSize = none) : Framed c := by
  rw [Framed, if_neg (by rw [hoff]; exact false_ne_true)]
  exact ⟨hbuffer, hsize⟩

theorem Good.onDisconnected (h : Good T c) (hready : Ready [] c) (hat : SparesAt c .disconnected) :
    Good T c.onDisconnected := by
  obtain ⟨hinFlight, htcp, hpending⟩ := hat
  obtain ⟨hbuffer, hsize⟩ := pending_nil hpending
  have hwaiting := hready.onDisconnected (fun id originalId slot horig hslot =>
    hinFlight id (AList.lookup_isSome.mp (by rw [horig]; rfl)) slot (by rw [hslot]; exact rfl)) htcp
  let c₁ : DnsClient := { c with tcpSocket := false, events := c.events ++ [.failed] }
  let c₂ : DnsClient := { c₁.failAll c.originalIdByRequestId.keys with
    requestIdByDeadline := []
    originalIdByRequestId := ∅ }
  have haside : Aside c₁ (c₁.failAll c.originalIdByRequestId.keys) := aside_failAll _
  have harmed : Armed c₂ := fun hne => haside.armed h.armed (.inr (hne.resolve_left fun hnil => hnil rfl))
  have hearly : Early c₂ := fun e he => haside.early h.early e (.inr (he.resolve_left not_mem_nil))
  have heq : c.onDisconnected = if c₂.deferredRequestIdByDeadline.isEmpty then c₂ else c₂.connectSocket := rfl
  rw [heq] at hwaiting ⊢
  by_cases hempty : c₂.deferredRequestIdByDeadline.isEmpty = true
  · rw [if_pos hempty] at hwaiting ⊢
    exact ⟨haside.timeout.trans h.timeout, hwaiting,
      .offline haside.online (haside.buffer.trans hbuffer) (haside.size.trans hsize), harmed, hearly⟩
  · rw [if_neg hempty] at hwaiting ⊢
    refine ⟨haside.timeout.trans h.timeout, hwaiting,
      .offline ?_ (haside.buffer.trans hbuffer) (haside.size.trans hsize), harmed, hearly⟩
    show (c₂.env.connects.headD true && !(c₂.tcpSocketIsConnecting || c₂.env.connects.headD true)) = false
    cases c₂.env.connects.headD true <;> simp

theorem Good.connected (h : Good T c) (hen : c.tcpSocket = true ∧ c.tcpSocketIsConnecting = true) :
    Good T (c.onConnected true) := by
  let c₁ : DnsClient := { c with tcpSocketIsConnecting := false, events := c.events ++ [.connected] }
  have hframed := h.framed
  rw [Framed, if_neg (by rw [DnsClient.online, hen.1, hen.2]; decide)] at hframed
  have hpending : c₁.pending = [] := by
    show (c.responseSize.map putU16).getD [] ++ c.responseBuffer = []
    rw [hframed.1, hframed.2]
    rfl
  have h₁ : Good T c₁ := by
    refine ⟨h.timeout, h.waiting.connected.congr c₁ rfl rfl rfl rfl rfl, ?_, h.armed, h.early⟩
    rw [Framed, if_pos (show c₁.online = true by exact and_eq_true_iff.mpr ⟨hen.1, rfl⟩), hpending]
    rw [stream_snoc]
    have hmore : messageFraming.next [] = .more := rfl
    exact messageFraming.drain_more hmore
  exact (aside_sendDeferred _ rfl).good h₁ (h₁.waiting.sendDeferred _ rfl)

theorem Good.connectFailed (h : Good T c) (hready : Ready [] c)
    (hen : c.tcpSocket = true ∧ c.tcpSocketIsConnecting = true) (hat : SparesAt c .connectFailed) :
    Good T (c.onConnected false) := by
  have hframed := h.framed
  rw [Framed, if_neg (by rw [DnsClient.online, hen.1, hen.2]; decide)] at hframed
  let c₁ : DnsClient := { c with
    tcpSocketIsConnecting := false
    tcpSocket := false
    events := c.events ++ [.failed] }
  have haside : Aside c₁ (DnsClient.failDeferred (c₁.deferredRequestIdByDeadline.length + c₁.toSend) 0 c₁) :=
    aside_failDeferred _ _
  exact ⟨haside.timeout.trans h.timeout, hready.connectFailed hat,
    .offline haside.online (haside.buffer.trans hframed.1) (haside.size.trans hframed.2),
    fun hne => haside.armed h.armed (.inl (hne.resolve_right fun hnil => hnil rfl)),
    fun e he => haside.early h.early e (.inl (he.resolve_right not_mem_nil))⟩

theorem Good.next (h : Good T c) (e : Call) (he : Spares c e) : Good T (c.next e) := by
  rw [DnsClient.next]
  split_ifs with hen
  · obtain ⟨hfresh, hfew, hat⟩ := he hen
    obtain ⟨elapsed, event, env⟩ := e
    let c₀ : DnsClient := { c with clock := c.clock + elapsed, env := env }
    have h₀ : Good T c₀ :=
      ⟨h.timeout, h.waiting.congr c₀ rfl rfl rfl rfl rfl, h.framed, h.armed, h.early.wait elapsed env⟩
    cases event with
    | send request tcp =>
      exact (aside_send request tcp).good h₀ (send_kept h₀.waiting hfresh (by decide) request tcp).waiting
    | udpRead datagram =>
      exact (aside_datagram datagram).good h₀ ((Ready.mk h₀.waiting hfresh hfew).onMessage false datagram).waiting
    | tcpRead chunk =>
      have hen' : (c.online && !chunk.isEmpty) = true := hen
      rw [and_eq_true, not_eq_true'] at hen'
      exact h₀.onTcpRead ⟨h₀.waiting, hfresh, hfew⟩ hen'.1 hen'.2
    | disconnected => exact h₀.onDisconnected ⟨h₀.waiting, hfresh, hfew⟩ hat
    | connected => exact h₀.connected (and_eq_true_iff.mp hen)
    | connectFailed =>
      exact h₀.connectFailed ⟨h₀.waiting, hfresh, hfew⟩ (and_eq_true_iff.mp hen) hat
    | writeFlush =>
      exact (aside_sendDeferred _ rfl).good h₀ (h₀.waiting.sendDeferred _ rfl)
    | timer => exact aside_timerHandler.good h₀ (Ready.mk h₀.waiting hfresh hfew |>.timerHandler h₀.early hat).1
  · exact h

end Calls

/-! ## Whole runs -/

theorem good_init (T : Nat) : Good T (client T).init where
  timeout := rfl
  waiting := {
    each := Each.nil
    inFlight := fun _ _ h => by cases h
    entry := fun _ _ h => by cases h
    deferred := fun _ _ h => by cases h
    deferredEntry := fun _ => ⟨fun ⟨_, h, _⟩ => (by cases h), fun h => by cases h⟩
    nodup := List.Pairwise.nil
    apart := fun _ h => by cases h
    waits := fun _ _ h => by cases h
    gone := fun _ h => by cases h
    sorted := List.Pairwise.nil
    sorted' := List.Pairwise.nil }
  framed := .offline rfl rfl rfl
  armed := fun h => by rcases h with h | h <;> exact absurd rfl h
  early := fun _ h => by rcases h with h | h <;> cases h

theorem good_exec {T : Nat} {es : List Call} (hes : (client T).Meets Spares (client T).init es) :
    Good T ((client T).exec (client T).init es) :=
  (client T).inv_run (J := fun _ c => Good T c) (good_init T) (fun _ _ e h he => h.next e he) es hes

/-- The request is in one of the maps, with its own deadline. -/
def DnsClient.Holds (c : DnsClient) (id : UInt16) (slot : Slot) : Prop :=
  slot.sent = true ∧ c.originalIdByRequestId.lookup id = some slot.originalId ∧
      (slot.deadline, id) ∈ c.requestIdByDeadline ∨
    slot.sent = false ∧ (∃ body, c.deferredRequestByRequestId.lookup id = some body ∧
      body.take 2 = slot.originalId) ∧ (slot.deadline, id) ∈ c.deferredRequestIdByDeadline

/-- In every run whose calls spare the requests: an id is returned only when no request has it; a
response is for an id that a request has, and is justified; a request that has no response yet has no
message either, is in the maps with its own deadline, and the timer is pending; the messages taken from a
TCP connection are those of its bytes; after the timer fired, no request waits whose deadline has
passed. -/
theorem replied_once (T : Nat) (es : List Call) (hes : (client T).Meets Spares (client T).init es) :
    let c := (client T).exec (client T).init es
    Each Orderly c.events ∧
    (∀ id slot, digest id c.events = some slot → slot.reply = none ∧ c.Holds id slot ∧ c.timer = true) ∧
    (c.online = true → messageFraming.drain (stream c.events).1 = ⟨(stream c.events).2, true, c.pending⟩) ∧
    (0 < T → ∀ e, e.event = .timer → c.timer = true → Spares c e →
      ∀ id slot, digest id (c.next e).events = some slot → c.clock + e.elapsed < slot.deadline) := by
  intro c
  have h : Good T c := good_exec hes
  refine ⟨h.waiting.each, fun id slot hslot => ?_, fun hon => ?_, fun hpos e he htimer hspares => ?_⟩
  · obtain ⟨hnot, hmap⟩ := h.waiting.waits id slot hslot
    rcases hmap with hmap | hmap
    · obtain ⟨originalId, horig⟩ := Option.isSome_iff_exists.mp hmap
      obtain ⟨slot', hslot', hsent, hreply, horiginal, hown⟩ := h.waiting.inFlight id originalId horig hnot
      obtain ⟨⟨deadline, id'⟩, he, rfl⟩ := h.waiting.entry id originalId horig
      rw [hslot] at hslot'
      cases hslot'
      have hdeadline : deadline = slot.deadline := hown _ he rfl
      rw [hdeadline] at he
      exact ⟨hreply, .inl ⟨hsent, by rw [horiginal]; exact horig, he⟩, h.armed (.inl (ne_nil_of_mem he))⟩
    · obtain ⟨body, hbody⟩ := Option.isSome_iff_exists.mp hmap
      obtain ⟨slot', hslot', hsent, hreply, -, horiginal, hown⟩ := h.waiting.deferred id body hbody hnot
      obtain ⟨⟨deadline, id'⟩, he, rfl⟩ := (h.waiting.deferredEntry id).mpr hmap
      rw [hslot] at hslot'
      cases hslot'
      have hdeadline : deadline = slot.deadline := hown _ he rfl
      rw [hdeadline] at he
      exact ⟨hreply, .inr ⟨hsent, ⟨body, hbody, horiginal.symm⟩, he⟩, h.armed (.inr (ne_nil_of_mem he))⟩
  · have hframed := h.framed
    rwa [Framed, if_pos hon] at hframed
  · obtain ⟨elapsed, event, env⟩ := e
    cases he
    obtain ⟨hfresh, hfew, hat⟩ := hspares htimer
    have hen : c.enabled .timer = true := htimer
    rw [DnsClient.next, if_pos hen]
    have hready : Ready [] { c with clock := c.clock + elapsed, env := env } :=
      ⟨h.waiting.congr _ rfl rfl rfl rfl rfl, hfresh, hfew⟩
    exact (hready.timerHandler (h.early.wait elapsed env) hat).2 (h.timeout ▸ hpos)

def ranWithTen (es : List Call) : DnsClient := (client 10).exec (client 10).init es

/-- A UDP request and a TCP request, and the replies to them. -/
theorem replied_once_both : ∃ es : List Call, (client 10).Meets Spares (client 10).init es ∧
      Each Orderly (ranWithTen es).events ∧
      .response 0 [7, 8, 1] 1 ∈ (ranWithTen es).events ∧
      .response 1 [7, 9, 2] 3 ∈ (ranWithTen es).events := by
  let es : List Call :=
    [⟨0, .send [7, 8, 0] false, {}⟩, ⟨0, .send [7, 9, 0] true, {}⟩, ⟨1, .udpRead [0, 0, 1], {}⟩,
      ⟨1, .connected, { room := 1 }⟩, ⟨1, .tcpRead [0, 3, 0, 1, 2], {}⟩]
  have hes : (client 10).Meets Spares (client 10).init es := by decide +kernel
  exact ⟨es, hes, (replied_once 10 es hes).1, by decide +kernel, by decide +kernel⟩

def lostWithUdp : List Call :=
  [⟨0, .send [7, 8, 0] false, {}⟩, ⟨0, .send [7, 9, 0] true, {}⟩, ⟨0, .connected, { room := 1 }⟩,
    ⟨0, .disconnected, {}⟩]

def lostThenUdp : List Call :=
  [⟨0, .send [7, 8, 0] true, {}⟩, ⟨0, .connected, { room := 1 }⟩,
    ⟨0, .disconnected, { handler := [[⟨0, [7, 9, 0], false⟩]] }⟩]

def failedThenTcp : List Call :=
  [⟨0, .send [7, 8, 0] true, {}⟩, ⟨0, .connectFailed, { handler := [[⟨0, [7, 9, 0], true⟩]] }⟩]

def lostInMessage : List Call :=
  [⟨0, .send [7, 8, 0] true, {}⟩, ⟨0, .connected, { room := 1 }⟩, ⟨0, .tcpRead [0, 4, 0, 1], {}⟩,
    ⟨0, .disconnected, {}⟩, ⟨0, .send [7, 9, 0] true, {}⟩, ⟨0, .connected, { room := 1 }⟩,
    ⟨0, .tcpRead [0, 3, 0, 1, 2], {}⟩]

def timedOutThenUdp : List Call :=
  [⟨0, .send [7, 8, 0] false, {}⟩, ⟨10, .timer, { handler := [[⟨0, [7, 9, 0], false⟩]] }⟩]

def timedOutThenTcp : List Call :=
  [⟨0, .send [7, 8, 0] true, {}⟩, ⟨10, .timer, { handler := [[⟨0, [7, 9, 0], true⟩]] }⟩]

/-- When the TCP connection is lost a UDP request is failed, and one that the handler sends then is in no map.
A request that the handler sends when the connection cannot be made, or when the timer has failed the last
one, is failed at once. A part of a message from the old connection makes a reply that nobody sent. -/
theorem client_slips :
    (∃ pre post slot, (ranWithTen lostWithUdp).events = pre ++ .response 0 [] 0 :: post ∧
      digest 0 pre = some slot ∧ slot.tcp = false ∧ slot.reply = none ∧ slot.deadline = 10) ∧
    ((digest 1 (ranWithTen lostThenUdp).events).isSome = true ∧
      (ranWithTen lostThenUdp).originalIdByRequestId.lookup 1 = none ∧
      (ranWithTen lostThenUdp).deferredRequestByRequestId.lookup 1 = none ∧
      (ranWithTen lostThenUdp).requestIdByDeadline = []) ∧
    (∃ pre post slot, (ranWithTen failedThenTcp).events = pre ++ .response 1 [] 0 :: post ∧
      digest 1 pre = some slot ∧ slot.failed = false ∧ slot.reply = none ∧ slot.deadline = 10) ∧
    (∃ pre post slot, (ranWithTen timedOutThenUdp).events = pre ++ .response 1 [] 10 :: post ∧
      digest 1 pre = some slot ∧ slot.tcp = false ∧ slot.reply = none ∧ slot.deadline = 20) ∧
    (∃ pre post slot, (ranWithTen timedOutThenTcp).events = pre ++ .response 1 [] 10 :: post ∧
      digest 1 pre = some slot ∧ slot.failed = false ∧ slot.reply = none ∧ slot.deadline = 20) ∧
    ((messageFraming.drain (stream (ranWithTen lostInMessage).events).1).items = [[0, 1, 2]] ∧
      .response 1 [7, 9, 0, 3] 0 ∈ (ranWithTen lostInMessage).events) := by
  refine ⟨⟨[.returned 0 false [7, 8] 10, .sent 0, .returned 1 true [7, 9] 10, .connected, .sent 1, .failed,
    .response 1 [] 0], [], ⟨false, [7, 8], 10, true, true, none⟩, ?_⟩, by decide +kernel,
    ⟨[.returned 0 true [7, 8] 10, .failed, .response 0 [] 0, .returned 1 true [7, 9] 10], [],
      ⟨true, [7, 9], 10, false, false, none⟩, ?_⟩,
    ⟨[.returned 0 false [7, 8] 10, .sent 0, .response 0 [] 10, .returned 1 false [7, 9] 20, .sent 1], [],
      ⟨false, [7, 9], 20, true, false, none⟩, ?_⟩,
    ⟨[.returned 0 true [7, 8] 10, .response 0 [] 10, .returned 1 true [7, 9] 20], [],
      ⟨true, [7, 9], 20, false, false, none⟩, ?_⟩, by decide +kernel⟩
  · decide +kernel
  · decide +kernel
  · decide +kernel
  · decide +kernel

/-! ## The messages of one connection -/

section Connection

variable {c : DnsClient} {p : Bytes}

theorem pending_onDisconnected : c.onDisconnected.pending = c.pending := by
  let c₁ : DnsClient := { c with tcpSocket := false, events := c.events ++ [.failed] }
  have haside : Aside c₁ (c₁.failAll c.originalIdByRequestId.keys) := aside_failAll _
  rw [DnsClient.onDisconnected]
  split
  · exact haside.pending
  · exact haside.pending

theorem pending_next (h : nextMessage c.pending = .more) (e : Call) : nextMessage (c.next e).pending = .more := by
  have hkept {c' : DnsClient} (heq : c'.pending = c.pending) : nextMessage c'.pending = .more := by rwa [heq]
  rw [DnsClient.next]
  split_ifs with hen
  · obtain ⟨elapsed, event, env⟩ := e
    cases event with
    | send request tcp => exact hkept (aside_send request tcp).pending
    | udpRead datagram => exact hkept (aside_datagram datagram).pending
    | tcpRead chunk =>
      have hchunk : chunk.isEmpty = false := by simpa using (and_eq_true_iff.mp hen).2
      obtain ⟨hok, -, hpend, -⟩ := onTcpRead_framed hchunk
      rw [DnsClient.handle, hpend]
      exact (messageFraming.next_rest _).trans (if_pos hok)
    | disconnected => exact hkept pending_onDisconnected
    | connected | writeFlush => exact hkept (aside_sendDeferred _ rfl).pending
    | connectFailed => exact hkept (aside_failDeferred _ _).pending
    | timer => exact hkept aside_timerHandler.pending
  · exact h

theorem Reads.next (h : Reads p c) (hon : c.online = true) (e : Call) (he : e.event ≠ .disconnected) :
    Reads p (c.next e) ∧ (c.next e).online = true := by
  rw [DnsClient.next]
  split_ifs with hen
  · obtain ⟨elapsed, event, env⟩ := e
    have haside {c' : DnsClient} (ha : Aside { c with clock := c.clock + elapsed, env := env } c') :
        Reads p c' ∧ c'.online = true := ⟨ha.reads h, ha.online.trans hon⟩
    have hconnecting : ¬(c.tcpSocket && c.tcpSocketIsConnecting) = true := by
      obtain ⟨-, hnot⟩ := and_eq_true_iff.mp hon
      rw [not_eq_true'] at hnot
      rw [hnot, Bool.and_false]
      exact false_ne_true
    cases event with
    | send request tcp => exact haside (aside_send request tcp)
    | udpRead datagram => exact haside (aside_datagram datagram)
    | tcpRead chunk =>
      have hchunk : chunk.isEmpty = false := by simpa using (and_eq_true_iff.mp hen).2
      obtain ⟨-, -, -, honline, -⟩ := onTcpRead_framed hchunk
      exact ⟨Reads.onTcpRead h hchunk, honline.trans hon⟩
    | disconnected => exact absurd rfl he
    | connected | connectFailed => exact absurd hen hconnecting
    | writeFlush => exact haside (aside_sendDeferred _ rfl)
    | timer => exact haside aside_timerHandler
  · exact ⟨h, hon⟩

theorem reads_connected (hmore : nextMessage c.pending = .more) (hen : c.enabled .connected = true) {e : Call}
    (he : e.event = .connected) :
    Reads c.pending (c.next e) ∧ (c.next e).online = true ∧ stream (c.next e).events = ([], []) := by
  obtain ⟨elapsed, event, env⟩ := e
  cases he
  rw [DnsClient.next, if_pos hen]
  let c₁ : DnsClient := { c with
    clock := c.clock + elapsed
    env := env
    tcpSocketIsConnecting := false
    events := c.events ++ [.connected] }
  have haside : Aside c₁ (c₁.sendDeferred c₁.deferredRequestIdByDeadline) := aside_sendDeferred _ rfl
  have hstream : stream c₁.events = ([], []) := stream_snoc _ _
  refine ⟨haside.reads ?_, haside.online.trans ?_, haside.stream.trans hstream⟩
  · rw [Reads, hstream, append_nil]
    exact messageFraming.drain_more hmore
  · exact and_eq_true_iff.mpr ⟨(and_eq_true_iff.mp hen).1, rfl⟩

/-- The message `[7]` is not the first one behind a part of a message. -/
theorem drain_behind (hp : p ≠ []) (hmore : nextMessage p = .more) :
    (messageFraming.drain (p ++ [0, 1, 7])).items ≠ [[7]] := by
  intro h
  cases hd : messageFraming.next (p ++ [0, 1, 7]) with
  | more =>
    rw [messageFraming.drain_more hd] at h
    cases h
  | bad => exact nextMessage_ne_bad _ hd
  | item a r =>
    rw [messageFraming.drain_item hd] at h
    obtain ⟨size, rest, hu, hlen, ha, -⟩ := nextMessage_item hd
    rw [(cons.inj h).1] at ha
    have hone : size.toNat = 1 := by
      have := congrArg length ha
      rw [length_take, Nat.min_eq_left hlen] at this
      exact this.symm
    rw [hone] at ha
    rcases p with _ | ⟨x, _ | ⟨y, _ | ⟨z, p⟩⟩⟩
    · exact hp rfl
    · cases hu
      cases ha
    · cases hu
      cases ha
    · cases hu
      rw [nextMessage_eq rfl, if_neg (by rw [hone, length_cons]; omega)] at hmore
      cases hmore

def Own (c : DnsClient) : Prop := (stream c.events).2 = (messageFraming.drain (stream c.events).1).items

instance (c : DnsClient) : Decidable (Own c) := inferInstanceAs (Decidable (_ = _))

/-- A connection is made after any calls. Whatever is read on it, and in whatever pieces, the messages are those of
its own bytes if and only if no bytes are pending when it is made. -/
theorem own_messages_iff (T : Nat) (es : List Call) (e : Call) (he : e.event = .connected)
    (hen : ((client T).exec (client T).init es).enabled .connected = true) :
    (∀ fs : List Call, (∀ f ∈ fs, f.event ≠ .disconnected) →
      Own ((client T).exec (client T).init (es ++ e :: fs))) ↔ ((client T).exec (client T).init es).pending = [] := by
  have hmore := (client T).inv_exec (I := fun c => nextMessage c.pending = .more) rfl (fun _ e h => pending_next h e) es
  simp only [(client T).exec_append]
  generalize (client T).exec (client T).init es = c at hen hmore
  obtain ⟨hreads, honline, hstream⟩ := reads_connected hmore hen he
  constructor
  · intro hown
    by_contra hp
    have h := hown [⟨0, .tcpRead [0, 1, 7], {}⟩] (by simp)
    have hnext : (client T).exec c [e, ⟨0, .tcpRead [0, 1, 7], {}⟩] =
        DnsClient.onTcpRead { c.next e with clock := (c.next e).clock + 0, env := {} } [0, 1, 7] :=
      if_pos (by rw [DnsClient.enabled]; exact and_eq_true_iff.mpr ⟨honline, rfl⟩)
    have hread : Reads c.pending (DnsClient.onTcpRead
        { c.next e with clock := (c.next e).clock + 0, env := {} } [0, 1, 7]) := Reads.onTcpRead hreads rfl
    obtain ⟨-, hafter, -⟩ := onTcpRead_framed (show [0, 1, 7].isEmpty = false from rfl)
    rw [hnext, Own] at h
    rw [Reads, h, hafter, hstream] at hread
    exact drain_behind hp hmore (congrArg Drained.items hread)
  · intro hp fs hfs
    rw [hp] at hreads
    have hrun := (client T).inv_from (J := fun _ c => Reads [] c ∧ c.online = true)
      ⟨hreads, honline⟩ (fun _ _ f h hf => h.1.next h.2 f hf) fs ((client T).meets_of_forall _ _ hfs)
    exact (congrArg Drained.items hrun.1).symm

theorem own_messages_iff_first :
    ((client 10).exec (client 10).init [⟨0, .send [7, 8, 0] true, {}⟩]).enabled .connected = true ∧
    ∀ fs : List Call, (∀ f ∈ fs, f.event ≠ .disconnected) → Own ((client 10).exec (client 10).init
      ([⟨0, .send [7, 8, 0] true, {}⟩] ++ ⟨0, .connected, {}⟩ :: fs)) := by
  have hen : ((client 10).exec (client 10).init [⟨0, .send [7, 8, 0] true, {}⟩]).enabled .connected = true := by
    decide +kernel
  exact ⟨hen, (own_messages_iff 10 _ _ rfl hen).mpr (by decide +kernel)⟩

/-- The first connection is lost in the middle of a message. -/
theorem lostInMessage_not_own : ¬Own ((client 10).exec (client 10).init lostInMessage) := by
  decide +kernel

end Connection

end TrustTunnel.Dns.Client
