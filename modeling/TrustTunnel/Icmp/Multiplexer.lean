import TrustTunnel.Core.Wire
import TrustTunnel.Lib.Stream

/-!
# Icmp.Multiplexer

`HttpIcmpMultiplexer` (`http_icmp_multiplexer.cpp`): echo requests and replies over one HTTP stream.
A reply is 22 bytes. One that arrives whole is decoded where it is, one that arrives in parts goes
through `m_reply_buffer`.
-/

namespace TrustTunnel.Icmp

open Lib List

structure IcmpEchoRequest where
  peer : SocketAddress
  id : UInt16
  seqno : UInt16
  ttl : UInt8
  dataSize : UInt16

structure IcmpEchoReply where
  peer : SocketAddress
  id : UInt16
  seqno : UInt16
  type : UInt8
  code : UInt8
  deriving DecidableEq

/-- `ICMPPKT_REPLY_SIZE`: id, address, type, code, sequence number -/
def icmppktReplySize : Nat := 2 + 16 + 1 + 1 + 2

/-! ## The multiplexer -/

inductive State where
  | idle
  | established
  deriving DecidableEq

structure HttpIcmpMultiplexer where
  state : State
  streamId : Option Nat
  replyBuffer : Bytes

inductive Output where
  | reply (r : IcmpEchoReply)
  | consumed (streamId size : Nat)
  | connect
  | sent (streamId : Nat) (packet : Bytes)

/-- The fields of a reply; `none` is a missing optional. -/
def readReply (raw : Bytes) : Option IcmpEchoReply := do
  let (id, raw) ← Wire.getU16 raw
  let (peer, raw) ← Wire.getIpPadded raw
  let (type, raw) ← Wire.getU8 raw
  let (code, raw) ← Wire.getU8 raw
  let (seqno, _) ← Wire.getU16 raw
  some ⟨peer, id, seqno, type, code⟩

/-- `process_reply_chunk`: the buffer after it, the reply if one is complete, the bytes left. `none`
is a failed assertion or a missing optional. -/
def processReplyChunk (buffer : Bytes) (data : Bytes) : Option (Bytes × List IcmpEchoReply × Bytes) :=
  if buffer = [] ∧ icmppktReplySize ≤ data.length then
    (readReply (data.take icmppktReplySize)).map fun r => ([], [r], data.drop icmppktReplySize)
  else
    let toRead := min data.length (icmppktReplySize - buffer.length)
    let buffer := buffer ++ data.take toRead
    if buffer.length < icmppktReplySize then some (buffer, [], data.drop toRead)
    else if buffer.length ≠ icmppktReplySize then none
    else (readReply buffer).map fun r => ([], [r], data.drop toRead)

/-- A full buffer is emptied without taking bytes. -/
def rank (buffer : Bytes) : Nat := if buffer.length < icmppktReplySize then 0 else 1

theorem rank_le (buffer : Bytes) : rank buffer ≤ 1 := by
  unfold rank
  split <;> decide

theorem processReplyChunk_progress {b b' d rest : Bytes} {o : List IcmpEchoReply} (hd : d ≠ [])
    (h : processReplyChunk b d = some (b', o, rest)) :
    rest.length < d.length ∨ (rest.length = d.length ∧ rank b' < rank b) := by
  have hpos : 0 < d.length := length_pos_iff.mpr hd
  have hsize : icmppktReplySize = 22 := rfl
  unfold processReplyChunk at h
  split at h
  · next hfast =>
    obtain ⟨r, -, heq⟩ := Option.map_eq_some_iff.mp h
    cases heq
    simp only [length_drop]
    omega
  · dsimp only at h
    split at h
    · next hpart =>
      cases h
      simp only [length_append, length_drop] at hpart ⊢
      omega
    · split at h
      · cases h
      next hfull =>
      obtain ⟨r, -, heq⟩ := Option.map_eq_some_iff.mp h
      cases heq
      rw [length_drop]
      by_cases hlt : b.length < icmppktReplySize
      · omega
      · right
        rw [rank, rank, if_neg hlt, if_pos (by decide)]
        omega

def replyLoop : ReadLoop Bytes UInt8 IcmpEchoReply :=
  ⟨processReplyChunk, rank, 1, rank_le, fun _ _ _ _ _ hd h => processReplyChunk_progress hd h⟩

namespace HttpIcmpMultiplexer

def init : HttpIcmpMultiplexer := ⟨.idle, none, []⟩

/-- `process_read_event`; `none` is a failed assertion or a missing optional. -/
def processReadEvent (m : HttpIcmpMultiplexer) (data : Bytes) : Option (HttpIcmpMultiplexer × List Output) :=
  if m.state ≠ .established then none
  else
    match replyLoop.feed m.replyBuffer data, m.streamId with
    | some (buffer, replies), some id =>
      some ({ m with replyBuffer := buffer }, replies.map .reply ++ [.consumed id data.length])
    | _, _ => none

def close : HttpIcmpMultiplexer := ⟨.idle, none, []⟩

/-- `send_request_established`, where `ok` is whether the stream takes the packet. -/
def sendRequestEstablished (m : HttpIcmpMultiplexer) (request : IcmpEchoRequest) (ok : Bool) :
    Option (Bool × List Output) :=
  m.streamId.map fun id =>
    (ok, [.sent id (Wire.putU16 request.id ++ Wire.putIpPadded request.peer ++
      Wire.putU16 request.seqno ++ [request.ttl] ++ Wire.putU16 request.dataSize)])

/-- `send_request`, where `stream` is what the connect request gives. -/
def sendRequest (m : HttpIcmpMultiplexer) (request : IcmpEchoRequest) (stream : Option Nat)
    (ok : Bool) : Option (HttpIcmpMultiplexer × Bool × List Output) :=
  match m.state with
  | .idle =>
    if m.streamId.isSome then none
    else
      match stream with
      | none => some ({ m with streamId := none }, false, [.connect])
      | some id =>
        let m : HttpIcmpMultiplexer := { m with streamId := some id, state := .established }
        (m.sendRequestEstablished request ok).map fun r => (m, r.1, .connect :: r.2)
  | .established => (m.sendRequestEstablished request ok).map fun r => (m, r.1, r.2)

end HttpIcmpMultiplexer

/-! ## Fast and slow path -/

theorem readReply_some {raw : Bytes} (h : icmppktReplySize ≤ raw.length) : ∃ r, readReply raw = some r := by
  have hsize : icmppktReplySize = 22 := rfl
  obtain ⟨id, hid⟩ := Wire.getU16_some (b := raw) (by omega)
  obtain ⟨peer, hpeer⟩ := Wire.getIpPadded_some (b := raw.drop 2) (by rw [length_drop]; omega)
  obtain ⟨type, rest, htype⟩ : ∃ a rest, raw.drop 18 = a :: rest := by
    refine exists_cons_of_length_pos ?_
    rw [length_drop]
    omega
  have hlen := congrArg List.length htype
  rw [length_drop, length_cons] at hlen
  obtain ⟨code, rest', hcode⟩ : ∃ a rest', rest = a :: rest' :=
    exists_cons_of_length_pos (by omega)
  rw [hcode, length_cons] at hlen
  obtain ⟨seqno, hseqno⟩ := Wire.getU16_some (b := rest') (by omega)
  refine ⟨⟨peer, id, seqno, type, code⟩, ?_⟩
  simp [readReply, hid, hpeer, htype, Wire.getU8, hcode, hseqno]

/-- Both paths as one: a reply is complete when the buffer and the new bytes have 22 of them. -/
theorem processReplyChunk_full {b d : Bytes} (hb : b.length < icmppktReplySize)
    (h : icmppktReplySize ≤ b.length + d.length) :
    processReplyChunk b d = (readReply (b ++ d.take (icmppktReplySize - b.length))).map
      fun r => ([], [r], d.drop (icmppktReplySize - b.length)) := by
  unfold processReplyChunk
  by_cases hfast : b = [] ∧ icmppktReplySize ≤ d.length
  · rw [if_pos hfast, hfast.1]
    simp
  have hmin : min d.length (icmppktReplySize - b.length) = icmppktReplySize - b.length := by omega
  have hfull : (b ++ d.take (icmppktReplySize - b.length)).length = icmppktReplySize := by
    rw [length_append, length_take]
    omega
  simp [if_neg hfast, hmin, hfull]

theorem processReplyChunk_part {b d : Bytes} (h : b.length + d.length < icmppktReplySize) :
    processReplyChunk b d = some (b ++ d, [], []) := by
  have hslow : ¬(b = [] ∧ icmppktReplySize ≤ d.length) := by omega
  have hmin : min d.length (icmppktReplySize - b.length) = d.length := by omega
  simp [processReplyChunk, if_neg hslow, hmin, take_length, drop_length, length_append, if_pos h]

theorem processReplyChunk_overfull {b : Bytes} (h : icmppktReplySize ≤ b.length) (d : Bytes) : processReplyChunk b d =
      if b.length ≠ icmppktReplySize then none else (readReply b).map fun r => ([], [r], d) := by
  have hsize : icmppktReplySize = 22 := rfl
  have hslow : ¬(b = [] ∧ icmppktReplySize ≤ d.length) := by
    rintro ⟨rfl, -⟩
    simp [hsize] at h
  have hmin : min d.length (icmppktReplySize - b.length) = 0 := by omega
  simp [processReplyChunk, if_neg hslow, hmin, take_zero, drop_zero, if_neg (Nat.not_lt.mpr h)]

theorem processReplyChunk_append (b a e : Bytes) : processReplyChunk b (a ++ e) =
        (processReplyChunk b a).map (fun p => (p.1, p.2.1, p.2.2 ++ e)) ∨
      ∃ b', processReplyChunk b a = some (b', [], []) ∧ processReplyChunk b (a ++ e) = processReplyChunk b' e := by
  by_cases hb : b.length < icmppktReplySize
  · by_cases hfull : icmppktReplySize ≤ b.length + a.length
    · left
      have hle : icmppktReplySize - b.length ≤ a.length := by omega
      rw [processReplyChunk_full hb hfull, processReplyChunk_full hb (by
        rw [length_append]; omega), take_append_of_le_length hle,
        drop_append_of_le_length hle, Option.map_map]
      rfl
    · right
      have hpart : b.length + a.length < icmppktReplySize := Nat.not_le.mp hfull
      refine ⟨b ++ a, processReplyChunk_part hpart, ?_⟩
      have hlen : (b ++ a).length = b.length + a.length := length_append
      by_cases hmore : icmppktReplySize ≤ b.length + (a ++ e).length
      · have hsplit : icmppktReplySize - b.length = a.length + (icmppktReplySize - (b ++ a).length) := by
          omega
        rw [length_append] at hmore
        rw [processReplyChunk_full hb (by rw [length_append]; omega),
          processReplyChunk_full (by omega) (by omega), hsplit, take_length_add_append,
          drop_length_add_append, append_assoc]
      · rw [length_append] at hmore
        rw [processReplyChunk_part (by rw [length_append]; omega), processReplyChunk_part (by omega), append_assoc]
  · left
    rw [processReplyChunk_overfull (Nat.not_lt.mp hb), processReplyChunk_overfull (Nat.not_lt.mp hb)]
    split
    · rfl
    · rw [Option.map_map]
      rfl

theorem replyLoop_resumable : replyLoop.Resumable := by
  constructor
  · intro b a e _ hnone
    rcases processReplyChunk_append b a e with hstay | ⟨b', hgo, -⟩
    · exact hstay.trans (by rw [show processReplyChunk b a = none from hnone]; rfl)
    · exact absurd (hnone.symm.trans hgo) (by simp)
  · intro b a e b' o rest _ _ hsome
    have hsome' : processReplyChunk b a = some (b', o, rest) := hsome
    rcases processReplyChunk_append b a e with hstay | ⟨b'', hgo, hnext⟩
    · exact .inl (hstay.trans (by rw [hsome']; rfl))
    · rw [hsome'] at hgo
      cases hgo
      exact .inr ⟨rfl, rfl, hnext⟩

/-! ## Packets -/

/-- What the bytes of a stream stand for: packets that were decoded, then a part of the next one. -/
def Decoded (stream : Bytes) (replies : List IcmpEchoReply) (buffer : Bytes) : Prop :=
  ∃ packets : List Bytes, (∀ p ∈ packets, p.length = icmppktReplySize) ∧
    stream = packets.flatten ++ buffer ∧ packets.map readReply = replies.map some

theorem feed_decoded {b : Bytes} (hb : b.length < icmppktReplySize) (d : Bytes) :
    ∃ b' o, replyLoop.feed b d = some (b', o) ∧ b'.length < icmppktReplySize ∧ Decoded (b ++ d) o b' := by
  -- on the bytes that are left
  induction hn : d.length using Nat.strongRecOn generalizing b d with
  | _ n ih =>
    by_cases hd : d = []
    · subst hd
      exact ⟨b, [], by simp, hb, [], by simp, by simp, rfl⟩
    by_cases hfull : icmppktReplySize ≤ b.length + d.length
    · have hlen : (b ++ d.take (icmppktReplySize - b.length)).length = icmppktReplySize := by
        rw [length_append, length_take]
        omega
      obtain ⟨r, hr⟩ := readReply_some (Nat.le_of_eq hlen.symm)
      have hpass : replyLoop.pass b d = some ([], [r], d.drop (icmppktReplySize - b.length)) := by
        show processReplyChunk b d = _
        rw [processReplyChunk_full hb hfull, hr]
        rfl
      obtain ⟨b', o, hfeed, hb', packets, hsized, hstream, hdec⟩ :=
        ih (d.drop (icmppktReplySize - b.length)).length (by rw [length_drop]; omega) (b := []) (by decide) _ rfl
      refine ⟨b', r :: o, ?_, hb', (b ++ d.take (icmppktReplySize - b.length)) :: packets, ?_, ?_, ?_⟩
      · rw [replyLoop.feed_of_pass hd hpass, hfeed]
        rfl
      · intro p hp
        rcases mem_cons.mp hp with rfl | hp
        · exact hlen
        · exact hsized p hp
      · rw [nil_append] at hstream
        rw [flatten_cons, append_assoc, ← hstream, append_assoc, take_append_drop]
      · rw [map_cons, map_cons, hr, hdec]
    · have hpass : replyLoop.pass b d = some (b ++ d, [], []) :=
        processReplyChunk_part (Nat.not_le.mp hfull)
      refine ⟨b ++ d, [], ?_, ?_, [], by simp, by simp, rfl⟩
      · rw [replyLoop.feed_of_pass hd hpass, ReadLoop.feed_nil]
        rfl
      · rw [length_append]
        omega

namespace HttpIcmpMultiplexer

def processAll (m : HttpIcmpMultiplexer) : List Bytes → Option (HttpIcmpMultiplexer × List Output)
  | [] => some (m, [])
  | chunk :: chunks => andThen (m.processReadEvent chunk) fun m' => m'.processAll chunks

def Output.asReply : Output → Option IcmpEchoReply
  | .reply r => some r
  | _ => none

def replies (o : List Output) : List IcmpEchoReply := o.filterMap Output.asReply

theorem replies_append (a b : List Output) : replies (a ++ b) = replies a ++ replies b :=
  filterMap_append

theorem replies_read (rs : List IcmpEchoReply) (id n : Nat) : replies (rs.map .reply ++ [.consumed id n]) = rs := by
  induction rs with
  | nil => rfl
  | cons r rs ih => exact congrArg (r :: ·) ih

/-- The stream is open and the buffer holds less than a reply. -/
structure Reading (m : HttpIcmpMultiplexer) : Prop where
  established : m.state = .established
  stream : m.streamId.isSome
  short : m.replyBuffer.length < icmppktReplySize

theorem Reading.processReadEvent {m : HttpIcmpMultiplexer} (h : m.Reading) (data : Bytes) :
    ∃ b rs o, replyLoop.feed m.replyBuffer data = some (b, rs) ∧
      m.processReadEvent data = some ({ m with replyBuffer := b }, o) ∧ replies o = rs ∧
      Reading { m with replyBuffer := b } := by
  obtain ⟨b, rs, hfeed, hb, -⟩ := feed_decoded h.short data
  obtain ⟨id, hid⟩ := Option.isSome_iff_exists.mp h.stream
  refine ⟨b, rs, _, hfeed, ?_, replies_read rs id data.length, h.established, h.stream, hb⟩
  simp [HttpIcmpMultiplexer.processReadEvent, h.established, hfeed, hid]

theorem Reading.processAll {m : HttpIcmpMultiplexer} (h : m.Reading) (chunks : List Bytes) :
    ∃ b rs o, replyLoop.feedAll m.replyBuffer chunks = some (b, rs) ∧
      m.processAll chunks = some ({ m with replyBuffer := b }, o) ∧ replies o = rs := by
  induction chunks generalizing m with
  | nil => exact ⟨m.replyBuffer, [], [], rfl, rfl, rfl⟩
  | cons chunk chunks ih =>
    obtain ⟨b, rs, o, hfeed, hread, hrs, hnext⟩ := h.processReadEvent chunk
    obtain ⟨b', rs', o', hall, hrest, hrs'⟩ := ih hnext
    refine ⟨b', rs ++ rs', o ++ o', ?_, ?_, ?_⟩
    · rw [ReadLoop.feedAll, hfeed]
      simp [andThen, hall, emit_some]
    · rw [HttpIcmpMultiplexer.processAll, hread]
      simp [andThen, hrest, emit_some]
    · rw [replies_append, hrs, hrs']

/-- However the stream is cut into chunks, the replies are those of the uncut stream, the decoded
22-byte packets, and what is kept at the end of a chunk is less than a packet. -/
theorem icmp_chunks (m : HttpIcmpMultiplexer) (h : m.Reading) (chunks : List Bytes) :
    ∃ m1 o1 m2 o2, m.processAll chunks = some (m1, o1) ∧ m.processReadEvent chunks.flatten = some (m2, o2) ∧
      replies o1 = replies o2 ∧ m1.replyBuffer = m2.replyBuffer ∧
      Decoded (m.replyBuffer ++ chunks.flatten) (replies o1) m1.replyBuffer ∧
      m1.replyBuffer.length < icmppktReplySize := by
  obtain ⟨b, rs, o, hfeed, hread, hrs, hnext⟩ := h.processReadEvent chunks.flatten
  obtain ⟨b', rs', o', hall, hmany, hrs'⟩ := h.processAll chunks
  rw [ReadLoop.feedAll_flatten replyLoop_resumable, hfeed] at hall
  cases hall
  obtain ⟨b'', rs'', hfeed', -, hdec⟩ := feed_decoded h.short chunks.flatten
  rw [hfeed] at hfeed'
  cases hfeed'
  exact ⟨_, o', _, o, hmany, hread, hrs'.trans hrs.symm, rfl, hrs' ▸ hdec, hnext.short⟩

def opened : HttpIcmpMultiplexer := ⟨.established, some 4, []⟩

def onePacket : Bytes := [0, 7] ++ List.replicate 12 0 ++ [1, 2, 3, 4] ++ [0, 0, 0, 1]

theorem icmp_chunks_split : (opened.processAll [onePacket.take 5, onePacket.drop 5 ++ onePacket.take 3]).map
        (fun r => (r.1.replyBuffer, replies r.2)) = some ([0, 7, 0], [⟨⟨[1, 2, 3, 4], 0⟩, 7, 1, 0, 0⟩]) ∧
    ∃ m1 o1 m2 o2, opened.processAll [onePacket.take 5, onePacket.drop 5 ++ onePacket.take 3] = some (m1, o1) ∧
      opened.processReadEvent [onePacket.take 5, onePacket.drop 5 ++ onePacket.take 3].flatten =
        some (m2, o2) ∧ replies o1 = replies o2 ∧ m1.replyBuffer = m2.replyBuffer ∧
      Decoded (opened.replyBuffer ++ [onePacket.take 5, onePacket.drop 5 ++ onePacket.take 3].flatten)
        (replies o1) m1.replyBuffer ∧ m1.replyBuffer.length < icmppktReplySize :=
  ⟨by decide +kernel, icmp_chunks opened ⟨rfl, rfl, by decide⟩ _⟩

/-! ## Runs -/

def handleResponse (m : HttpIcmpMultiplexer) : Option HttpIcmpMultiplexer :=
  if m.state = .established then some m else none

/-- What `Http2Upstream` passes to the multiplexer. -/
inductive Event where
  | sendRequest (request : IcmpEchoRequest) (stream : Option Nat) (ok : Bool)
  | response (stream : Nat)
  | read (stream : Nat) (data : Bytes)
  | streamClosed (stream : Nat)
  | closeSession

/-- The multiplexer, with what was read and handed over since it was last closed. -/
structure Session where
  mux : HttpIcmpMultiplexer
  stream : Bytes
  replies : List IcmpEchoReply

namespace Session

def next (s : Session) : Event → Option Session
  | .sendRequest request stream ok => (s.mux.sendRequest request stream ok).map fun r => { s with mux := r.1 }
  | .response id => if s.mux.streamId = some id then s.mux.handleResponse.map ({ s with mux := · }) else some s
  | .read id data =>
    if s.mux.streamId = some id then
      (s.mux.processReadEvent data).map fun r => ⟨r.1, s.stream ++ data,
        s.replies ++ HttpIcmpMultiplexer.replies r.2⟩
    else some s
  | .streamClosed id => some (if s.mux.streamId = some id then ⟨close, [], []⟩ else s)
  | .closeSession => some ⟨close, [], []⟩

structure Inv (s : Session) : Prop where
  mux : s.mux = init ∨ s.mux.Reading
  decoded : Decoded s.stream s.replies s.mux.replyBuffer

theorem inv_init : Inv ⟨init, [], []⟩ := ⟨.inl rfl, [], by simp, rfl, rfl⟩

theorem Inv.reading {s : Session} (h : s.Inv) {id : Nat} (hid : s.mux.streamId = some id) : s.mux.Reading :=
  h.mux.resolve_left fun hinit => by simp [hinit, init] at hid

theorem Inv.next {s : Session} (h : s.Inv) (e : Event) : ∃ s', s.next e = some s' ∧ s'.Inv := by
  cases e with
  | sendRequest request stream ok =>
    rcases h.mux with hinit | hr
    · cases stream with
      | none => exact ⟨{ s with mux := init }, by simp [Session.next, hinit, sendRequest, init], .inl rfl,
        hinit ▸ h.decoded⟩
      | some id =>
        refine ⟨{ s with mux := ⟨.established, some id, []⟩ }, ?_,
          .inr ⟨rfl, rfl, show 0 < icmppktReplySize by decide⟩, ?_⟩
        · simp [Session.next, hinit, sendRequest, init, sendRequestEstablished]
        · simpa [hinit, init] using h.decoded
    · obtain ⟨id, hid⟩ := Option.isSome_iff_exists.mp hr.stream
      exact ⟨s, by simp [Session.next, sendRequest, hr.established, sendRequestEstablished, hid], h⟩
  | response id =>
    refine ⟨s, ?_, h⟩
    rw [Session.next]
    split_ifs with hid
    · simp [handleResponse, (h.reading hid).established]
    · rfl
  | read id data =>
    by_cases hid : s.mux.streamId = some id
    · obtain ⟨b, rs, o, hfeed, hread, hrs, hr⟩ := (h.reading hid).processReadEvent data
      obtain ⟨b', rs', hfeed', -, later, hlater, hrest, hdec⟩ := feed_decoded (h.reading hid).short data
      obtain ⟨packets, hsized, hstream, hearlier⟩ := h.decoded
      cases hfeed.symm.trans hfeed'
      refine ⟨_, by rw [Session.next, if_pos hid, hread]; rfl, .inr hr, packets ++ later, ?_, ?_, ?_⟩
      · exact fun p hp => (mem_append.mp hp).elim (hsized p) (hlater p)
      · simp [hstream, hrest]
      · simp [hearlier, hdec, hrs]
    · exact ⟨s, by rw [Session.next, if_neg hid], h⟩
  | streamClosed id =>
    refine ⟨_, rfl, ?_⟩
    split_ifs
    · exact inv_init
    · exact h
  | closeSession => exact ⟨_, rfl, inv_init⟩

theorem Inv.run {s : Session} (h : s.Inv) (es : List Event) : ∃ s',
    es.foldlM Session.next s = some s' ∧ s'.Inv := by
  induction es generalizing s with
  | nil => exact ⟨s, rfl, h⟩
  | cons e es ih =>
    obtain ⟨s', hnext, h'⟩ := h.next e
    simpa [hnext] using ih h'

/-- Whatever the upstream passes on, no assertion fails and no optional is missing, and the replies handed
over since the multiplexer was last closed are those of the stream opened since then: nothing of an earlier
stream is left in the buffer. -/
theorem streams_apart (es : List Event) :
    ∃ s, es.foldlM Session.next ⟨init, [], []⟩ = some s ∧ Decoded s.stream s.replies s.mux.replyBuffer ∧
      s.mux.replyBuffer.length < icmppktReplySize := by
  obtain ⟨s, hrun, hmux, hdec⟩ := inv_init.run es
  refine ⟨s, hrun, hdec, ?_⟩
  rcases hmux with hinit | hr
  · rw [hinit]
    decide
  · exact hr.short

end Session

end HttpIcmpMultiplexer

end TrustTunnel.Icmp
