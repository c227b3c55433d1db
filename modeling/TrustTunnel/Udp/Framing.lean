import TrustTunnel.Udp.Receive

/-!
# Udp.Framing

Streams of whole packets. The receiver stays in step with the packets as long as none declares more
than `MAX_UDP_IN_PACKET_LENGTH`: for such a packet `read_prefix` gives up before it has set the
payload length, none of the payload is skipped, and the payload is read as the next prefix.

A delivered packet without payload is held back until more bytes arrive, since the loop ends with
the data.
-/

namespace TrustTunnel.Udp

open Lib List

/-- A packet: 40 bytes of prefix, and as many bytes behind it as its length field declares. -/
structure Frame where
  header : Bytes
  payload : Bytes
  header_length : header.length = udppktInPrefixSize
  declared : Wire.getU32 header = some (payload.length + 36, header.drop 4)

namespace Frame

def bytes (f : Frame) : Bytes := f.header ++ f.payload

def length (f : Frame) : Nat := f.payload.length + 36

theorem length_eq {f : Frame} {n : Nat} (h : f.payload.length = n) : f.length = n + 36 := by
  rw [length, h]

def stream (frames : List Frame) : Bytes := frames.flatMap bytes

@[simp] theorem stream_nil : stream [] = [] := rfl

@[simp] theorem stream_append (fs gs : List Frame) : stream (fs ++ gs) = stream fs ++ stream gs := by
  simp [stream]

@[simp] theorem stream_singleton (f : Frame) : stream [f] = f.bytes := by simp [stream]

theorem header_ne_nil (f : Frame) : f.header ≠ [] := by
  intro h
  have hlen := f.header_length
  rw [h] at hlen
  cases hlen

theorem bytes_ne_nil (f : Frame) : f.bytes ≠ [] :=
  fun h => f.header_ne_nil (append_eq_nil_iff.mp h).1

end Frame

def Output.asHeader : Output → Option Bytes
  | .parsed header => some header
  | _ => none

def headers (o : List Output) : List Bytes := o.filterMap Output.asHeader

namespace Mux

/-! ## One packet -/

/-- The event a packet is to cause: its payload, for the connection with its address pair. -/
def delivery (m : Mux) (f : Frame) : Option (ConnId × Bytes) :=
  match m.readPrefix f.header with
  | some info => if m.dropPacket info then none else some (info.id, f.payload)
  | none => none

theorem readPrefix_frame (m : Mux) (f : Frame) : ∃ info, m.readPrefix f.header = some info ∧
      (f.length ≤ maxUdpInPacketLength → info.payloadLength = f.payload.length) ∧
      (maxUdpInPacketLength < f.length → info = ⟨nonId, 0⟩) := by
  obtain ⟨length, pair, hlength, hinfo⟩ := readPrefix_eq m f.header_length
  have hdecl : length = f.length := by
    rw [f.declared] at hlength
    cases hlength
    rfl
  subst hdecl
  have hlow : ¬ f.length < 36 := Nat.not_lt.mpr (Nat.le_add_left 36 _)
  refine ⟨_, hinfo, fun hmax => ?_, fun hmax => ?_⟩
  · rw [if_neg (by omega)]
    exact Nat.add_sub_cancel _ _
  · rw [if_pos (.inr hmax)]

open ReadLoop

theorem feed_idle (m : Mux) {d : Bytes} (hd : udppktInPrefixSize ≤ d.length) {info : PacketInfo}
    (hinfo : m.readPrefix (d.take udppktInPrefixSize) = some info) :
    m.recvLoop.feed .empty d = emit [.parsed (d.take udppktInPrefixSize)]
      (m.recvLoop.feed (m.afterPrefix .empty info) (d.drop udppktInPrefixSize)) := by
  have hne : d ≠ [] := ne_nil_of_length_pos (Nat.lt_of_lt_of_le (by decide) hd)
  have hpass : m.recvPass .empty d = some (m.afterPrefix .empty info,
      [.parsed (d.take udppktInPrefixSize)], d.drop udppktInPrefixSize) := by
    rw [recvPass_idle_full rfl (by decide) (Nat.le_trans hd (Nat.le_add_left _ _))]
    simp [RecvConnection.empty, hinfo]
  exact feed_of_pass m.recvLoop hne hpass

open Frame

theorem feed_header (m : Mux) (f : Frame) {info : PacketInfo} (hinfo : m.readPrefix f.header = some info) :
    m.recvLoop.feed .empty f.bytes
      = emit [.parsed f.header] (m.recvLoop.feed (m.afterPrefix .empty info) f.payload) := by
  have htake : f.bytes.take udppktInPrefixSize = f.header := by
    rw [bytes, ← f.header_length, take_left]
  have hdrop : f.bytes.drop udppktInPrefixSize = f.payload := by
    rw [bytes, ← f.header_length, drop_left]
  have hlen : udppktInPrefixSize ≤ f.bytes.length := by
    rw [bytes, length_append, f.header_length]
    exact Nat.le_add_right _ _
  rw [feed_idle m hlen (by rw [htake]; exact hinfo), htake, hdrop]

/-- Between two packets: nothing is buffered, nothing is left of the last one. -/
structure Boundary (m : Mux) (r : RecvConnection) : Prop where
  valid : m.RecvValid r
  between : r = .empty ∨ (r.state ≠ .idle ∧ r.bytesLeft = 0 ∧ r.buffer = [])

/-- The event that is still to be raised for the last packet. -/
def owed (r : RecvConnection) : List Output :=
  match r.state with
  | .payload => [.raised (.read r.id r.buffer)]
  | _ => []

variable {m : Mux} {r : RecvConnection} {f : Frame} {frames : List Frame}

theorem feed_boundary (h : m.Boundary r) {d : Bytes} (hd : d ≠ []) :
    m.recvLoop.feed r d = emit (owed r) (m.recvLoop.feed .empty d) := by
  rcases h.between with rfl | ⟨hne, hleft, hbuf⟩
  · exact (emit_nil _).symm
  have hle : r.bytesLeft ≤ d.length := by omega
  cases hs : r.state with
  | idle => exact absurd hs hne
  | payload =>
    have hpass : m.recvPass r d = some (.empty, owed r, d) := by
      rw [recvPass_payload_full hs (h.valid.payload hs) hle, hleft]
      simp [owed, hs]
    exact feed_of_pass m.recvLoop hd hpass
  | dropping =>
    have hpass : m.recvPass r d = some (.empty, owed r, d) := by
      rw [recvPass_dropping_full hs hle, hleft]
      simp [owed, hs]
    exact feed_of_pass m.recvLoop hd hpass

theorem headers_owed (r : RecvConnection) : headers (owed r) = [] := by
  unfold owed
  split <;> rfl

def withheld (m : Mux) (f : Frame) : Option (ConnId × Bytes) :=
  if f.payload.isEmpty then m.delivery f else none

theorem feed_frame (m : Mux) (hmax : f.length ≤ maxUdpInPacketLength) :
    ∃ r o, m.recvLoop.feed .empty f.bytes = some (r, o) ∧ m.Boundary r ∧
      headers o = [f.header] ∧ reads o ++ reads (owed r) = (m.delivery f).toList ∧
      reads (owed r) = (m.withheld f).toList := by
  obtain ⟨info, hinfo, hlen, -⟩ := readPrefix_frame m f
  have hpayload := hlen hmax
  rw [feed_header m f hinfo]
  have hvalid := recvValid_afterPrefix m .empty info
  by_cases hnil : f.payload = []
  · -- no pass is made for an empty payload
    have hzero : info.payloadLength = 0 := by rw [hpayload, hnil]; rfl
    refine ⟨m.afterPrefix .empty info, [.parsed f.header], ?_, ⟨hvalid, .inr ?_⟩, rfl, ?_, ?_⟩
    · rw [hnil, feed_nil]
      rfl
    · unfold afterPrefix
      split <;> exact ⟨by simp, hzero, rfl⟩
    · simp only [delivery, hinfo, hnil]
      unfold afterPrefix
      split <;> rfl
    · simp only [withheld, delivery, hinfo, hnil]
      unfold afterPrefix
      split <;> rfl
  · have hheld : m.withheld f = none := by simp [withheld, hnil]
    have hdone : ∀ {r : RecvConnection} {o : List Output}, m.recvPass r f.payload = some (.empty, o, []) →
        m.recvLoop.feed r f.payload = some (.empty, o) := by
      intro r o hpass
      rw [feed_of_pass m.recvLoop hnil hpass, feed_nil, emit_some, append_nil]
    cases hdrop : m.dropPacket info with
    | true =>
      have hpass : m.recvPass (m.afterPrefix .empty info) f.payload = some (.empty, [], []) := by
        rw [afterPrefix, if_pos hdrop, recvPass_dropping_full rfl hpayload.le, hpayload, drop_length]
      refine ⟨.empty, [.parsed f.header], by rw [hdone hpass]; rfl,
        ⟨recvValid_empty m, .inl rfl⟩, rfl, ?_, by rw [hheld]; rfl⟩
      simp only [delivery, hinfo, hdrop]
      rfl
    | false =>
      have hconn := hvalid.payload (by rw [afterPrefix, if_neg (by simp [hdrop])])
      have hpass : m.recvPass (m.afterPrefix .empty info) f.payload
          = some (.empty, [.raised (.read info.id f.payload)], []) := by
        rw [afterPrefix, if_neg (by simp [hdrop])] at hconn ⊢
        rw [recvPass_payload_full rfl hconn hpayload.le, hpayload, drop_length, take_length, nil_append]
      refine ⟨.empty, [.parsed f.header, .raised (.read info.id f.payload)],
        by rw [hdone hpass]; rfl, ⟨recvValid_empty m, .inl rfl⟩, rfl, ?_, by rw [hheld]; rfl⟩
      simp only [delivery, hinfo, hdrop]
      rfl

/-- Too long a packet: the receiver takes the front of its payload for a prefix. -/
theorem feed_oversized (m : Mux) (hmax : maxUdpInPacketLength < f.length) :
    ∃ r o hs, m.recvLoop.feed .empty f.bytes = some (r, o) ∧
      headers o = f.header :: f.payload.take udppktInPrefixSize :: hs := by
  obtain ⟨info, hinfo, -, hnone⟩ := readPrefix_frame m f
  have hlong : udppktInPrefixSize < f.payload.length := by
    have hmax' : 65563 < f.payload.length + 36 := hmax
    have : udppktInPrefixSize = 40 := rfl
    omega
  have hne : f.payload ≠ [] := ne_nil_of_length_pos (Nat.zero_lt_of_lt hlong)
  rw [feed_header m f hinfo, hnone hmax]
  -- nothing is left to drop, so the next byte of the payload is between two packets
  have hstart : m.Boundary (m.afterPrefix .empty ⟨nonId, 0⟩) := by
    refine ⟨recvValid_afterPrefix m _ _, .inr ?_⟩
    simp [afterPrefix, dropPacket]
  rw [feed_boundary hstart hne]
  have hlen : (f.payload.take udppktInPrefixSize).length = udppktInPrefixSize := by
    rw [length_take]
    omega
  obtain ⟨length, pair, -, hfront⟩ := readPrefix_eq m hlen
  rw [feed_idle m (Nat.le_of_lt hlong) hfront]
  obtain ⟨r, o, hrest, -⟩ := recvLoop_total (recvValid_afterPrefix m .empty _) (f.payload.drop udppktInPrefixSize)
  rw [hrest]
  exact ⟨r, _, headers o, rfl, rfl⟩

/-! ## Streams of packets -/

def withheldLast (m : Mux) (frames : List Frame) : List (ConnId × Bytes) :=
  (frames.getLast?.bind m.withheld).toList

theorem feed_next {r' : RecvConnection} {o o' : List Output}
    (hfeed : m.recvLoop.feed .empty (stream frames) = some (r, o)) (hr : m.Boundary r)
    (hfeed' : m.recvLoop.feed .empty f.bytes = some (r', o')) :
    m.recvLoop.feed .empty (stream (frames ++ [f])) = some (r', o ++ (owed r ++ o')) := by
  rw [stream_append, stream_singleton, feed_append (recvLoop_resumable m),
    hfeed, andThen, feed_boundary hr f.bytes_ne_nil, hfeed']
  rfl

theorem headers_next (o o' : List Output) (r : RecvConnection) :
    headers (o ++ (owed r ++ o')) = headers o ++ headers o' := by
  have howed := headers_owed r
  simp only [headers, filterMap_append] at *
  rw [howed, nil_append]

theorem feed_stream (m : Mux) (frames : List Frame) (hmax : ∀ f ∈ frames, f.length ≤ maxUdpInPacketLength) :
    ∃ r o, m.recvLoop.feed .empty (stream frames) = some (r, o) ∧ m.Boundary r ∧ headers o = frames.map header ∧
      reads o ++ reads (owed r) = frames.filterMap m.delivery ∧ reads (owed r) = m.withheldLast frames := by
  -- packet by packet, from the boundary the packets before it have led to
  induction frames using List.reverseRecOn with
  | nil => exact ⟨.empty, [], by simp, ⟨recvValid_empty m, .inl rfl⟩, rfl, rfl, rfl⟩
  | append_singleton frames f ih =>
    obtain ⟨r, o, hfeed, hr, hheaders, hreads, -⟩ := ih fun g hg => hmax g (by simp [hg])
    obtain ⟨r', o', hfeed', hr', hheaders', hreads', hheld'⟩ := feed_frame m (hmax f (by simp))
    refine ⟨r', o ++ (owed r ++ o'), feed_next hfeed hr hfeed', hr', ?_, ?_, ?_⟩
    · rw [headers_next, hheaders, hheaders', map_append]
      rfl
    · simp only [reads, filterMap_append] at *
      rw [append_assoc, append_assoc, hreads', ← append_assoc, hreads]
      cases hdel : m.delivery f <;> simp [hdel]
    · rw [hheld']
      simp [withheldLast]

/-- Every packet is treated at its own boundary, however the stream is cut. Behind each packet the
receiver is between two packets and has read the prefixes of the packets so far and no other bytes
as a prefix; in the end each packet was delivered or dropped whole. -/
structure Framed (m : Mux) (frames : List Frame) : Prop where
  boundaries : ∀ k chunks, (chunks.map Prod.snd).flatten = stream (frames.take k) →
    ∃ m' o, m.processAll chunks = some (m', o) ∧ m'.recv.bytesLeft = 0 ∧ m'.recv.buffer = [] ∧
      headers o = (frames.take k).map header
  deliveries : ∀ chunks, (chunks.map Prod.snd).flatten = stream frames →
    ∃ m' o, m.processAll chunks = some (m', o) ∧ reads o = frames.filterMap m.delivery

theorem processAll_eq {γ : Type} {g : Output → Option γ} (hg : ∀ n, g (.consumed n) = none)
    (hm : m.recv = .empty) {s : Bytes} {o : List Output} (hfeed : m.recvLoop.feed .empty s = some (r, o))
    {chunks : List (Nat × Bytes)} (hs : (chunks.map Prod.snd).flatten = s) :
    ∃ m' o', m.processAll chunks = some (m', o') ∧ m'.recv = r ∧ o'.filterMap g = o.filterMap g := by
  have hproj := processAll_project hg (SameTable.refl m) chunks
  rw [feedAll_flatten (recvLoop_resumable m), hs, hm, hfeed] at hproj
  obtain ⟨⟨m', o'⟩, hall, heq⟩ := Option.map_eq_some_iff.mp hproj
  simp only [Prod.mk.injEq] at heq
  exact ⟨m', o', hall, heq.1, heq.2⟩

theorem Boundary.rest (h : m.Boundary r) : r.bytesLeft = 0 ∧ r.buffer = [] := by
  rcases h.between with rfl | ⟨-, hleft, hbuf⟩
  · exact ⟨rfl, rfl⟩
  · exact ⟨hleft, hbuf⟩

theorem framed_of_admissible (hm : m.recv = .empty) (hmax : ∀ f ∈ frames, f.length ≤ maxUdpInPacketLength)
    (hlast : m.withheldLast frames = []) : m.Framed frames := by
  constructor
  · intro k chunks hs
    obtain ⟨r, o, hfeed, hr, hheaders, -⟩ := feed_stream m (frames.take k) fun f hf => hmax f (mem_of_mem_take hf)
    obtain ⟨m', o', hall, hrecv, ho⟩ := processAll_eq (g := Output.asHeader) (fun _ => rfl) hm hfeed hs
    refine ⟨m', o', hall, ?_, ?_, ho.trans hheaders⟩
    · rw [hrecv]; exact hr.rest.1
    · rw [hrecv]; exact hr.rest.2
  · intro chunks hs
    obtain ⟨r, o, hfeed, -, -, hreads, hheld⟩ := feed_stream m frames hmax
    obtain ⟨m', o', hall, -, ho⟩ := processAll_eq (g := Output.asRead) (fun _ => rfl) hm hfeed hs
    refine ⟨m', o', hall, ho.trans ?_⟩
    rw [hheld, hlast, append_nil] at hreads
    exact hreads

/-- Behind the first packet that is too long, more has been read as a prefix than prefixes. -/
theorem oversized_headers (hm : m.recv = .empty) {pre : List Frame}
    (hpre : ∀ g ∈ pre, g.length ≤ maxUdpInPacketLength) (hf : maxUdpInPacketLength < f.length)
    {chunks : List (Nat × Bytes)} (hs : (chunks.map Prod.snd).flatten = stream (pre ++ [f])) :
    ∃ m' o hs', m.processAll chunks = some (m', o) ∧
      headers o = pre.map header ++ f.header :: f.payload.take udppktInPrefixSize :: hs' := by
  obtain ⟨r, o, hfeed, hr, hheaders, -⟩ := feed_stream m pre hpre
  obtain ⟨r', o', hs', hfeed', hheaders'⟩ := feed_oversized m hf
  have hboth := feed_next hfeed hr hfeed'
  obtain ⟨m', o2, hall, -, ho⟩ := processAll_eq (g := Output.asHeader) (fun _ => rfl) hm hboth hs
  refine ⟨m', o2, hs', hall, ho.trans ((headers_next o o' r).trans ?_)⟩
  rw [hheaders, hheaders']

theorem withheldLast_eq_nil_iff : m.withheldLast frames = [] ↔
      ∀ f, frames.getLast? = some f → f.payload = [] → m.delivery f = none := by
  unfold withheldLast
  cases hlast : frames.getLast? with
  | none => simp
  | some f =>
    by_cases hnil : f.payload = []
    · cases hdel : m.delivery f <;> simp [withheld]
    · simp [withheld]

theorem Framed.admissible (hm : m.recv = .empty) (h : m.Framed frames) :
    ∀ f ∈ frames, f.length ≤ maxUdpInPacketLength := by
  by_contra hlong
  push Not at hlong
  obtain ⟨g, hg, hglong⟩ := hlong
  have hfound : (frames.find? fun f => decide (maxUdpInPacketLength < f.length)).isSome :=
    List.find?_isSome.mpr ⟨g, hg, by simpa using hglong⟩
  obtain ⟨f, hf⟩ := Option.isSome_iff_exists.mp hfound
  obtain ⟨hflong, pre, post, rfl, hpre⟩ := List.find?_eq_some_iff_append.mp hf
  -- the stream up to that packet, in one chunk
  have htake : (pre ++ f :: post).take (pre.length + 1) = pre ++ [f] := by
    rw [take_length_add_append]
    rfl
  have hs : ([(0, stream (pre ++ [f]))].map Prod.snd).flatten = stream (pre ++ [f]) := by
    simp
  obtain ⟨m', o, hall, -, -, hheaders⟩ := h.boundaries (pre.length + 1) _ (by rw [htake]; exact hs)
  obtain ⟨m2, o2, hs', hall2, hheaders2⟩ := oversized_headers hm
    (fun a ha => by simpa using hpre a ha) (by simpa using hflong) hs
  rw [hall] at hall2
  cases hall2
  have hlen := congrArg List.length (hheaders.symm.trans hheaders2)
  rw [htake] at hlen
  simp only [length_append, length_map, length_cons, length_nil] at hlen
  omega

/-- The streams on which every packet is treated at its own boundary. -/
theorem framed_iff (m : Mux) (hm : m.recv = .empty) (frames : List Frame) : m.Framed frames ↔
      (∀ f ∈ frames, f.length ≤ maxUdpInPacketLength) ∧
      ∀ f, frames.getLast? = some f → f.payload = [] → m.delivery f = none := by
  rw [← withheldLast_eq_nil_iff]
  constructor
  · intro h
    have hmax := h.admissible hm
    refine ⟨hmax, ?_⟩
    obtain ⟨r, o, hfeed, -, -, hreads, hheld⟩ := feed_stream m frames hmax
    have hs : ([(0, stream frames)].map Prod.snd).flatten = stream frames := by simp
    obtain ⟨m1, o1, hall, hdel⟩ := h.deliveries _ hs
    obtain ⟨m2, o2, hall2, -, ho⟩ := processAll_eq (g := Output.asRead) (fun _ => rfl) hm hfeed hs
    rw [hall] at hall2
    cases hall2
    -- all deliveries were made, so none is withheld
    have hdone : reads o = frames.filterMap m.delivery := ho.symm.trans hdel
    rw [hdone, hheld] at hreads
    exact append_right_eq_self.mp hreads
  · rintro ⟨hmax, hlast⟩
    exact framed_of_admissible hm hmax hlast

/-! ## A packet that is too long -/

/-- The prefix of a packet from `2.2.2.2:2` to `1.1.1.1:1` with this length field. -/
def headerOf (length : Bytes) : Bytes :=
  length ++ List.replicate 12 0 ++ [2, 2, 2, 2, 0, 2] ++ List.replicate 12 0 ++ [1, 1, 1, 1, 0, 1]

def heyFrame : Frame := ⟨headerOf [0, 0, 0, 39], [104, 101, 121], rfl, rfl⟩

theorem framed_hey : oneConnection.Framed [heyFrame, heyFrame] :=
  (framed_iff oneConnection rfl [heyFrame, heyFrame]).mpr (by
    refine ⟨by decide, fun f hf hnil => ?_⟩
    cases hf
    cases hnil)

theorem getU32_long : Wire.getU32 (headerOf [0, 1, 0, 28]) = some (65564, (headerOf [0, 1, 0, 28]).drop 4) := by decide

def longFrame : Frame :=
  ⟨headerOf [0, 1, 0, 28], List.replicate 65528 0, rfl, by rw [length_replicate]; exact getU32_long⟩

theorem longFrame_oversized : maxUdpInPacketLength < longFrame.length := by
  have hlen : longFrame.payload.length = 65528 := length_replicate
  rw [length_eq hlen]
  decide

/-- The stream is one packet; 40 bytes of its payload are read as the prefix of another. -/
theorem oversized_misread : ¬ oneConnection.Framed [longFrame] ∧
      ∃ m' o, oneConnection.processAll [(0, longFrame.bytes)] = some (m', o) ∧
        List.replicate 40 0 ∈ headers o ∧ longFrame.header ≠ List.replicate 40 0 := by
  have hlong := longFrame_oversized
  have hpre : ∀ g ∈ ([] : List Frame), g.length ≤ maxUdpInPacketLength := by simp
  have hs : ([(0, longFrame.bytes)].map Prod.snd).flatten = stream ([] ++ [longFrame]) := by
    simp
  refine ⟨fun h => absurd (h.admissible rfl longFrame (by simp)) (Nat.not_le.mpr hlong), ?_⟩
  obtain ⟨m', o, hs', hall, hheaders⟩ := oversized_headers (m := oneConnection) rfl hpre hlong hs
  have hfront : longFrame.payload.take udppktInPrefixSize = List.replicate 40 0 := by
    rfl
  refine ⟨m', o, hall, ?_, by decide⟩
  rw [hheaders, hfront]
  simp

end Mux
end TrustTunnel.Udp
