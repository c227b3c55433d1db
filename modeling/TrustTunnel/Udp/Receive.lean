import Mathlib.Logic.Relation
import TrustTunnel.Udp.Mux

/-!
# Udp.Receive

The receiver of `process_read_event`, pass by pass: what a pass does when the bytes at hand end the
part of the packet it is in, and when they do not.
-/

namespace TrustTunnel.Udp

open Lib List

namespace Mux

/-! ## Passes -/

section Passes

variable {m : Mux} {r : RecvConnection} {d : Bytes}

/-- The receiver once the prefix of a packet is known. -/
def afterPrefix (m : Mux) (r : RecvConnection) (info : PacketInfo) : RecvConnection :=
  if m.dropPacket info then ⟨.dropping, r.id, info.payloadLength, []⟩
  else ⟨.payload, info.id, info.payloadLength, []⟩

theorem recvPass_idle_part (hs : r.state = .idle) (hd : r.buffer.length + d.length < udppktInPrefixSize) :
    m.recvPass r d = some ({ r with buffer := r.buffer ++ d }, [], []) := by
  have hmin : min (udppktInPrefixSize - r.buffer.length) d.length = d.length := by omega
  have hbuf : ¬ udppktInPrefixSize ≤ r.buffer.length := by omega
  simp [recvPass, hs, hmin, hbuf, hd]

theorem recvPass_idle_full (hs : r.state = .idle) (hbuf : r.buffer.length < udppktInPrefixSize)
    (hd : udppktInPrefixSize ≤ r.buffer.length + d.length) : m.recvPass r d =
      (m.readPrefix (r.buffer ++ d.take (udppktInPrefixSize - r.buffer.length))).map fun info =>
        (m.afterPrefix r info, [.parsed (r.buffer ++ d.take (udppktInPrefixSize - r.buffer.length))],
          d.drop (udppktInPrefixSize - r.buffer.length)) := by
  have hmin : min (udppktInPrefixSize - r.buffer.length) d.length = udppktInPrefixSize - r.buffer.length := by omega
  have hlen : ¬ (r.buffer ++ d.take (udppktInPrefixSize - r.buffer.length)).length < udppktInPrefixSize := by
    simp only [length_append, length_take]
    omega
  simp only [recvPass, hs, if_neg (Nat.not_le.mpr hbuf), hmin, if_neg hlen, afterPrefix]

theorem recvPass_payload_part (hs : r.state = .payload) (hc : (m.connections.lookup r.id).isSome)
    (hd : d.length < r.bytesLeft) : m.recvPass r d =
      some ({ r with buffer := r.buffer ++ d, bytesLeft := r.bytesLeft - d.length }, [], []) := by
  have hmin : min r.bytesLeft d.length = d.length := by omega
  have hleft : ¬ r.bytesLeft - d.length = 0 := by omega
  have hn : ¬ (m.connections.lookup r.id).isNone := by simpa [← Option.isSome_iff_ne_none] using hc
  simp only [recvPass, hs, if_neg hn, hmin, if_neg hleft, take_length, drop_length]

theorem recvPass_payload_full (hs : r.state = .payload) (hc : (m.connections.lookup r.id).isSome)
    (hd : r.bytesLeft ≤ d.length) :
    m.recvPass r d = some (.empty, [.raised (.read r.id (r.buffer ++ d.take r.bytesLeft))], d.drop r.bytesLeft) := by
  have hn : ¬ (m.connections.lookup r.id).isNone := by simpa [← Option.isSome_iff_ne_none] using hc
  simp only [recvPass, hs, if_neg hn, Nat.min_eq_left hd, Nat.sub_self, if_true]

theorem recvPass_payload_none (hs : r.state = .payload)
    (hc : (m.connections.lookup r.id).isNone) : m.recvPass r d = none := by
  simp only [recvPass, hs, if_pos hc]

theorem recvPass_dropping_part (hs : r.state = .dropping) (hd : d.length < r.bytesLeft) :
    m.recvPass r d = some ({ r with bytesLeft := r.bytesLeft - d.length }, [], []) := by
  have hmin : min r.bytesLeft d.length = d.length := by omega
  have hleft : ¬ r.bytesLeft - d.length = 0 := by omega
  simp [recvPass, hs, hmin, if_neg hleft, drop_length]

theorem recvPass_dropping_full (hs : r.state = .dropping) (hd : r.bytesLeft ≤ d.length) :
    m.recvPass r d = some (.empty, [], d.drop r.bytesLeft) := by
  simp [recvPass, hs, Nat.min_eq_left hd]

end Passes

/-! ## Chunks -/

theorem min_append {a : Bytes} {n : Nat} (b : Bytes) (h : a.length ≤ n) :
    min n (a ++ b).length = a.length + min (n - a.length) b.length := by
  rw [length_append]
  omega

/-- With `b` behind `a`, the pass ends within `a` and leaves `b` alone, or uses `a` up in silence and
is a pass over `b` from there. -/
theorem recvPass_append (m : Mux) (r : RecvConnection) (a b : Bytes) :
    m.recvPass r (a ++ b) = (m.recvPass r a).map (fun p => (p.1, p.2.1, p.2.2 ++ b)) ∨
      ∃ r', m.recvPass r a = some (r', [], []) ∧ m.recvPass r (a ++ b) = m.recvPass r' b := by
  cases hs : r.state with
  | idle =>
    by_cases hbuf : udppktInPrefixSize ≤ r.buffer.length
    · exact .inl (by simp [recvPass, hs, hbuf])
    have hbuf' : r.buffer.length < udppktInPrefixSize := Nat.not_le.mp hbuf
    by_cases hfull : udppktInPrefixSize ≤ r.buffer.length + a.length
    · left
      have hle : udppktInPrefixSize - r.buffer.length ≤ a.length := by omega
      rw [recvPass_idle_full hs hbuf' hfull, recvPass_idle_full hs hbuf' (by
        simp only [length_append]; omega), take_append_of_le_length hle,
        drop_append_of_le_length hle, Option.map_map]
      rfl
    · right
      have hpart : r.buffer.length + a.length < udppktInPrefixSize := Nat.not_le.mp hfull
      have hnot : ¬ udppktInPrefixSize ≤ (r.buffer ++ a).length := by
        simpa only [length_append] using hfull
      have hmin : min (udppktInPrefixSize - r.buffer.length) (a ++ b).length
          = a.length + min (udppktInPrefixSize - (r.buffer ++ a).length) b.length := by
        rw [min_append b (by omega), length_append, Nat.sub_add_eq]
      refine ⟨_, recvPass_idle_part hs hpart, ?_⟩
      simp only [recvPass, hs, if_neg hbuf, if_neg hnot, hmin, take_length_add_append,
        drop_length_add_append, append_assoc]
  | payload =>
    cases hc : (m.connections.lookup r.id).isSome with
    | false =>
      have hn : (m.connections.lookup r.id).isNone := by simpa using hc
      exact .inl (by rw [recvPass_payload_none hs hn, recvPass_payload_none hs hn]; rfl)
    | true =>
      by_cases hfull : r.bytesLeft ≤ a.length
      · left
        rw [recvPass_payload_full hs hc hfull, recvPass_payload_full hs hc (by
          simp only [length_append]; omega), take_append_of_le_length hfull,
          drop_append_of_le_length hfull]
        rfl
      · right
        have hmin := min_append b (Nat.le_of_not_ge hfull)
        refine ⟨_, recvPass_payload_part hs hc (Nat.not_le.mp hfull), ?_⟩
        simp only [recvPass, hs, hmin, take_length_add_append, drop_length_add_append, append_assoc, Nat.sub_add_eq]
  | dropping =>
    by_cases hfull : r.bytesLeft ≤ a.length
    · left
      rw [recvPass_dropping_full hs hfull, recvPass_dropping_full hs (by
        simp only [length_append]; omega), drop_append_of_le_length hfull]
      rfl
    · right
      have hmin := min_append b (Nat.le_of_not_ge hfull)
      refine ⟨_, recvPass_dropping_part hs (Nat.not_le.mp hfull), ?_⟩
      simp only [recvPass, hs, hmin, drop_length_add_append, Nat.sub_add_eq]

theorem recvLoop_resumable (m : Mux) : m.recvLoop.Resumable := by
  constructor
  · intro r a b _ hnone
    rcases recvPass_append m r a b with hstay | ⟨r', hgo, -⟩
    · exact hstay.trans (by rw [show m.recvPass r a = none from hnone]; rfl)
    · exact absurd (hnone.symm.trans hgo) (by simp)
  · intro r a b r' o rest _ _ hsome
    have hsome' : m.recvPass r a = some (r', o, rest) := hsome
    rcases recvPass_append m r a b with hstay | ⟨r'', hgo, hnext⟩
    · exact .inl (hstay.trans (by rw [hsome']; rfl))
    · rw [hsome'] at hgo
      cases hgo
      exact .inr ⟨rfl, rfl, hnext⟩

/-! ## Assertions -/

structure RecvValid (m : Mux) (r : RecvConnection) : Prop where
  idle : r.state = .idle → r.buffer.length < udppktInPrefixSize
  payload : r.state = .payload → (m.connections.lookup r.id).isSome

theorem recvValid_empty (m : Mux) : m.RecvValid .empty :=
  ⟨fun _ => by decide, fun h => nomatch h⟩

theorem readPrefix_eq (m : Mux) {data : Bytes} (hdata : data.length = udppktInPrefixSize) :
    ∃ length pair, Wire.getU32 data = some (length, data.drop 4) ∧
      m.readPrefix data = some (if length < 36 ∨ maxUdpInPacketLength < length then ⟨nonId, 0⟩
        else ⟨(m.addrToId.lookup pair).getD nonId, length - 36⟩) := by
  have hlen : data.length = 40 := hdata
  obtain ⟨length, h1⟩ := Wire.getU32_some (b := data) (by omega)
  obtain ⟨src, h2⟩ := Wire.getIpPadded_some (b := data.drop 4) (by rw [length_drop]; omega)
  obtain ⟨srcPort, h3⟩ := Wire.getU16_some (b := (data.drop 4).drop 16) (by simp only [length_drop]; omega)
  obtain ⟨dst, h4⟩ := Wire.getIpPadded_some (b := ((data.drop 4).drop 16).drop 2)
    (by simp only [length_drop]; omega)
  obtain ⟨dstPort, h5⟩ := Wire.getU16_some (b := (((data.drop 4).drop 16).drop 2).drop 16)
    (by simp only [length_drop]; omega)
  refine ⟨length, ⟨dst.setPort dstPort, .sock (src.setPort srcPort)⟩, h1, ?_⟩
  have h36 : udppktInPrefixSize - udppktLengthSize = 36 := rfl
  simp only [readPrefix, h1, h2, h3, h4, h5, h36, Option.bind_eq_bind, Option.bind_some]
  by_cases hlow : length < 36
  · simp [hlow]
  by_cases hhigh : maxUdpInPacketLength < length
  · simp [hhigh]
  · simp only [hlow, hhigh]
    cases m.addrToId.lookup ⟨dst.setPort dstPort, .sock (src.setPort srcPort)⟩ <;> rfl

theorem recvValid_afterPrefix (m : Mux) (r : RecvConnection) (info : PacketInfo) :
    m.RecvValid (m.afterPrefix r info) := by
  unfold afterPrefix
  split_ifs with hdrop
  · exact ⟨fun h => (nomatch h), fun h => nomatch h⟩
  refine ⟨fun h => (nomatch h), fun _ => ?_⟩
  simp only [dropPacket] at hdrop
  cases hc : m.connections.lookup info.id with
  | none => simp [hc] at hdrop
  | some conn => rfl

variable {m m' : Mux} {r : RecvConnection}

theorem recvPass_valid {d : Bytes} (h : m.RecvValid r) :
    ∃ r' o rest, m.recvPass r d = some (r', o, rest) ∧ m.RecvValid r' := by
  cases hs : r.state with
  | idle =>
    have hbuf := h.idle hs
    by_cases hfull : udppktInPrefixSize ≤ r.buffer.length + d.length
    · have hlen : (r.buffer ++ d.take (udppktInPrefixSize - r.buffer.length)).length = udppktInPrefixSize := by
        simp only [length_append, length_take]
        omega
      obtain ⟨length, pair, -, hinfo⟩ := readPrefix_eq m hlen
      rw [recvPass_idle_full hs hbuf hfull, hinfo]
      exact ⟨_, _, _, rfl, recvValid_afterPrefix m r _⟩
    · refine ⟨_, _, _, recvPass_idle_part hs (Nat.not_le.mp hfull), fun _ => ?_, fun hp => ?_⟩
      · simpa only [length_append] using Nat.not_le.mp hfull
      · exact absurd (hs.symm.trans hp) (by decide)
  | payload =>
    have hc := h.payload hs
    by_cases hfull : r.bytesLeft ≤ d.length
    · exact ⟨_, _, _, recvPass_payload_full hs hc hfull, recvValid_empty m⟩
    · refine ⟨_, _, _, recvPass_payload_part hs hc (Nat.not_le.mp hfull), fun hi => ?_, fun _ => hc⟩
      exact absurd (hs.symm.trans hi) (by decide)
  | dropping =>
    by_cases hfull : r.bytesLeft ≤ d.length
    · exact ⟨_, _, _, recvPass_dropping_full hs hfull, recvValid_empty m⟩
    · refine ⟨_, _, _, recvPass_dropping_part hs (Nat.not_le.mp hfull), fun hi => ?_, fun hp => ?_⟩
      · exact absurd (hs.symm.trans hi) (by decide)
      · exact absurd (hs.symm.trans hp) (by decide)

/-! ## The table -/

/-- The two have the same connections as far as the receiver can see. -/
structure SameTable (m m' : Mux) : Prop where
  addrToId : m'.addrToId = m.addrToId
  readEnabled : ∀ id, (m'.connections.lookup id).map Connection.readEnabled
    = (m.connections.lookup id).map Connection.readEnabled

theorem SameTable.refl (m : Mux) : SameTable m m := ⟨rfl, fun _ => rfl⟩

section

variable (h : SameTable m m')
include h

theorem SameTable.isSome (id : ConnId) : (m'.connections.lookup id).isSome = (m.connections.lookup id).isSome := by
  have := congrArg Option.isSome (h.readEnabled id)
  simpa only [Option.isSome_map] using this

theorem SameTable.dropPacket (info : PacketInfo) : m'.dropPacket info = m.dropPacket info := by
  have hread := h.readEnabled info.id
  unfold Mux.dropPacket
  cases hc : m.connections.lookup info.id <;> cases hc' : m'.connections.lookup info.id <;>
    simp_all

theorem SameTable.recvPass (d : Bytes) : m'.recvPass r d = m.recvPass r d := by
  have hread : m'.readPrefix = m.readPrefix := by
    funext data
    simp only [readPrefix, h.addrToId]
  have hsome : (m'.connections.lookup r.id).isNone = (m.connections.lookup r.id).isNone := by
    rw [← Option.not_isSome, ← Option.not_isSome, h.isSome]
  unfold Mux.recvPass
  simp only [hread, hsome, h.dropPacket]

theorem SameTable.touch (now : Nat) (r : RecvConnection) : SameTable m { m'.touch now with recv := r } := by
  unfold Mux.touch
  split
  · refine ⟨h.addrToId, fun id => ?_⟩
    rw [← h.readEnabled id]
    simp only [Map.lookup_modify_eq]
    split_ifs with hid
    · rw [hid, Option.map_map]
      rfl
    · rfl
  · exact ⟨h.addrToId, h.readEnabled⟩

/-- The loop of `process_read_event` is the receiver's, over the table as it was. -/
theorem readLoop_project (now : Nat) (d : Bytes) :
    ((readLoop now).feed m' d).map (fun p => (p.1.recv, p.2)) = m.recvLoop.feed m'.recv d ∧
      ∀ m'' o, (readLoop now).feed m' d = some (m'', o) → SameTable m m'' := by
  refine ReadLoop.feed_project ?_ m' d h
  intro t d ht _
  refine ⟨?_, ?_⟩
  · change ((t.recvPass t.recv d).map _).map _ = m.recvPass t.recv d
    rw [Option.map_map, ht.recvPass]
    exact Option.map_id_apply
  · intro t' o rest hp
    obtain ⟨⟨r, o', rest'⟩, -, heq⟩ := Option.map_eq_some_iff.mp hp
    cases heq
    exact ht.touch now r

end

/-! ## Calls -/

/-- `process_read_event` once per chunk, each at its own time. -/
def processAll (m : Mux) : List (Nat × Bytes) → Option Part
  | [] => some (m, [])
  | (now, chunk) :: chunks => andThen (m.processReadEvent now chunk) fun m' => m'.processAll chunks

def Output.asRead : Output → Option (ConnId × Bytes)
  | .raised (.read id data) => some (id, data)
  | _ => none

def reads (o : List Output) : List (ConnId × Bytes) := o.filterMap Output.asRead

section Project

/- Outputs are compared through `g`, which does not see how much of the stream a call consumed. -/
variable {γ : Type} {g : Output → Option γ} (hg : ∀ n, g (.consumed n) = none)

include hg

theorem processReadEvent_project {m m' : Mux} (h : SameTable m m') (now : Nat) (d : Bytes) :
    (m'.processReadEvent now d).map (fun p => (p.1.recv, p.2.filterMap g))
        = (m.recvLoop.feed m'.recv d).map (fun p => (p.1, p.2.filterMap g)) ∧
      ∀ m'' o, m'.processReadEvent now d = some (m'', o) → SameTable m m'' := by
  obtain ⟨hproj, hsame⟩ := readLoop_project h now d
  unfold processReadEvent
  rw [← hproj]
  cases hf : (readLoop now).feed m' d with
  | none => exact ⟨rfl, fun _ _ h => nomatch h⟩
  | some p =>
    obtain ⟨m1, o1⟩ := p
    refine ⟨?_, ?_⟩
    · simp [hg]
    · intro m'' o heq
      cases heq
      exact hsame m1 o1 hf

theorem processAll_project {m m' : Mux} (h : SameTable m m') (chunks : List (Nat × Bytes)) :
    (m'.processAll chunks).map (fun p => (p.1.recv, p.2.filterMap g))
      = (m.recvLoop.feedAll m'.recv (chunks.map Prod.snd)).map (fun p => (p.1, p.2.filterMap g)) := by
  induction chunks generalizing m' with
  | nil => rfl
  | cons c chunks ih =>
    obtain ⟨now, chunk⟩ := c
    obtain ⟨hproj, hsame⟩ := processReadEvent_project hg h now chunk
    simp only [processAll, map_cons, ReadLoop.feedAll]
    cases hp : m'.processReadEvent now chunk with
    | none =>
      rw [hp] at hproj
      rw [Option.map_eq_none_iff.mp hproj.symm]
      rfl
    | some p =>
      obtain ⟨m1, o1⟩ := p
      rw [hp] at hproj
      obtain ⟨⟨r, o⟩, hfeed, heq⟩ := Option.map_eq_some_iff.mp hproj.symm
      simp only [Prod.mk.injEq] at heq
      rw [hfeed]
      simp only [andThen, map_emit Mux.recv g, map_emit (fun r : RecvConnection => r) g, heq]
      rw [ih (hsame m1 o1 hp)]

end Project

theorem recvLoop_total (h : m.RecvValid r) (d : Bytes) :
    ∃ r' o, m.recvLoop.feed r d = some (r', o) ∧ m.RecvValid r' :=
  m.recvLoop.feed_inv (fun _ _ _ hr _ => recvPass_valid hr) [] r d h

/-- However the stream is cut into chunks, the receiver ends in the same state and the same packets
are delivered. -/
theorem process_chunks (m : Mux) (h : m.RecvValid m.recv) (now : Nat) (chunks : List (Nat × Bytes)) :
    ∃ m1 o1 m2 o2, m.processAll chunks = some (m1, o1) ∧
      m.processReadEvent now (chunks.map Prod.snd).flatten = some (m2, o2) ∧
      m1.recv = m2.recv ∧ reads o1 = reads o2 := by
  have hg : ∀ n, Output.asRead (.consumed n) = none := fun _ => rfl
  obtain ⟨r, o, hfeed, -⟩ := recvLoop_total h (chunks.map Prod.snd).flatten
  have hmany := processAll_project hg (SameTable.refl m) chunks
  have hone := (processReadEvent_project hg (SameTable.refl m) now (chunks.map Prod.snd).flatten).1
  rw [ReadLoop.feedAll_flatten (recvLoop_resumable m), hfeed] at hmany
  rw [hfeed] at hone
  obtain ⟨⟨m1, o1⟩, h1, heq1⟩ := Option.map_eq_some_iff.mp hmany
  obtain ⟨⟨m2, o2⟩, h2, heq2⟩ := Option.map_eq_some_iff.mp hone
  simp only [Prod.mk.injEq] at heq1 heq2
  exact ⟨m1, o1, m2, o2, h1, h2, heq1.1.trans heq2.1.symm, heq1.2.trans heq2.2.symm⟩

def anyPair : TunnelAddressPair := ⟨⟨[1, 1, 1, 1], 1⟩, .sock ⟨[2, 2, 2, 2], 2⟩⟩

def oneConnection : Mux :=
  system.exec init [.openConnection 0 1 anyPair [] (some 3), .openTask 1, .setReadEnabled 1 true]

def heyPacket : Bytes :=
  [0, 0, 0, 39] ++ List.replicate 12 0 ++ [2, 2, 2, 2, 0, 2] ++ List.replicate 12 0
    ++ [1, 1, 1, 1, 0, 1] ++ [104, 101, 121]

example : (oneConnection.processReadEvent 0 heyPacket).map (fun p => reads p.2)
    = some [(1, [104, 101, 121])] := by decide +kernel

theorem process_chunks_hey : ∃ m1 o1 m2 o2,
      oneConnection.processAll [(0, heyPacket.take 7), (1, heyPacket.drop 7)] = some (m1, o1) ∧
      oneConnection.processReadEvent 0
        ([(0, heyPacket.take 7), (1, heyPacket.drop 7)].map Prod.snd).flatten = some (m2, o2) ∧
      m1.recv = m2.recv ∧ reads o1 = reads o2 :=
  process_chunks oneConnection (recvValid_empty oneConnection) 0 [(0, heyPacket.take 7), (1, heyPacket.drop 7)]

/-! ## Changes -/

def Receives (m : Mux) : Prop := m.RecvValid m.recv

theorem RecvValid.mono (h : m.RecvValid r)
    (hc : ∀ id, (m.connections.lookup id).isSome → (m'.connections.lookup id).isSome) : m'.RecvValid r :=
  ⟨h.idle, fun hs => hc _ (h.payload hs)⟩

theorem isSome_modify (m : Map ConnId Connection) (id : ConnId) (f : Connection → Connection)
    (j : ConnId) : (AList.lookup j (m.modify id f)).isSome = (m.lookup j).isSome := by
  rw [Map.lookup_modify_eq]
  split_ifs with hj
  · rw [hj, Option.isSome_map]
  · rfl

/-- The changes a call is made of, unless it opens a connection or comes from the stream. -/
inductive Change (m : Mux) : Mux → Prop where
  | edit (id : ConnId) (f : Connection → Connection)
      (hf : ∀ c, (f c).addr = c.addr ∧ (f c).openTask = c.openTask) :
      Change m { m with connections := m.connections.modify id f }
  | clean (id : ConnId) : Change m (m.cleanConnectionData id)
  | complete (id : ConnId) : Change m (m.completeUdpConnection id).1
  | reorder {id : ConnId} {conn : Connection} (h : m.connections.lookup id = some conn) :
      Change m { m with connections := m.connections.insert id conn }

abbrev Changes : Mux → Mux → Prop := Relation.ReflTransGen Change

theorem Changes.inv {I : Mux → Prop} (hI : ∀ m m', I m → Change m m' → I m') (h : I m)
    (hc : Changes m m') : I m' := by
  induction hc with
  | refl => exact h
  | tail _ hc ih => exact hI _ _ ih hc

theorem changes_closeConnectionNow (m : Mux) (id : ConnId) : Changes m (m.closeConnectionNow id).1 := by
  unfold closeConnectionNow
  split
  · exact .refl
  · exact .single (.clean id)

theorem changes_expire (m : Mux) (now : Nat) (id : ConnId) : Changes m (expire now id m).1 := by
  unfold expire
  split
  · exact .refl
  · split
    · exact .single (.clean id)
    · exact .refl

theorem changes_send (m : Mux) (now : Nat) (id : ConnId) (data : Bytes) (ok : Bool) :
    Changes m (m.send now id data ok).1 := by
  unfold send
  split
  · exact .refl
  split
  · exact .refl
  · split
    · exact .single (.edit id _ fun _ => ⟨rfl, rfl⟩)
    · exact .refl

theorem changes_reportSent (m : Mux) (id : ConnId) : Changes m (reportSent id m).1 := by
  unfold reportSent
  split
  · exact .refl
  · split
    · exact .single (.edit id _ fun _ => ⟨rfl, rfl⟩)
    · exact .refl

theorem changes_data {now : Nat} {d : Bytes} {o : List Output} (hp : m.processReadEvent now d = some (m', o)) :
    ∃ m1, Changes m m1 ∧ m' = { m1 with recv := m'.recv } := by
  obtain ⟨⟨m2, o2⟩, hfeed, heq⟩ := Option.map_eq_some_iff.mp hp
  cases heq
  have hkeep := (ReadLoop.feed_project (K := readLoop now) (L := readLoop now) (π := id)
    (I := fun t => ∃ m1, Changes m m1 ∧ t = { m1 with recv := t.recv }) (fun t d ht _ => ?_) m d ⟨m,
      .refl, rfl⟩).2
  · exact hkeep m2 o2 hfeed
  refine ⟨Option.map_id_apply, fun t' o' rest hpass => ?_⟩
  obtain ⟨m1, hm1, ht⟩ := ht
  obtain ⟨⟨r, o1, rest1⟩, -, heq⟩ := Option.map_eq_some_iff.mp hpass
  cases heq
  unfold touch
  split
  · refine ⟨_, hm1.tail (.edit t.recv.id (fun c => { c with timeout := now + udpTimeout }) fun _ =>
      ⟨rfl, rfl⟩), ?_⟩
    rw [ht]
  · refine ⟨m1, hm1, ?_⟩
    rw [ht]

def plain : Call → Bool
  | .openConnection .. | .response _ | .data .. | .close _ => false
  | _ => true

theorem changes_runTask (m : Mux) (id : ConnId) (pending : Connection → Bool) {task : Part}
    (ht : Changes m task.1) : Changes m (m.runTask id pending task).1 := by
  unfold runTask
  split
  · exact ht
  · exact .refl

theorem changes_step (m : Mux) {c : Call} (hc : plain c = true) : Changes m (m.step c).1 := by
  cases c with
  | openConnection | response | data | close => cases hc
  | closeConnection id async =>
    simp only [step, closeConnection]
    split
    · exact changes_closeConnectionNow m id
    · split
      · exact .refl
      · exact .single (.edit id _ fun _ => ⟨rfl, rfl⟩)
  | openTask id => exact changes_runTask m id _ (.single (.complete id))
  | closeTask id => exact changes_runTask m id _ (changes_closeConnectionNow m id)
  | timer now =>
    simp only [step]
    split
    · exact forEach_state .refl fun id _ s hs => hs.trans (changes_expire s now id)
    · exact .refl
  | setReadEnabled id v => exact .single (.edit id _ fun _ => ⟨rfl, rfl⟩)
  | send now id data ok =>
    simp only [step]
    split
    · exact changes_send m now id data ok
    · exact .refl
  | reportSentBytes =>
    exact forEach_state .refl fun id _ s hs => hs.trans (changes_reportSent s id)
  | reorder id =>
    simp only [step]
    split
    · exact .single (.reorder ‹_›)
    · exact .refl

/-! ## Runs -/

theorem receives_change (h : m.Receives) (hc : Change m m') : m'.Receives := by
  cases hc with
  | edit id f _ => exact RecvValid.mono h fun j hj => by simpa only [isSome_modify] using hj
  | clean id =>
    unfold cleanConnectionData
    split
    · exact h
    split
    · exact ⟨fun hs => (nomatch hs), fun hs => nomatch hs⟩
    -- the payload being received is another connection's
    rename_i hid
    refine ⟨h.idle, fun hs => ?_⟩
    rw [Map.lookup_erase_eq, if_neg hid]
    exact h.payload hs
  | complete id =>
    unfold completeUdpConnection
    split
    · exact RecvValid.mono h fun j hj => by simpa only [isSome_modify] using hj
    · exact h
  | reorder hconn =>
    refine RecvValid.mono h fun j hj => ?_
    rw [Map.lookup_reinsert hconn]
    exact hj

theorem receives_openConnection (h : m.Receives) (now : Nat) (id : ConnId) (addr : TunnelAddressPair)
    (appName : Bytes) (stream : Option Nat) : (m.openConnection now id addr appName stream).1.Receives := by
  have hmono : ∀ (c : Connection) j, (m.connections.lookup j).isSome →
      (AList.lookup j (m.connections.emplace id c)).isSome := by
    intro c j hj
    rw [Map.lookup_emplace_eq]
    split
    · rfl
    · exact hj
  unfold openConnection
  split
  · exact h
  split
  · exact h
  split
  · exact h
  all_goals exact RecvValid.mono h (hmono _)

theorem receives_data (h : m.Receives) {now : Nat} {d : Bytes} {o : List Output}
    (hp : m.processReadEvent now d = some (m', o)) : m'.Receives := by
  obtain ⟨r, o', hfeed, hvalid⟩ := recvLoop_total h d
  obtain ⟨hproj, hsame⟩ := processReadEvent_project (g := Output.asRead) (fun _ => rfl) (SameTable.refl m) now d
  rw [hp, hfeed] at hproj
  simp only [Option.map_some, Option.some.injEq, Prod.mk.injEq] at hproj
  unfold Receives
  rw [hproj.1]
  refine hvalid.mono fun id hid => ?_
  rw [(hsame m' o hp).isSome]
  exact hid

theorem receives_step (h : m.Receives) (c : Call) : (m.step c).1.Receives := by
  cases hc : plain c with
  | true => exact Changes.inv (fun _ _ => receives_change) h (changes_step m hc)
  | false =>
    cases c with
    | openConnection now id addr appName stream =>
      exact receives_openConnection h now id addr appName stream
    | response statusCode =>
      simp only [step, handleResponse]
      repeat' split
      all_goals exact ⟨h.idle, h.payload⟩
    | data now bytes =>
      simp only [step]
      split
      · cases hp : m.processReadEvent now bytes with
        | none => exact h
        | some p => exact receives_data h hp
      · exact h
    | close servErr => exact recvValid_empty _
    | _ => cases hc

end Mux
end TrustTunnel.Udp
