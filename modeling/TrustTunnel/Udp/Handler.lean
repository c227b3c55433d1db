import TrustTunnel.Udp.Framing

/-!
# Udp.Handler

`process_read_event` under a handler that acts on what it is told. Inside `SERVER_EVENT_READ` it may
close the connection the packet is for or any other, open new ones, send, or end the stream; the
receiver is reset when it returns. Between two chunks the same calls are made from outside.
-/

namespace TrustTunnel.Udp

open Lib

namespace Mux

def isData : Call → Bool
  | .data .. => true
  | _ => false

def act (calls : List Call) (m : Mux) : Part :=
  forEach (fun c m => if isData c then (m, []) else m.step c) calls m

/-- The pass, and what the handler does if it raised the event: the calls that it makes then are the
first of those given. -/
def handledPass (now : Nat) (s : Mux × List (List Call)) (data : Bytes) :
    Option ((Mux × List (List Call)) × List Output × Bytes) :=
  (s.1.readPass now data).map fun p =>
    match reads p.2.1 with
    | [] => ((p.1, s.2), p.2)
    | (id, buffer) :: _ =>
      -- the receiver still has the packet, and forgets it afterwards whatever was done
      let q := act (s.2.headD []) { p.1 with recv := ⟨.payload, id, 0, buffer⟩ }
      (({ q.1 with recv := .empty }, s.2.tail), p.2.1 ++ q.2, p.2.2)

def handledLoop (now : Nat) : ReadLoop (Mux × List (List Call)) UInt8 Output :=
  ⟨handledPass now, fun s => rank s.1.recv, 1, fun s => rank_le s.1.recv, by
    intro s d s' o rest hd h
    obtain ⟨⟨m', o', rest'⟩, hp, heq⟩ := Option.map_eq_some_iff.mp h
    have hprogress := (readLoop now).progress s.1 d m' o' rest' hd hp
    have hempty : rank .empty = 0 := rfl
    dsimp only at heq
    split at heq
    · cases heq
      exact hprogress
    · cases heq
      exact hprogress.imp_right fun ⟨hlen, hrank⟩ => ⟨hlen, Nat.lt_of_le_of_lt (Nat.zero_le _) hrank⟩⟩

def processHandled (m : Mux) (now : Nat) (data : Bytes) (reactions : List (List Call)) : Option Part :=
  ((handledLoop now).feed (m, reactions) data).map fun p => (p.1.1, p.2 ++ [.consumed data.length])

def declared (header : Bytes) : Option Nat := (Wire.getU32 header).map fun p => p.1 - 36

/-- The last bytes that were read as a prefix, those before the outputs `o` being `header`. -/
def lastHeader (header : Option Bytes) (o : List Output) : Option Bytes := (headers o).getLast?.or header

variable {m m' : Mux} {header : Option Bytes} {r r' : RecvConnection}

/-- The receiver waits for what is left of the declared payload. -/
def Expecting (header : Option Bytes) (r : RecvConnection) : Prop :=
  r.state = .payload → ∃ h, header = some h ∧ declared h = some (r.bytesLeft + r.buffer.length)

theorem expecting_of_ne (h : r.state ≠ .payload) : Expecting header r := fun hs => absurd hs h

theorem expecting_afterPrefix {b : Bytes} (hb : b.length = udppktInPrefixSize) {info : PacketInfo}
    (hinfo : m.readPrefix b = some info) (r : RecvConnection) : Expecting (some b) (m.afterPrefix r info) := by
  obtain ⟨length, pair, hlength, heq⟩ := readPrefix_eq m hb
  cases hinfo.symm.trans heq
  by_cases hbad : length < 36 ∨ maxUdpInPacketLength < length
  · simp [hbad, Expecting, afterPrefix, dropPacket]
  rw [if_neg hbad]
  unfold afterPrefix
  split
  · exact fun hs => by cases hs
  · exact fun _ => ⟨b, rfl, by rw [declared, hlength]; rfl⟩

theorem expecting_pass (hv : m.RecvValid r) (he : Expecting header r) {d rest : Bytes} {o : List Output}
    (hp : m.recvPass r d = some (r', o, rest)) : Expecting (lastHeader header o) r' := by
  cases hs : r.state with
  | idle =>
    have hbuf := hv.idle hs
    by_cases hfull : udppktInPrefixSize ≤ r.buffer.length + d.length
    · have hlen : (r.buffer ++ d.take (udppktInPrefixSize - r.buffer.length)).length = udppktInPrefixSize := by
        simp only [List.length_append, List.length_take]
        omega
      obtain ⟨length, pair, -, hinfo⟩ := readPrefix_eq m hlen
      rw [recvPass_idle_full hs hbuf hfull, hinfo] at hp
      cases hp
      exact expecting_afterPrefix hlen hinfo r
    · rw [recvPass_idle_part hs (Nat.not_le.mp hfull)] at hp
      cases hp
      exact expecting_of_ne (by rw [hs]; decide)
  | payload =>
    have hc := hv.payload hs
    by_cases hfull : r.bytesLeft ≤ d.length
    · rw [recvPass_payload_full hs hc hfull] at hp
      cases hp
      exact expecting_of_ne (by decide)
    rw [recvPass_payload_part hs hc (Nat.not_le.mp hfull)] at hp
    cases hp
    obtain ⟨h, hh, hlength⟩ := he hs
    refine fun _ => ⟨h, hh, ?_⟩
    rw [hlength, List.length_append]
    exact congrArg some (by dsimp only; omega)
  | dropping =>
    by_cases hfull : r.bytesLeft ≤ d.length
    · rw [recvPass_dropping_full hs hfull] at hp
      cases hp
      exact expecting_of_ne (by decide)
    · rw [recvPass_dropping_part hs (Nat.not_le.mp hfull)] at hp
      cases hp
      exact expecting_of_ne (by rw [hs]; decide)

/-! ## Runs -/

/-- The multiplexer, and the last bytes that were read as a prefix. -/
structure Served where
  mux : Mux
  header : Option Bytes

inductive Event where
  | call (c : Call)
  /-- bytes of the stream; the calls that the handler makes in each of the events they cause -/
  | read (now : Nat) (bytes : Bytes) (reactions : List (List Call))

def serve (s : Served) : Event → Served × List Output
  | .call c =>
    if isData c then (s, []) else ({ s with mux := (s.mux.step c).1 }, (s.mux.step c).2)
  | .read now bytes reactions =>
    if s.mux.state = .established then
      match s.mux.processHandled now bytes reactions with
      | some (m, o) => (⟨m, lastHeader s.header o⟩, o)
      | none => (s, [.assertFailed])
    else (s, [])

def served : System Served Event Output := ⟨⟨init, none⟩, serve⟩

structure Serving (header : Option Bytes) (m : Mux) : Prop where
  receives : m.Receives
  expecting : Expecting header m.recv

theorem serving_empty (m : Mux) (header : Option Bytes) : Serving header { m with recv := .empty } :=
  ⟨recvValid_empty _, fun hs => by cases hs⟩

theorem lastHeader_append (o o' : List Output) : lastHeader header (o ++ o') = lastHeader (lastHeader header o) o' := by
  simp [lastHeader, headers, List.filterMap_append, List.getLast?_append, Option.or_assoc]

theorem serving_pass (h : Serving header m) (now : Nat) (d : Bytes) (later : List (List Call)) :
    ∃ s o rest, handledPass now (m, later) d = some (s, o, rest) ∧ Serving (lastHeader header o) s.1 := by
  obtain ⟨r, o, rest, hp, hr⟩ := recvPass_valid h.receives
  have hpass : m.readPass now d = some ({ m.touch now with recv := r }, o, rest) := by
    rw [readPass, hp]
    rfl
  have htouch : Serving (lastHeader header o) { m.touch now with recv := r } := by
    refine ⟨hr.mono fun id hid => ?_, expecting_pass h.receives h.expecting hp⟩
    rw [((SameTable.refl m).touch now r).isSome]
    exact hid
  unfold handledPass
  rw [hpass, Option.map_some]
  split
  · exact ⟨_, _, _, rfl, htouch⟩
  · exact ⟨_, _, _, rfl, serving_empty _ _⟩

theorem processHandled_serving (h : Serving header m) (now : Nat) (d : Bytes) (reactions : List (List Call)) :
    ∃ m' o, m.processHandled now d reactions = some (m', o) ∧ Serving (lastHeader header o) m' := by
  obtain ⟨s, o, hfeed, hs⟩ := (handledLoop now).feed_inv (J := fun o s => Serving (lastHeader header o) s.1)
    (fun o s d hs _ => by
      obtain ⟨s', o', rest, hp, hs'⟩ := serving_pass hs now d s.2
      exact ⟨s', o', rest, hp, by rw [lastHeader_append]; exact hs'⟩) [] (m, reactions) d h
  refine ⟨s.1, o ++ [.consumed d.length], by rw [processHandled, hfeed]; rfl, ?_⟩
  rw [lastHeader_append]
  exact hs

theorem serving_change (h : Serving header m) (hc : Change m m') : Serving header m' := by
  refine ⟨receives_change h.receives hc, ?_⟩
  cases hc with
  | edit | reorder => exact h.expecting
  | clean id =>
    unfold cleanConnectionData
    split
    · exact h.expecting
    · split
      · exact fun hs => by cases hs
      · exact h.expecting
  | complete id =>
    unfold completeUdpConnection
    split <;> exact h.expecting

theorem serving_step (h : Serving header m) {c : Call} (hc : isData c = false) : Serving header (m.step c).1 := by
  cases hplain : plain c with
  | true => exact Changes.inv (fun _ _ => serving_change) h (changes_step m hplain)
  | false =>
    refine ⟨receives_step h.receives c, ?_⟩
    cases c with
    | openConnection now id addr appName stream =>
      simp only [step, openConnection]
      repeat' split
      all_goals exact h.expecting
    | response statusCode =>
      simp only [step, handleResponse]
      repeat' split
      all_goals exact h.expecting
    | close servErr => exact fun hs => by cases hs
    | data => cases hc
    | _ => cases hplain

theorem serving_serve {s : Served} (h : Serving s.header s.mux) (e : Event) :
    Serving (serve s e).1.header (serve s e).1.mux := by
  cases e with
  | call c =>
    simp only [serve]
    split
    · exact h
    · exact serving_step h (Bool.eq_false_iff.mpr ‹_›)
  | read now bytes reactions =>
    obtain ⟨m', o, hp, h'⟩ := processHandled_serving h now bytes reactions
    simp only [serve, hp]
    split
    · exact h'
    · exact h

/-- In every state of a run: the connection whose payload is awaited is there, what is buffered and
what is still to come are what its packet declared, and reading on does not fail. -/
theorem payload_run (events : List Event) : ((served.exec ⟨init, none⟩ events).mux.recv.state = .payload →
      ((served.exec ⟨init, none⟩ events).mux.connections.lookup
        (served.exec ⟨init, none⟩ events).mux.recv.id).isSome ∧
      ∃ header, (served.exec ⟨init, none⟩ events).header = some header ∧
        declared header = some ((served.exec ⟨init, none⟩ events).mux.recv.bytesLeft +
          (served.exec ⟨init, none⟩ events).mux.recv.buffer.length)) ∧
    ∀ now bytes reactions, ((served.exec ⟨init, none⟩ events).mux.processHandled now bytes reactions).isSome := by
  have hrun : Serving (served.exec ⟨init, none⟩ events).header (served.exec ⟨init, none⟩ events).mux :=
    served.inv_exec (I := fun s => Serving s.header s.mux) (serving_empty init none)
      (fun s e h => serving_serve h e) events
  refine ⟨fun hs => ⟨hrun.receives.payload hs, hrun.expecting hs⟩, fun now bytes reactions => ?_⟩
  obtain ⟨m', o, hp, -⟩ := processHandled_serving hrun now bytes reactions
  rw [hp]
  rfl

end Mux
end TrustTunnel.Udp
