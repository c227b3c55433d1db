import TrustTunnel.Pipe.Endpoint

/-!
# Pipe.Input

What the peer sends: for every connection, the messages handed to the handler are those of the bytes
received on it, however these were cut into reads.
-/

namespace TrustTunnel.Pipe

open Lib PipeEndpoint List

/-! ## Encoded messages -/

open Wire

theorem nextMessage_composeMessage {m : Message} (h : m.data.length ≤ maxMessageSize) (e : Bytes) :
    framing.next (composeMessage m ++ e) = .item m e := by
  have hwhat : m.what.toNat < 4294967296 := m.what.toNat_lt
  have hsize : m.data.length < 4294967296 := by
    simp only [maxMessageSize] at h
    omega
  have hheader : ∃ r', getU32 (composeMessage m ++ e) = some (m.what.toNat, r') ∧
      getU32 r' = some (m.data.length, m.data ++ e) := by
    refine ⟨putU32 m.data.length ++ (m.data ++ e), ?_, getU32_putU32 hsize _⟩
    simpa only [composeMessage, append_assoc] using getU32_putU32 hwhat _
  have hnext := nextMessage_header hheader
  rw [if_neg (by omega), if_neg (by rw [length_append]; omega)] at hnext
  simpa [framing] using hnext

theorem nextMessage_oversize {what size : Nat} (hwhat : what < 4294967296)
    (hsize : size < 4294967296) (h : maxMessageSize < size) (e : Bytes) :
    framing.next (putU32 what ++ putU32 size ++ e) = .bad := by
  have hheader : ∃ r', getU32 (putU32 what ++ putU32 size ++ e) = some (what, r') ∧ getU32 r' = some (size, e) := by
    refine ⟨putU32 size ++ e, ?_, getU32_putU32 hsize e⟩
    exact getU32_putU32 hwhat _
  have hnext := nextMessage_header hheader
  rwa [if_pos h] at hnext

theorem drain_messages {msgs : List Message} (h : ∀ m ∈ msgs, m.data.length ≤ maxMessageSize) (e : Bytes) :
    framing.drain ((msgs.map composeMessage).flatten ++ e) = (framing.drain e).after msgs :=
  framing.drain_flatten (fun m hm e => nextMessage_composeMessage (h m hm) e) e

theorem drain_nil : framing.drain [] = ⟨[], true, []⟩ := rfl

theorem length_of_more {buf : Bytes} (h : framing.next buf = .more) : buf.length < inputBufSize := by
  by_contra hge
  have hlen : 8 ≤ buf.length := by
    simp only [inputBufSize] at hge
    omega
  obtain ⟨what, hwhat⟩ := getU32_some (b := buf) (by omega)
  obtain ⟨size, hsize⟩ := getU32_some (b := buf.drop 4) (by rw [length_drop]; omega)
  have hnext := nextMessage_header ⟨_, hwhat, hsize⟩
  rw [show nextMessage buf = .more from h] at hnext
  split at hnext
  · cases hnext
  next hmax =>
  split at hnext
  · next hshort =>
    simp only [length_drop] at hshort
    simp only [inputBufSize] at hge
    omega
  · cases hnext

/-! ## The outputs of one connection -/

def receivedOn (k : Nat) (o : List Out) : Bytes :=
  o.flatMap fun
    | .received c d => if c = k then d else []
    | _ => []

def handledOn (k : Nat) (o : List Out) : List Message :=
  o.filterMap fun
    | .handler c m => if c = k then some m else none
    | _ => none

@[simp] theorem receivedOn_append (k : Nat) (o o' : List Out) :
    receivedOn k (o ++ o') = receivedOn k o ++ receivedOn k o' := by simp [receivedOn]

@[simp] theorem handledOn_append (k : Nat) (o o' : List Out) :
    handledOn k (o ++ o') = handledOn k o ++ handledOn k o' := by simp [handledOn]

theorem handledOn_handlers (k c : Nat) (msgs : List Message) :
    handledOn k (msgs.map (Out.handler c)) = if c = k then msgs else [] := by
  by_cases h : c = k
  · simp [handledOn, h]
  · simp [handledOn, h]

def Out.aside : Out → Bool
  | .received .. | .handler .. | .oversize _ | .bufferFull _ => false
  | _ => true

attribute [local simp] Out.aside

theorem receivedOn_aside {k : Nat} {o : List Out} (h : ∀ x ∈ o, x.aside = true) : receivedOn k o = [] := by
  simp only [receivedOn, flatMap_eq_nil_iff]
  intro x hx
  have := h x hx
  cases x <;> simp_all

theorem handledOn_aside {k : Nat} {o : List Out} (h : ∀ x ∈ o, x.aside = true) : handledOn k o = [] := by
  simp only [handledOn, filterMap_eq_nil_iff]
  intro x hx
  have := h x hx
  cases x <;> simp_all

/-! ## The invariant -/

structure Reads (o : List Out) (s : PipeEndpoint) : Prop where
  items : ∀ k, (framing.drain (receivedOn k o)).items = handledOn k o
  failed : ∀ k, (framing.drain (receivedOn k o)).ok = false ↔ Out.oversize k ∈ o
  never_full : ∀ k, Out.bufferFull k ∉ o
  later : ∀ k, s.conn < k → receivedOn k o = []
  /-- what is left of the current connection is in the buffer -/
  current : s.connected = true → (framing.drain (receivedOn s.conn o)).ok = true ∧
    (framing.drain (receivedOn s.conn o)).rest = s.inputBuf
  empty : s.connected = false → s.pc ≠ .clear → s.pc ≠ .reset → s.inputBuf = []

namespace Reads

variable {o : List Out} {s t : PipeEndpoint}

theorem fresh (reconnects : Bool) : Reads [] (fresh reconnects) where
  items := by intro k; rfl
  failed := by intro k; simp [receivedOn, drain_nil]
  never_full := by intro k; simp
  later := by intro k _; rfl
  current := by intro h; cases h
  empty := by intro _ _ _; rfl

variable {outs : List Out}

section

variable (h : Reads o s) (ho : ∀ x ∈ outs, x.aside = true)
include h ho

theorem aside (hconn : s.conn ≤ t.conn) (hcur : t.connected = true →
      (s.conn = t.conn ∧ s.connected = true ∧ s.inputBuf = t.inputBuf) ∨ (s.conn < t.conn ∧ t.inputBuf = []))
    (hempty : t.connected = false → t.pc ≠ .clear → t.pc ≠ .reset → t.inputBuf = []) :
    Reads (o ++ outs) t where
  items := by
    intro k
    rw [receivedOn_append, handledOn_append, receivedOn_aside ho, handledOn_aside ho]
    simpa using h.items k
  failed := by
    intro k
    have hno : Out.oversize k ∉ outs := fun hmem => by simpa using ho _ hmem
    rw [receivedOn_append, receivedOn_aside ho, append_nil, mem_append]
    simpa [hno] using h.failed k
  never_full := by
    intro k hmem
    rcases mem_append.mp hmem with hmem | hmem
    · exact h.never_full k hmem
    · simpa using ho _ hmem
  later := by
    intro k hk
    rw [receivedOn_append, receivedOn_aside ho, append_nil]
    exact h.later k (by omega)
  current := by
    intro hc
    rw [receivedOn_append, receivedOn_aside ho, append_nil]
    rcases hcur hc with ⟨hsame, hup, hbuf⟩ | ⟨hnew, hbuf⟩
    · rw [← hsame, ← hbuf]
      exact h.current hup
    · rw [h.later _ hnew, hbuf]
      exact ⟨rfl, rfl⟩
  empty := hempty

theorem same (hflag : t.flag = s.flag) (hbuf : t.inputBuf = s.inputBuf)
    (hpc : s.connected = false → t.pc ≠ .clear → t.pc ≠ .reset → s.pc ≠ .clear ∧ s.pc ≠ .reset) :
    Reads (o ++ outs) t := by
  have hconn : t.conn = s.conn := by simp [conn, hflag]
  have hup : t.connected = s.connected := by simp [connected, hflag]
  refine h.aside ho (Nat.le_of_eq hconn.symm) ?_ ?_
  · intro hc
    exact .inl ⟨hconn.symm, hup ▸ hc, hbuf.symm⟩
  intro hc h1 h2
  obtain ⟨h1, h2⟩ := hpc (hup ▸ hc) h1 h2
  rw [hbuf]
  exact h.empty (hup ▸ hc) h1 h2

theorem disconnect : Reads (o ++ outs) s.disconnect :=
  h.aside ho (Nat.le_of_eq s.conn_store_false.symm) (fun hc => by simp [PipeEndpoint.disconnect] at hc)
    (fun _ hpc _ => absurd rfl hpc)

end

theorem closed (h : Reads o s) (hord : Ordered s) (hpc : s.pc = .reset) (ho : ∀ x ∈ outs, x.aside = true) :
    Reads (o ++ outs) s.closed := by
  have hdown : s.closed.connected = false := hord.down (.inr (.inr hpc))
  refine h.aside ho (Nat.le_refl _) ?_ fun _ _ _ => rfl
  intro hc
  rw [hdown] at hc
  cases hc

theorem arrived (h : Reads o s) (hc : s.connected = true) (d : Bytes) : framing.drain (receivedOn s.conn o ++ d) =
      (framing.drain (s.inputBuf ++ d)).after (handledOn s.conn o) := by
  obtain ⟨hok, hrest⟩ := h.current hc
  rw [framing.drain_append hok, hrest, h.items]

theorem receive (h : Reads o s) (hc : s.connected = true) (d : Bytes) {r : Drained Message UInt8}
    (hr : framing.drain (s.inputBuf ++ d) = r) (houts : outs = .received s.conn d :: (r.items.map (.handler s.conn) ++
      if r.ok then [] else [.oversize s.conn])) (hconn : t.conn = s.conn) (hup : t.connected = r.ok)
    (hbuf : t.inputBuf = r.rest) (hempty : t.connected = false → t.pc = .clear) : Reads (o ++ outs) t := by
  have hrecv : ∀ k, receivedOn k outs = if s.conn = k then d else [] := by
    rw [houts]
    cases r.ok <;> simp [receivedOn, flatMap_map]
  have hhand : ∀ k, handledOn k outs = if s.conn = k then r.items else [] := by
    intro k
    have hlist := handledOn_handlers k s.conn r.items
    rw [houts, ← hlist]
    cases r.ok <;> simp [handledOn]
  have hover : ∀ k, Out.oversize k ∈ outs ↔ s.conn = k ∧ r.ok = false := by
    rw [houts]
    cases r.ok with
    | true => simp
    | false => simp [eq_comm]
  have hall := h.arrived hc d
  rw [hr] at hall
  refine ⟨?_, ?_, ?_, ?_, ?_, ?_⟩
  · intro k
    rw [receivedOn_append, handledOn_append, hrecv, hhand]
    by_cases hk : s.conn = k
    · subst hk
      simp [hall, Drained.after]
    · simpa [hk] using h.items k
  · intro k
    rw [receivedOn_append, hrecv, mem_append, hover]
    by_cases hk : s.conn = k
    · subst hk
      have hnot : Out.oversize s.conn ∉ o := by
        rw [← h.failed s.conn, (h.current hc).1]
        simp
      simp [hall, Drained.after, hnot]
    · simpa [hk] using h.failed k
  · intro k hmem
    rcases mem_append.mp hmem with hmem | hmem
    · exact h.never_full k hmem
    · rw [houts] at hmem
      cases hok : r.ok <;> simp at hmem
  · intro k hk
    rw [receivedOn_append, hrecv, if_neg (by omega), append_nil]
    exact h.later k (by omega)
  · intro htc
    rw [hconn, receivedOn_append, hrecv, if_pos rfl, hall, hbuf]
    exact ⟨hup ▸ htc, rfl⟩
  · intro htc hpc
    exact absurd (hempty htc) hpc

attribute [local simp] setConnected prepareForConnect

theorem step_of_effect (h : Reads o s) (hord : Ordered s) {r : PipeEndpoint × List Out}
    (he : Effect s r) : Reads (o ++ r.2) r.1 := by
  cases he with
  | skip => exact h.same (by simp) rfl rfl fun _ h1 h2 => ⟨h1, h2⟩
  | send m seen hseen =>
    unfold PipeEndpoint.send
    split
    · exact h.same (by simp) rfl rfl fun _ h1 h2 => ⟨h1, h2⟩
    split
    · refine h.same ?_ rfl rfl fun _ h1 h2 => ⟨h1, h2⟩
      cases s.pendingWrites.head? <;> simp
    · exact h.same (by simp) rfl rfl fun _ h1 h2 => ⟨h1, h2⟩
  | move reading writing pc hr hpc | takeNone hr hq | take w ws hr hi hq =>
    exact h.same (by simp) rfl rfl fun _ _ _ => running_ne hr
  | drop reading hr =>
    exact Reads.disconnect ⟨h.items, h.failed, h.never_full, h.later, h.current, h.empty⟩ (by simp)
  | full hr hc hf =>
    obtain ⟨hok, hrest⟩ := h.current hc
    have hmore := framing.next_rest (receivedOn s.conn o)
    rw [hok, hrest] at hmore
    have := length_of_more hmore
    omega
  | prepare pc hpc hnext =>
    refine h.aside (by simp) (Nat.le_of_eq s.conn_store_false.symm) ?_ fun _ _ _ => rfl
    intro hc
    simp [connected, store, goto] at hc
  | connect hpc =>
    refine h.aside (by simp) ?_ ?_ ?_
    · simp [conn, store, goto]
    · simp [conn, store, goto]
    · intro hc
      simp at hc
  | finalize hr hc =>
    refine h.aside (by simp) ?_ ?_ ?_
    · simp
    · intro _
      refine .inr ⟨by simp, ?_⟩
      exact h.empty hc (running_ne hr).1 (running_ne hr).2
    · intro hc'
      simp at hc'
  | receive reading d pc hr hc hpc hok =>
    refine h.receive hc d rfl (by simp [hok]) rfl ?_ rfl ?_
    · rw [hok]
      exact hc
    · intro hdown
      exact absurd (hdown.symm.trans hc) (by simp)
  | oversize reading d hr hc hok =>
    exact h.receive hc d rfl (by simp [hok]) (by simp [PipeEndpoint.disconnect, conn, store, goto])
      (by simp [PipeEndpoint.disconnect, hok]) rfl fun _ => rfl
  | wrote writing pc w n hr hpc hw hn =>
    exact h.same (by simp) rfl rfl fun _ _ _ => running_ne hr
  | clear hpc =>
    refine h.same ?_ rfl rfl fun _ _ hne => absurd rfl hne
    simp [clearPending]
  | reset hpc hw => exact h.closed hord hpc (by simp)
  | resetIdle w hpc hw | resetCut w n hpc hw hn hpart | resetDone w n hpc hw hall =>
    exact h.closed hord hpc (by simp)

end Reads

theorem reads_run (reconnects : Bool) (es : List Call)
    (hk : (endpoint reconnects).Meets KernelOk (endpoint reconnects).init es) :
    Reads (raised reconnects es) (after reconnects es) :=
  effect_run reconnects es hk (Reads.fresh reconnects) Reads.step_of_effect

/-- For every run, on every connection: messages with payloads of at most `maxMessageSize` bytes,
encoded one after the other and cut into any reads that fit the buffer, are handled in order and
once each, and the buffer is never found full; a header that declares more ends the connection with
only the messages before it handled. -/
theorem messages_delivered (reconnects : Bool) (es : List Call)
    (hk : (endpoint reconnects).Meets KernelOk (endpoint reconnects).init es) (k : Nat) :
    (∀ msgs rest, (∀ m ∈ msgs, m.data.length ≤ maxMessageSize) →
      receivedOn k (raised reconnects es) ++ rest = (msgs.map composeMessage).flatten →
      handledOn k (raised reconnects es) <+: msgs ∧ (rest = [] → handledOn k (raised reconnects es) = msgs) ∧
        Out.bufferFull k ∉ raised reconnects es ∧ Out.oversize k ∉ raised reconnects es) ∧
    (∀ (msgs : List Message) (what size : UInt32) (rest : Bytes),
      (∀ m ∈ msgs, m.data.length ≤ maxMessageSize) → maxMessageSize < size.toNat →
      receivedOn k (raised reconnects es) =
        (msgs.map composeMessage).flatten ++ (putU32 what.toNat ++ putU32 size.toNat ++ rest) →
      handledOn k (raised reconnects es) = msgs ∧ Out.oversize k ∈ raised reconnects es ∧
        ((after reconnects es).conn = k → (after reconnects es).connected = false)) := by
  have hinv := reads_run reconnects es hk
  generalize raised reconnects es = o at hinv
  constructor
  · intro msgs rest hmsgs hall
    have hdrain := drain_messages hmsgs []
    rw [append_nil, drain_nil, ← hall] at hdrain
    have hok : (framing.drain (receivedOn k o)).ok = true := by
      by_contra hbad
      have hbad : (framing.drain (receivedOn k o)).ok = false := by simpa using hbad
      rw [framing.drain_append_failed hbad] at hdrain
      simp [Drained.after] at hdrain
    have hno : Out.oversize k ∉ o := by
      rw [← hinv.failed k, hok]
      simp
    have hitems : handledOn k o ++ (framing.drain ((framing.drain (receivedOn k o)).rest ++ rest)).items = msgs := by
      rw [framing.drain_append hok] at hdrain
      simpa [Drained.after, hinv.items k] using congrArg Drained.items hdrain
    refine ⟨⟨_, hitems⟩, ?_, hinv.never_full k, hno⟩
    intro hrest
    rw [hrest] at hdrain
    simpa [Drained.after, hinv.items k] using congrArg Drained.items hdrain
  · intro msgs what size rest hmsgs hsize hall
    have hbad := nextMessage_oversize what.toNat_lt size.toNat_lt hsize rest
    have hdrain := drain_messages hmsgs (putU32 what.toNat ++ putU32 size.toNat ++ rest)
    rw [← hall, framing.drain_bad hbad] at hdrain
    have hok : (framing.drain (receivedOn k o)).ok = false := congrArg Drained.ok hdrain
    refine ⟨?_, (hinv.failed k).mp hok, ?_⟩
    · rw [← hinv.items k, hdrain]
      simp [Drained.after]
    intro hconn
    by_contra hup
    have := (hinv.current (by simpa using hup)).1
    rw [hconn, hok] at this
    cases this

def twoMessages : List Message := [⟨1, [7, 8]⟩, ⟨2, []⟩]

def threeReads : List Call :=
  [.startConnect .connected, .wait .wake, .startRead (.ok [0, 0, 0, 1, 0]), .pumpWrites (.ok 0), .wait .wake,
    .startRead .pending, .pumpWrites (.ok 0), .wait (.io true (some [0, 0, 2, 7, 8, 0, 0])),
    .startRead (.ok [0, 2, 0, 0, 0, 0])]

theorem messages_delivered_cut : (endpoint true).Meets KernelOk (endpoint true).init threeReads ∧
      handledOn 1 (raised true threeReads) = twoMessages := by
  have hk : (endpoint true).Meets KernelOk (endpoint true).init threeReads := by decide +kernel
  have hbytes : receivedOn 1 (raised true threeReads) ++ [] =
      (twoMessages.map composeMessage).flatten := by decide +kernel
  have hsize : ∀ m ∈ twoMessages, m.data.length ≤ maxMessageSize := by decide +kernel
  exact ⟨hk, ((messages_delivered true threeReads hk 1).1 twoMessages [] hsize hbytes).2.1 rfl⟩

end TrustTunnel.Pipe
