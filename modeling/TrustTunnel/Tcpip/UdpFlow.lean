import TrustTunnel.Tcpip.UdpCm

/-!
# Tcpip.UdpFlow

What the owner reads of a UDP connection. `digest id` is what a log says about the connection `id`: the
payloads that are due (queued before the decision or come after it, in the order of arrival), those that
were read, the decision, whether every answer was a good one, and whether the connection was closed.

`Flow` is the invariant: payloads that were read, followed by those that the code holds for the
connection, are the payloads that are due, which are those that the calls brought for it (`arrived`).
Packets that are put in again are outside of the descriptor; `rest` says which.
-/

namespace TrustTunnel.Tcpip.UdpCm

open Lib Lib.Act List

/-! ## What a log says about a connection -/

def Out.idOf : Out → ConnId
  | .came id _ => id
  | .queued id _ => id
  | .overflowed id _ => id
  | .rejected id _ => id
  | .destUnreach id _ => id
  | .connectRequest id _ => id
  | .decided id _ => id
  | .accepted id _ => id
  | .read id _ _ => id
  | .dataSent id _ => id
  | .closed id => id

structure Digest where
  due : List Bytes := []
  reads : List Bytes := []
  decision : Option TcpipAction := none
  /-- no answer was negative, and none came with a close from inside the event -/
  fine : Bool := true
  closed : Bool := false

def ReadAnswer.good (a : ReadAnswer) : Bool := !a.closes && 0 ≤ a.result

def Digest.add (g : Digest) : Out → Digest
  | .came _ d => { g with due := g.due ++ [d.payload] }
  | .queued _ d => { g with due := g.due ++ [d.payload] }
  | .decided _ action => { g with decision := some action }
  | .accepted _ closes => { g with fine := g.fine && !closes }
  | .read _ payload answer => { g with reads := g.reads ++ [payload], fine := g.fine && answer.good }
  | .closed _ => { g with closed := true }
  | _ => g

variable {g : Digest} (id : ConnId) (n : Nat)

def digest (l : List Out) : Digest :=
  l.foldl (fun g o => if o.idOf = id then g.add o else g) {}

theorem digest_snoc (l : List Out) (o : Out) :
    digest id (l ++ [o]) = if o.idOf = id then (digest id l).add o else digest id l := by
  rw [digest, foldl_append]
  rfl

/-- The payload that is due from an event on. -/
def Out.brings : Out → List Bytes
  | .came _ d => [d.payload]
  | .queued _ d => [d.payload]
  | _ => []

theorem due_snoc (l : List Out) (o : Out) :
    (digest id (l ++ [o])).due = (digest id l).due ++ if o.idOf = id then o.brings else [] := by
  rw [digest_snoc]
  split
  · cases o <;> simp [Digest.add, Out.brings]
  · simp

/-- The order of events. Datagrams are queued before the decision, of which there is one. Nothing is
read unless the decision was to forward, all answers so far were good ones, and the connection was not
closed. -/
def Orderly (l : List Out) : Out → Prop
  | .queued id _ => (digest id l).decision = none ∧ (digest id l).closed = false
  | .came id _ => (digest id l).decision = some .bypass ∧ (digest id l).closed = false
  | .decided id _ => (digest id l).decision = none ∧ (digest id l).closed = false
  | .read id _ _ => (digest id l).decision = some .bypass ∧ (digest id l).fine = true ∧
      (digest id l).closed = false
  | _ => True

/-! ## The invariant -/

/-- A connection that is gone: what was read is a beginning of what was due, and all of it if it was
forwarded and every answer was a good one. -/
structure Settled (g : Digest) : Prop where
  reads : g.reads <+: g.due
  all : g.decision = some .bypass → g.fine = true → g.reads = g.due

open Datagram

/-- A connection that is there, with the packets held outside of its descriptor. -/
def Live (g : Digest) (packets : List Datagram) (c : UdpConnDescriptor) : Prop :=
  match c.state with
  | .idle => False
  | .requested => g.decision = none ∧ g.fine = true ∧ g.reads = [] ∧
      g.due = c.pendingPackets.map payload ∧
      c.pendingPacketsBytes = (c.pendingPackets.map totLen).sum ∧
      c.pendingPacketsBytes ≤ sndQueueLimit
  | .confirmed => g.decision = some .bypass ∧ g.fine = true ∧
      g.reads ++ packets.map payload = g.due
  | .rejected => g.decision ≠ some .bypass ∧ g.reads = []
  | .unreachable => g.decision ≠ some .bypass ∧ g.reads = []

/-- The owner closes nothing from inside `ACCEPTED`, and from inside `READ` only with a negative result. -/
def Owner.Gentle (o : Owner) : Prop :=
  o.closesAccepted = false ∧ ∀ a ∈ o.onRead, a.closes = true → a.result < 0

instance (o : Owner) : Decidable o.Gentle := inferInstanceAs (Decidable (_ ∧ _))

/-- What the calls have brought: whether every owner is gentle, and the payloads for each connection. -/
structure Given where
  gentle : Prop
  due : ConnId → List Bytes

def Given.plus (G : Given) (o : Out) : Given :=
  { G with due := fun id => G.due id ++ if o.idOf = id then o.brings else [] }

/-- The packet is for the connection and is taken: the first one and those before the decision if they fit
into the queue, and all that come once the connection is forwarded. -/
def UdpCtx.admits (s : UdpCtx) (addr : AddressPair) (d : Datagram) (id : ConnId) : Bool :=
  match s.byAddr.lookup addr with
  | none => id == s.nextId && d.totLen ≤ sndQueueLimit
  | some j => id == j && (s.byId.lookup j).any fun c =>
      c.state = .confirmed || c.state = .requested && c.pendingPacketsBytes + d.totLen ≤ sndQueueLimit

def Given.packet (G : Given) (s : UdpCtx) (addr : AddressPair) (d : Datagram) : Given :=
  { G with due := fun id => G.due id ++ if s.admits addr d id then [d.payload] else [] }

structure Flow (G : Given) (l : List Out) (s : UdpCtx) (rest : ConnId → List Datagram) : Prop where
  each : Each Orderly l
  gentle : G.gentle → s.owner.Gentle
  due : ∀ id, (digest id l).due = G.due id
  byAddr : ∀ addr id, s.byAddr.lookup addr = some id → ∃ c, s.byId.lookup id = some c ∧ c.addr = addr
  byId : ∀ id c, s.byId.lookup id = some c → s.byAddr.lookup c.addr = some id
  fresh : ∀ id c, s.byId.lookup id = some c → id < s.nextId
  unknown : ∀ id, s.nextId ≤ id → digest id l = {}
  gone : ∀ id, s.byId.lookup id = none → Settled (digest id l)
  live : ∀ id c, s.byId.lookup id = some c → (digest id l).closed = false ∧ Live (digest id l) (rest id) c

abbrev Calm (G : Given) (l : List Out) (s : UdpCtx) : Prop := Flow G l s fun _ => []

abbrev holding (packets : List Datagram) : ConnId → List Datagram :=
  Function.update (fun _ => []) id packets

theorem holding_nil : holding id [] = fun _ => [] := Function.update_eq_self id _

theorem holding_other (ds ds' : List Datagram) {id j : ConnId} (h : j ≠ id) : holding id ds j = holding id ds' j := by
  rw [holding, holding, Function.update_of_ne h, Function.update_of_ne h]

theorem Live.settled {c : UdpConnDescriptor} (h : Live g [] c) : Settled g := by
  unfold Live at h
  split at h
  · exact h.elim
  · obtain ⟨hd, -, hr, -⟩ := h
    refine ⟨?_, fun hb => ?_⟩
    · rw [hr]
      exact List.nil_prefix
    · rw [hd] at hb
      cases hb
  · obtain ⟨-, -, heq⟩ := h
    rw [map_nil, append_nil] at heq
    exact ⟨heq ▸ List.prefix_refl _, fun _ _ => heq⟩
  all_goals exact ⟨by rw [h.2]; exact List.nil_prefix, fun hb => absurd hb h.1⟩

section Changes

variable {G : Given} {l l' : List Out} {s s' : UdpCtx} {rest rest' : ConnId → List Datagram} {id : ConnId}
  {c c' : UdpConnDescriptor} {o : Out}

theorem digest_other (l : List Out) (o : Out) {j : ConnId} (h : j ≠ o.idOf) : digest j (l ++ [o]) = digest j l := by
  rw [digest_snoc, if_neg (Ne.symm h)]

theorem digest_self (id : ConnId) (l : List Out) (o : Out) (h : o.idOf = id) :
    digest id (l ++ [o]) = (digest id l).add o := by
  rw [digest_snoc, if_pos h]

theorem Flow.ne_of_le (h : Flow G l s rest) (hc : s.byId.lookup id = some c) {j : ConnId}
    (hj : s.nextId ≤ j) : j ≠ id :=
  fun heq => absurd (h.fresh id c hc) (by rw [← heq]; exact Nat.not_lt.mpr hj)

theorem Flow.due_plus (h : Flow G l s rest) (o : Out) (j : ConnId) : (digest j (l ++ [o])).due = (G.plus o).due j := by
  rw [due_snoc, h.due j]
  rfl

theorem Flow.due_quiet (h : Flow G l s rest) (hquiet : o.brings = []) (j : ConnId) :
    (digest j (l ++ [o])).due = G.due j := by
  rw [due_snoc, h.due j, hquiet, ite_self, append_nil]

theorem Flow.put {G' : Given} (h : Flow G l s rest) (hc : s.byId.lookup id = some c) (heach : Each Orderly l')
    (hother : ∀ j, j ≠ id → digest j l' = digest j l)
    (hlookup : ∀ j, s'.byId.lookup j = if j = id then some c' else s.byId.lookup j)
    (hsame : s'.byAddr = s.byAddr ∧ s'.nextId = s.nextId ∧ s'.owner = s.owner) (haddr : c'.addr = c.addr)
    (hrest : ∀ j, j ≠ id → rest' j = rest j) (hclosed : (digest id l').closed = false)
    (hgentle : G'.gentle = G.gentle) (hdue : ∀ j, (digest j l').due = G'.due j)
    (hlive : Live (digest id l') (rest' id) c') : Flow G' l' s' rest' := by
  obtain ⟨hbyAddr, hnext, howner⟩ := hsame
  refine ⟨heach, fun hG => howner ▸ h.gentle (hgentle ▸ hG),
    hdue, fun addr j hj => ?_, fun j d hd => ?_, fun j d hd => ?_,
    fun j hj => ?_, fun j hj => ?_, fun j d hd => ?_⟩
  · rw [hbyAddr] at hj
    obtain ⟨d, hd, haddr'⟩ := h.byAddr addr j hj
    rw [hlookup]
    split_ifs with heq
    · rw [heq, hc] at hd
      cases hd
      exact ⟨c', rfl, haddr.trans haddr'⟩
    · exact ⟨d, hd, haddr'⟩
  · rw [hlookup] at hd
    rw [hbyAddr]
    split_ifs at hd with heq
    · cases hd
      rw [heq, haddr]
      exact h.byId id c hc
    · exact h.byId j d hd
  · rw [hlookup] at hd
    rw [hnext]
    split_ifs at hd with heq
    · rw [heq]
      exact h.fresh id c hc
    · exact h.fresh j d hd
  · rw [hnext] at hj
    rw [hother j (h.ne_of_le hc hj)]
    exact h.unknown j hj
  · rw [hlookup] at hj
    split at hj
    · cases hj
    · rename_i hne
      rw [hother j hne]
      exact h.gone j hj
  · rw [hlookup] at hd
    split_ifs at hd with heq
    · cases hd
      rw [heq]
      exact ⟨hclosed, hlive⟩
    · rw [hother j heq, hrest j heq]
      exact h.live j d hd

theorem Flow.raise (h : Flow G l s rest) (hid : o.idOf = id) (hquiet : o.brings = [])
    (hc : s.byId.lookup id = some c) (ho : Orderly l o) (hrest : ∀ j, j ≠ id → rest' j = rest j)
    (hclosed : ((digest id l).add o).closed = false)
    (hlive : Live ((digest id l).add o) (rest' id) c) : Flow G (l ++ [o]) s rest' := by
  rw [← digest_self id l o hid] at hclosed hlive
  refine h.put hc (h.each.snoc ho) (fun j hj => digest_other l o (hid ▸ hj)) (fun j => ?_)
    ⟨rfl, rfl, rfl⟩ rfl hrest hclosed rfl (h.due_quiet hquiet) hlive
  split_ifs with heq
  · rw [heq, hc]
  · rfl

theorem lookup_set (hc : s.byId.lookup id = some c) (f : UdpConnDescriptor → UdpConnDescriptor)
    (j : ConnId) : (s.set id f).byId.lookup j = if j = id then some (f c) else s.byId.lookup j := by
  rw [UdpCtx.set, Map.lookup_modify_eq, hc]
  rfl

theorem lookup_set_self (hc : s.byId.lookup id = some c) (f : UdpConnDescriptor → UdpConnDescriptor) :
    (s.set id f).byId.lookup id = some (f c) := by
  rw [lookup_set hc, if_pos rfl]

theorem lookup_set_again (h : ∀ j, s'.byId.lookup j = if j = id then some c' else s.byId.lookup j)
    (f : UdpConnDescriptor → UdpConnDescriptor) (j : ConnId) :
    (s'.set id f).byId.lookup j = if j = id then some (f c') else s.byId.lookup j := by
  rw [lookup_set ((h id).trans (if_pos rfl))]
  split_ifs with hne
  · rfl
  · rw [h j, if_neg hne]

section

variable (h : Flow G l s rest) (hc : s.byId.lookup id = some c)
include h hc

theorem Flow.set {f : UdpConnDescriptor → UdpConnDescriptor} (haddr : (f c).addr = c.addr)
    (hlive : Live (digest id l) (rest id) (f c)) : Flow G l (s.set id f) rest :=
  h.put hc h.each (fun _ _ => rfl) (lookup_set hc f) ⟨rfl, rfl, rfl⟩ haddr (fun _ _ => rfl) (h.live id c hc).1 rfl
    h.due hlive

theorem Flow.refreshed (t : Nat) : Flow G l (s.set id fun c => { c with connTimeout := t }) rest :=
  h.set hc rfl (h.live id c hc).2

theorem Flow.drop (heach : Each Orderly l') (hother : ∀ j, j ≠ id → digest j l' = digest j l)
    (hdue : ∀ j, (digest j l').due = G.due j) (hsettled : Settled (digest id l')) (hrest : ∀ j, j ≠ id →
      rest' j = rest j) :
    Flow G l' { s with byId := s.byId.erase id, byAddr := s.byAddr.erase c.addr } rest' := by
  refine ⟨heach, h.gentle, hdue, fun addr j hj => ?_, fun j d hd => ?_, fun j d hd => ?_, fun j hj => ?_,
    fun j hj => ?_, fun j d hd => ?_⟩
  · simp only [Map.lookup_erase_eq] at hj ⊢
    split at hj
    · cases hj
    rename_i hne
    obtain ⟨d, hd, haddr⟩ := h.byAddr addr j hj
    refine ⟨d, ?_, haddr⟩
    rw [if_neg fun heq => ?_]
    · exact hd
    · rw [heq, hc] at hd
      cases hd
      exact hne haddr.symm
  · simp only [Map.lookup_erase_eq] at hd ⊢
    split at hd
    · cases hd
    rename_i hne
    have hd' := h.byId j d hd
    rw [if_neg fun heq => ?_]
    · exact hd'
    · rw [heq, h.byId id c hc] at hd'
      cases hd'
      exact hne rfl
  · simp only [Map.lookup_erase_eq] at hd
    split at hd
    · cases hd
    · exact h.fresh j d hd
  · rw [hother j (h.ne_of_le hc hj)]
    exact h.unknown j hj
  · by_cases heq : j = id
    · rw [heq]
      exact hsettled
    · rw [hother j heq]
      simp only [Map.lookup_erase_eq, if_neg heq] at hj
      exact h.gone j hj
  · simp only [Map.lookup_erase_eq] at hd
    split at hd
    · cases hd
    · rename_i hne
      rw [hother j hne, hrest j hne]
      exact h.live j d hd

theorem Flow.close (hsettled : Settled (digest id l)) : Flow G (l ++ [.closed id])
      { s with byId := s.byId.erase id, byAddr := s.byAddr.erase c.addr } rest := by
  refine h.drop hc (h.each.snoc trivial) (fun j hj => digest_other l (.closed id) hj) (h.due_quiet rfl) ?_
    fun _ _ => rfl
  rw [digest_self id l (.closed id) rfl]
  exact ⟨hsettled.reads, hsettled.all⟩

end

theorem Flow.spoil {ds : List Datagram} (h : Flow G l s (holding id ds)) (hid : o.idOf = id)
    (hquiet : o.brings = []) (hc : s.byId.lookup id = some c) (ho : Orderly l o)
    (hreads : ((digest id l).add o).reads <+: ((digest id l).add o).due) (hfine : ((digest id l).add o).fine = false) :
    Calm G (l ++ [o] ++ [.closed id]) { s with byId := s.byId.erase id, byAddr := s.byAddr.erase c.addr } := by
  refine h.drop hc ((h.each.snoc ho).snoc trivial) (fun j hj => ?_) (fun j => ?_) ?_ (fun j hj => ?_)
  · rw [digest_other _ (.closed id) hj, digest_other l o (hid ▸ hj)]
  · rw [due_snoc, h.due_quiet hquiet]
    simp [Out.brings]
  · rw [digest_self id _ (.closed id) rfl, digest_self id l o hid]
    refine ⟨hreads, fun _ hfine' => ?_⟩
    have hfine'' : ((digest id l).add o).fine = true := hfine'
    rw [hfine] at hfine''
    cases hfine''
  · rw [holding, Function.update_of_ne hj]

theorem Flow.arrive {G' : Given} {addr : AddressPair} (h : Calm G l s) (hnone : s.byAddr.lookup addr = none)
    (heach : Each Orderly l') (hother : ∀ j, j ≠ s.nextId → digest j l' = digest j l)
    (hlookup : ∀ j, s'.byId.lookup j = if j = s.nextId then some c' else s.byId.lookup j)
    (hbyAddr : ∀ a, s'.byAddr.lookup a = if a = addr then some s.nextId else s.byAddr.lookup a)
    (hnext : s'.nextId = s.nextId + 1) (howner : s'.owner = s.owner) (haddr : c'.addr = addr)
    (hclosed : (digest s.nextId l').closed = false) (hgentle : G'.gentle = G.gentle)
    (hdue : ∀ j, (digest j l').due = G'.due j) (hlive : Live (digest s.nextId l') [] c') : Calm G' l' s' := by
  refine ⟨heach, fun hG => howner ▸ h.gentle (hgentle ▸ hG),
    hdue, fun a j hj => ?_, fun j d hd => ?_, fun j d hd => ?_,
    fun j hj => ?_, fun j hj => ?_, fun j d hd => ?_⟩
  · rw [hbyAddr] at hj
    rw [hlookup]
    split_ifs at hj with heq
    · cases hj
      exact ⟨c', if_pos rfl, haddr.trans heq.symm⟩
    · obtain ⟨d, hd, ha⟩ := h.byAddr a j hj
      exact ⟨d, by rw [if_neg (Nat.ne_of_lt (h.fresh j d hd))]; exact hd, ha⟩
  · rw [hlookup] at hd
    rw [hbyAddr]
    split_ifs at hd with heq
    · cases hd
      rw [if_pos haddr, heq]
    have hd' := h.byId j d hd
    rw [if_neg fun heq => ?_]
    · exact hd'
    · rw [heq, hnone] at hd'
      cases hd'
  · rw [hlookup] at hd
    rw [hnext]
    split_ifs at hd with heq
    · rw [heq]
      exact Nat.lt_succ_self _
    · exact Nat.lt_succ_of_lt (h.fresh j d hd)
  · rw [hnext] at hj
    rw [hother j (Nat.ne_of_gt hj)]
    exact h.unknown j (Nat.le_of_succ_le hj)
  · rw [hlookup] at hj
    split at hj
    · cases hj
    · rename_i hne
      rw [hother j hne]
      exact h.gone j hj
  · rw [hlookup] at hd
    split_ifs at hd with heq
    · cases hd
      rw [heq]
      exact ⟨hclosed, hlive⟩
    · rw [hother j heq]
      exact h.live j d hd

theorem Flow.congr {H : Given} (h : Flow G l s rest) (s' : UdpCtx) (hid : s'.byId = s.byId)
    (haddr : s'.byAddr = s.byAddr)
    (hnext : s'.nextId = s.nextId) (hdue : H.due = G.due) (hgentle : H.gentle → s'.owner.Gentle) :
    Flow H l s' rest := by
  refine ⟨h.each, hgentle, hdue ▸ h.due, ?_, ?_, ?_, ?_, ?_, ?_⟩
  · rw [haddr, hid]
    exact h.byAddr
  · rw [haddr, hid]
    exact h.byId
  · rw [hid, hnext]
    exact h.fresh
  · rw [hnext]
    exact h.unknown
  · rw [hid]
    exact h.gone
  · rw [hid]
    exact h.live

end Changes

/-! ## Actions -/

/-- Faults: the code goes on with a connection that the owner closed from inside an event. -/
def Excused (G : Given) (f : Fault) : Prop := f = .useAfterFree ∧ ¬G.gentle

section Actions

variable {G : Given} {l : List Out} {s : UdpCtx} {rest : ConnId → List Datagram} {id : ConnId}
  {c : UdpConnDescriptor} {α : Type} {P : α → UdpCtx → Prop}

theorem deref_ok (hc : s.byId.lookup id = some c) (l : List Out) : deref id s l = (.ok c, s, l) := by
  rw [deref, get_bind]
  simp only [hc]
  rfl

theorem deref_none (hc : s.byId.lookup id = none) (l : List Out) : deref id s l = (.error .useAfterFree, s, l) := by
  rw [deref, get_bind]
  simp only [hc]
  rfl

theorem update_ok (hc : s.byId.lookup id = some c) (f : UdpConnDescriptor → UdpConnDescriptor)
    (l : List Out) : update id f s l = (.ok (), s.set id f, l) := by
  rw [update, bind_ok (deref_ok hc l)]
  rfl

theorem refresh_ok (hc : s.byId.lookup id = some c) (l : List Out) :
    refresh id s l = (.ok (), s.set id fun c => { c with connTimeout := s.now + udpTimeout }, l) := by
  rw [refresh, get_bind, update_ok hc]

theorem refresh_none (hc : s.byId.lookup id = none) (l : List Out) : refresh id s l = (.error .useAfterFree, s, l) := by
  rw [refresh, get_bind]
  exact bind_error (deref_none hc l)

theorem closeDescriptor_ok (hc : s.byId.lookup id = some c) (l : List Out) : closeDescriptor id s l =
      (.ok (), { s with byId := s.byId.erase id, byAddr := s.byAddr.erase c.addr }, l ++ [.closed id]) := by
  rw [closeDescriptor, get_bind]
  simp only [hc]
  rfl

theorem closeDescriptor_none (hc : s.byId.lookup id = none) (l : List Out) :
    closeDescriptor id s l = (.ok (), s, l) := by
  rw [closeDescriptor, get_bind]
  simp only [hc]
  rfl

theorem closeDescriptor_spec (h : Calm G l s) (id : ConnId) :
    Runs (Calm G) (Excused G) (closeDescriptor id) s l fun _ _ => True := by
  cases hc : s.byId.lookup id with
  | none => exact Runs.of_ok (closeDescriptor_none hc l) h trivial
  | some c => exact Runs.of_ok (closeDescriptor_ok hc l) (h.close hc (h.live id c hc).2.settled) trivial

/-! ## Packets that are read -/

variable {d : Datagram} {ds : List Datagram} {c' : UdpConnDescriptor}

section

variable (h : Flow G l s (holding id (d :: ds))) (hc : s.byId.lookup id = some c) (hs : c.state = .confirmed)
include h hc hs

theorem Flow.orderly_read (a : ReadAnswer) :
    Orderly l (.read id d.payload a) ∧ (digest id l).reads ++ d.payload :: ds.map payload = (digest id l).due := by
  obtain ⟨hclosed, hlive⟩ := h.live id c hc
  rw [Live, hs, holding, Function.update_self] at hlive
  obtain ⟨hdecision, hfine, heq⟩ := hlive
  exact ⟨⟨hdecision, hfine, hclosed⟩, heq⟩

theorem Flow.read {a : ReadAnswer} (ha : a.good = true) : Flow G (l ++ [.read id d.payload a]) s (holding id ds) := by
  obtain ⟨ho, heq⟩ := h.orderly_read hc hs a
  refine h.raise rfl rfl hc ho (fun j hj => holding_other _ _ hj) ho.2.2 ?_
  rw [Live, hs]
  refine ⟨ho.1, ?_, ?_⟩
  · show ((digest id l).fine && a.good) = true
    rw [ho.2.1, ha]
    rfl
  · show (digest id l).reads ++ [d.payload] ++ (holding id ds id).map payload = (digest id l).due
    rw [holding, Function.update_self, append_assoc]
    exact heq

theorem Flow.readClose {a : ReadAnswer} (ha : a.good = false) : Calm G (l ++ [.read id d.payload a] ++ [.closed id])
      { s with byId := s.byId.erase id, byAddr := s.byAddr.erase c.addr } := by
  obtain ⟨ho, heq⟩ := h.orderly_read hc hs a
  refine h.spoil rfl rfl hc ho ⟨ds.map payload, ?_⟩ ?_
  · show (digest id l).reads ++ [d.payload] ++ _ = _
    rw [append_assoc]
    exact heq
  · show ((digest id l).fine && a.good) = false
    rw [ha, Bool.and_false]

end

theorem Owner.Gentle.answer {o : Owner} (h : o.Gentle) :
    (o.onRead.headD {}).closes = true → (o.onRead.headD {}).result < 0 := by
  cases hr : o.onRead with
  | nil => nofun
  | cons a as => exact h.2 a (by simp [hr])

theorem Owner.Gentle.tail {o : Owner} (h : o.Gentle) : Owner.Gentle { o with onRead := o.onRead.tail } :=
  ⟨h.1, fun a ha => h.2 a (mem_of_mem_tail ha)⟩

/-- A packet of a connection that is forwarded is read, and is no longer held. The connection stays if
the answer is a good one. -/
theorem receive_then {k : Unit → Action α} (h : Flow G l s (holding id (d :: ds)))
    (hc : s.byId.lookup id = some c) (hs : c.state = .confirmed)
    (hlive : ∀ s' l' c', Flow G l' s' (holding id ds) → s'.byId.lookup id = some c' →
      c'.state = .confirmed → Runs (Calm G) (Excused G) (k ()) s' l' P)
    (hgone : ∀ s' l', Calm G l' s' → s'.byId.lookup id = none → Runs (Calm G) (Excused G) (k ()) s' l' P) :
    Runs (Calm G) (Excused G) (receive c.addr d >>= k) s l P := by
  have haddr := h.byId id c hc
  obtain ⟨a, ha⟩ : ∃ a, s.owner.onRead.headD {} = a := ⟨_, rfl⟩
  let s₁ : UdpCtx := { s with owner := { s.owner with onRead := s.owner.onRead.tail } }
  have h₁ : Flow G l s₁ (holding id (d :: ds)) := h.congr s₁ rfl rfl rfl rfl fun hG => (h.gentle hG).tail
  have hc₁ : s₁.byId.lookup id = some c := hc
  have hreceive : receive c.addr d s l = (do
      if a.closes then closeDescriptor id else pure ()
      if 0 ≤ a.result then refresh id else closeDescriptor id : Action Unit) s₁ (l ++ [.read id d.payload a]) := by
    rw [receive, get_bind]
    simp only [haddr]
    rw [← ha]
    rfl
  have hgoneNow : ((s₁.byId.erase id).lookup id) = none := by simp
  cases hcloses : a.closes with
  | true =>
    have hbad : a.good = false := by rw [ReadAnswer.good, hcloses]; rfl
    have hclose := closeDescriptor_ok hc₁ (l ++ [.read id d.payload a])
    have hcalm := h₁.readClose hc₁ hs hbad
    by_cases hresult : 0 ≤ a.result
    · -- the answer is taken for a connection that is gone
      refine Runs.of_error_bind ?_ hcalm ⟨rfl, fun hG => ?_⟩
      · rw [hreceive, hcloses, if_pos rfl, bind_ok hclose, if_pos hresult]
        exact refresh_none hgoneNow _
      · have hanswer := (h.gentle hG).answer
        rw [ha] at hanswer
        exact absurd (hanswer hcloses) (Int.not_lt.mpr hresult)
    · refine Runs.of_ok_bind ?_ (hgone _ _ hcalm hgoneNow)
      rw [hreceive, hcloses, if_pos rfl, bind_ok hclose, if_neg hresult]
      exact closeDescriptor_none hgoneNow _
  | false =>
    by_cases hresult : 0 ≤ a.result
    · have hgood : a.good = true := by rw [ReadAnswer.good, hcloses]; exact decide_eq_true hresult
      have hread := h₁.read hc₁ hs hgood
      refine Runs.of_ok_bind ?_ (hlive _ _ _ (hread.refreshed hc₁ (s₁.now + udpTimeout))
        (lookup_set_self hc₁ _) hs)
      rw [hreceive, hcloses, if_pos hresult]
      exact refresh_ok hc₁ _
    · have hbad : a.good = false := by rw [ReadAnswer.good, hcloses]; exact decide_eq_false hresult
      refine Runs.of_ok_bind ?_ (hgone _ _ (h₁.readClose hc₁ hs hbad) hgoneNow)
      rw [hreceive, hcloses, if_neg hresult]
      exact closeDescriptor_ok hc₁ _

theorem hook_confirmed (d : Datagram) (h : Flow G l s rest) (hc : s.byId.lookup id = some c)
    (hs : c.state = .confirmed) : hook (n + 1) c.addr d s l = receive c.addr d s l := by
  rw [hook, processUdp, get_bind]
  simp only [h.byId id c hc]
  rw [bind_ok (deref_ok hc l)]
  simp [hs]

theorem replay_spec (ds : List Datagram) (first : Bool) (h : Flow G l s (holding id ds))
    (hc : s.byId.lookup id = some c) (hs : c.state = .confirmed) :
    Runs (Calm G) (Excused G) (replay (hook (n + 1)) id first ds) s l fun _ _ => True := by
  induction ds generalizing s l c first with
  | nil =>
    rw [holding_nil] at h
    exact Runs.pure h trivial
  | cons d ds ih =>
    refine Runs.get ?_
    rw [if_neg (by rw [hc]; simp)]
    refine Runs.of_ok_bind (deref_ok hc l) (Runs.congr_bind (hook_confirmed n d h hc hs) ?_)
    refine receive_then h hc hs (fun s' l' c' h' hc' hs' => ih false h' hc' hs') fun s' l' h' hnone => ?_
    cases ds with
    | nil => exact Runs.pure h' trivial
    | cons d' ds' =>
      refine Runs.get ?_
      rw [if_pos (by rw [hnone]; rfl)]
      exact Runs.pure h' trivial

/-! ## Decisions -/

theorem Live.requested (h : Live g ds c) (hs : c.state = .requested) :
    g.decision = none ∧ g.fine = true ∧ g.reads = [] ∧ g.due = c.pendingPackets.map payload ∧
      c.pendingPacketsBytes = (c.pendingPackets.map totLen).sum ∧ c.pendingPacketsBytes ≤ sndQueueLimit := by
  rwa [Live, hs] at h

theorem Live.confirmed (h : Live g ds c) (hs : c.state = .confirmed) (hs' : c'.state = .confirmed) : Live g ds c' := by
  rw [Live, hs] at h
  rw [Live, hs']
  exact h

theorem Flow.decide {action : TcpipAction} {s' : UdpCtx} (h : Calm G l s) (hc : s.byId.lookup id = some c)
    (hs : c.state = .requested) (hlookup : ∀ j, s'.byId.lookup j = if j = id then some c' else s.byId.lookup j)
    (hsame : s'.byAddr = s.byAddr ∧ s'.nextId = s.nextId ∧ s'.owner = s.owner) (haddr : c'.addr = c.addr)
    (hlive : Live { digest id l with decision := some action } ds c') :
    Flow G (l ++ [.decided id action]) s' (holding id ds) := by
  obtain ⟨hclosed, hreq⟩ := h.live id c hc
  have hself : digest id (l ++ [.decided id action]) = { digest id l with decision := some action } :=
    digest_self id l (.decided id action) rfl
  refine h.put hc (h.each.snoc ⟨(hreq.requested hs).1, hclosed⟩)
    (fun j hj => digest_other l (.decided id action) hj) hlookup hsame haddr (fun j hj => ?_) ?_ rfl
    (h.due_quiet rfl) ?_
  · rw [holding, Function.update_of_ne hj]
  · rw [hself]
    exact hclosed
  · rw [hself, holding, Function.update_self]
    exact hlive

theorem processNewConnection_spec (h : Flow G l s (holding id c.pendingPackets))
    (hc : s.byId.lookup id = some c) (hs : c.state = .confirmed) :
    Runs (Calm G) (Excused G) (processNewConnection (hook (n + 1)) id) s l fun _ _ => True := by
  obtain ⟨hclosed, hlive⟩ := h.live id c hc
  have hconfirmed := hlive
  rw [Live, hs, holding, Function.update_self] at hconfirmed
  obtain ⟨hdecision, hfine, heq⟩ := hconfirmed
  refine Runs.get (Runs.raise ?_)
  cases hcloses : s.owner.closesAccepted with
  | true =>
    refine Runs.of_ok_bind (closeDescriptor_ok hc _) (Runs.of_error_bind (deref_none ?_ _) ?_ ⟨rfl, fun hG => ?_⟩)
    · simp
    · refine h.spoil rfl rfl hc trivial ⟨c.pendingPackets.map payload, heq⟩ ?_
      show ((digest id l).fine && !true) = false
      rw [Bool.not_true, Bool.and_false]
    · rw [(h.gentle hG).1] at hcloses
      cases hcloses
  | false =>
    have hadd : (digest id l).add (.accepted id false) = digest id l := by
      show { digest id l with fine := (digest id l).fine && !false } = digest id l
      rw [Bool.not_false, Bool.and_true]
    have hlive' : Live ((digest id l).add (.accepted id false)) (holding id c.pendingPackets id) c := by
      rw [hadd]
      exact hlive
    have hraised : Flow G (l ++ [.accepted id false]) s (holding id c.pendingPackets) :=
      h.raise rfl rfl hc trivial (fun _ _ => rfl) hclosed hlive'
    refine Runs.of_ok_bind (deref_ok hc _) (Runs.of_ok_bind (update_ok hc _ _) ?_)
    exact replay_spec n c.pendingPackets true (hraised.set hc rfl ((hraised.live id c hc).2.confirmed hs hs))
      (lookup_set_self hc _) hs

theorem Flow.refuse {action : TcpipAction} {s' : UdpCtx} {f : UdpConnDescriptor → UdpConnDescriptor}
    (h : Calm G l s) (hc : s.byId.lookup id = some c) (hs : c.state = .requested)
    (hlookup : ∀ j, s'.byId.lookup j = if j = id then some c' else s.byId.lookup j)
    (hsame : s'.byAddr = s.byAddr ∧ s'.nextId = s.nextId ∧ s'.owner = s.owner) (haddr : (f c').addr = c.addr)
    (hstate : (f c').state = .rejected ∨ (f c').state = .unreachable) (haction : action ≠ .bypass) :
    Calm G (l ++ [.decided id action]) (s'.set id f) := by
  have hlive : Live { digest id l with decision := some action } [] (f c') := by
    have hrefused : some action ≠ some TcpipAction.bypass ∧ (digest id l).reads = [] :=
      ⟨fun heq => haction (Option.some.inj heq), ((h.live id c hc).2.requested hs).2.2.1⟩
    rcases hstate with hstate | hstate
    all_goals
      rw [Live, hstate]
      exact hrefused
  have hflow : Flow G (l ++ [.decided id action]) (s'.set id f) (holding id []) :=
    h.decide hc hs (lookup_set_again hlookup f) hsame haddr hlive
  rwa [holding_nil] at hflow

theorem hook_unreachable (d : Datagram) (h : Flow G l s rest) (hc : s.byId.lookup id = some c)
    (hs : c.state = .unreachable) : hook (n + 1) c.addr d s l = (.ok (), s, l ++ [.destUnreach id d]) := by
  rw [hook, processUdp, get_bind]
  simp only [h.byId id c hc]
  rw [bind_ok (deref_ok hc l)]
  simp only [hs]
  rfl

theorem processUnreachableConnection_spec (hc : s.byId.lookup id = some c)
    (h : Calm G l (s.set id fun c => { c with state := .unreachable })) :
    Runs (Calm G) (Excused G) (processUnreachableConnection (hook (n + 1)) id) s l fun _ _ => True := by
  have hc₁ := lookup_set_self hc fun c => { c with state := .unreachable }
  refine Runs.of_ok_bind (update_ok hc _ l) (Runs.of_ok_bind (deref_ok hc₁ l) ?_)
  cases hlast : c.pendingPackets.getLast? with
  | none => exact Runs.pure h trivial
  | some d =>
    refine Runs.of_ok_bind (update_ok hc₁ _ l) ?_
    have hc₂ := lookup_set_self hc₁ fun c => { c with pendingPackets := c.pendingPackets.dropLast }
    have h₂ := h.set (f := fun c => { c with pendingPackets := c.pendingPackets.dropLast }) hc₁ rfl
      (h.live id _ hc₁).2
    have hhook := hook_unreachable n d h₂ hc₂ rfl
    refine Runs.of_ok_bind hhook (Runs.of_ok_bind (deref_ok hc₂ _) (closeDescriptor_spec ?_ id))
    exact h₂.raise rfl rfl hc₂ trivial (fun _ _ => rfl) (h₂.live id _ hc₂).1 (h₂.live id _ hc₂).2

theorem completeConnectRequest_spec (h : Calm G l s) (id : ConnId) (action : TcpipAction) :
    Runs (Calm G) (Excused G) (completeConnectRequest (hook (n + 1)) id action) s l fun _ _ => True := by
  refine Runs.get ?_
  cases hc : s.byId.lookup id with
  | none => exact Runs.pure h trivial
  | some c =>
    by_cases hs : c.state = .requested
    · have hlookup := lookup_set_again (lookup_set hc fun c => { c with state := .confirmed })
        fun c => { c with connTimeout := s.now + udpTimeout }
      have hc' := (hlookup id).trans (if_pos rfl)
      simp only [if_pos hs]
      refine Runs.of_ok_bind (update_ok hc _ _) (Runs.of_ok_bind (refresh_ok (lookup_set_self hc _) _) ?_)
      refine Runs.raise ?_
      cases action with
      | reject | drop =>
        exact Runs.of_ok (update_ok hc' _ _)
          (h.refuse hc hs hlookup ⟨rfl, rfl, rfl⟩ rfl (.inl rfl) (by decide)) trivial
      | bypass =>
        obtain ⟨-, hfine, hreads, hdue, -⟩ := (h.live id c hc).2.requested hs
        refine processNewConnection_spec n ?_ hc' rfl
        refine h.decide hc hs hlookup ⟨rfl, rfl, rfl⟩ rfl ⟨rfl, hfine, ?_⟩
        rw [hreads, hdue, nil_append]
      | rejectUnreachable =>
        exact processUnreachableConnection_spec n hc'
          (h.refuse hc hs hlookup ⟨rfl, rfl, rfl⟩ rfl (.inr rfl) (by decide))
    · simp only [if_neg hs]
      exact Runs.pure h trivial

theorem reactions_spec (h : Calm G l s) (id : ConnId) (reactions : List Reaction) :
    Runs (Calm G) (Excused G) (Act.forEach (react (hook (n + 1)) id) reactions) s l fun _ _ => True := by
  refine Runs.forEach h trivial fun reaction _ s l h _ => ?_
  cases reaction with
  | complete action => exact completeConnectRequest_spec n h id action
  | close => exact closeDescriptor_spec h id

/-! ## Packets that come -/

theorem packet_eq {addr : AddressPair} {o : Out}
    (h : ∀ j, (if s.admits addr d j then [d.payload] else []) = if o.idOf = j then o.brings else []) :
    G.packet s addr d = G.plus o := by
  simp only [Given.packet, Given.plus, h]

theorem enqueueIncomingPacket_spec (h : Calm G l s) (hc : s.byId.lookup id = some c)
    (hs : c.state = .requested) (d : Datagram) :
    Runs (Calm (G.packet s c.addr d)) (Excused G) (enqueueIncomingPacket id d) s l fun _ _ => True := by
  obtain ⟨hclosed, hlive⟩ := h.live id c hc
  obtain ⟨hdecision, hfine, hreads, hdue, hbytes, hlimit⟩ := hlive.requested hs
  have haddr := h.byId id c hc
  refine Runs.of_ok_bind (deref_ok hc l) ?_
  by_cases hroom : c.pendingPacketsBytes + d.totLen ≤ sndQueueLimit
  · have hgiven : G.packet s c.addr d = G.plus (.queued id d) :=
      packet_eq fun j => by simp [UdpCtx.admits, haddr, hc, hs, hroom, Out.brings, Out.idOf, eq_comm (a := id)]
    rw [if_pos hroom, hgiven]
    refine Runs.of_ok_bind (update_ok hc _ l) (Runs.of_ok rfl ?_ trivial)
    refine h.put hc (h.each.snoc ⟨hdecision, hclosed⟩) (fun j hj => digest_other l (.queued id d) hj)
      (lookup_set hc _) ⟨rfl, rfl, rfl⟩ rfl (fun _ _ => rfl) ?_ rfl (h.due_plus _) ?_
    · rw [digest_self id l (.queued id d) rfl]
      exact hclosed
    rw [digest_self id l (.queued id d) rfl]
    simp only [hs]
    refine ⟨hdecision, hfine, hreads, ?_, ?_, hroom⟩
    · show (digest id l).due ++ [d.payload] = _
      rw [hdue, map_append]
      rfl
    · rw [hbytes]
      simp
  · have hgiven : G.packet s c.addr d = G := by simp [Given.packet, UdpCtx.admits, haddr, hc, hs, hroom]
    rw [if_neg hroom, hgiven]
    exact Runs.of_ok rfl (h.raise rfl rfl hc trivial (fun _ _ => rfl) hclosed hlive) trivial

theorem createDescriptor_ok (s : UdpCtx) (l : List Out) (addr : AddressPair) (d : Datagram) :
    ∃ (s' : UdpCtx) (o : Out) (c' : UdpConnDescriptor),
      createDescriptor addr d s l = (.ok s.nextId, s', l ++ [o]) ∧ o.idOf = s.nextId ∧
      (∀ j, s'.byId.lookup j = if j = s.nextId then some c' else s.byId.lookup j) ∧
      (∀ a, s'.byAddr.lookup a = if a = addr then some s.nextId else s.byAddr.lookup a) ∧
      s'.nextId = s.nextId + 1 ∧ s'.owner = s.owner ∧ c'.addr = addr ∧
      c'.pendingPacketsBytes = (c'.pendingPackets.map totLen).sum ∧ c'.pendingPacketsBytes ≤ sndQueueLimit ∧
      (d.totLen ≤ sndQueueLimit ∧ o = .queued s.nextId d ∧ c'.pendingPackets = [d] ∨
        ¬d.totLen ≤ sndQueueLimit ∧ o = .overflowed s.nextId d ∧ c'.pendingPackets = []) := by
  let c₀ : UdpConnDescriptor := { addr := addr, connTimeout := s.now + udpTimeout }
  let s₁ : UdpCtx := { s with
    nextId := s.nextId + 1
    byId := s.byId.insert s.nextId c₀
    byAddr := s.byAddr.insert addr s.nextId }
  have hlookup : ∀ j, s₁.byId.lookup j = if j = s.nextId then some c₀ else s.byId.lookup j :=
    (Map.lookup_insert_eq s.byId s.nextId · c₀)
  have hc₀ := (hlookup s.nextId).trans (if_pos rfl)
  have hcreate : createDescriptor addr d s l =
      (enqueueIncomingPacket s.nextId d >>= fun _ => pure s.nextId) s₁ l := rfl
  have henqueue : enqueueIncomingPacket s.nextId d s₁ l = (if 0 + d.totLen ≤ sndQueueLimit then do
      update s.nextId fun c => { c with
        pendingPacketsBytes := c.pendingPacketsBytes + d.totLen
        pendingPackets := c.pendingPackets ++ [d] }
      Act.raise (.queued s.nextId d)
    else Act.raise (.overflowed s.nextId d)) s₁ l := by
    rw [enqueueIncomingPacket, bind_ok (deref_ok hc₀ l)]
  rw [Nat.zero_add] at henqueue
  by_cases hroom : d.totLen ≤ sndQueueLimit
  · rw [if_pos hroom, bind_ok (update_ok hc₀ _ l)] at henqueue
    refine ⟨_, .queued s.nextId d, _, by rw [hcreate, bind_ok henqueue]; rfl, rfl,
      lookup_set_again hlookup _, (Map.lookup_insert_eq s.byAddr addr · s.nextId), rfl, rfl, rfl, ?_, ?_,
      .inl ⟨hroom, rfl, rfl⟩⟩
    · show 0 + d.totLen = ([d].map totLen).sum
      simp
    · rwa [← Nat.zero_add d.totLen] at hroom
  · rw [if_neg hroom] at henqueue
    exact ⟨s₁, .overflowed s.nextId d, c₀, by rw [hcreate, bind_ok henqueue]; rfl, rfl, hlookup,
      (Map.lookup_insert_eq s.byAddr addr · s.nextId), rfl, rfl, rfl, rfl, Nat.zero_le _,
      .inr ⟨hroom, rfl, rfl⟩⟩

section

variable (h : Calm G l s)
include h

theorem request_spec {addr : AddressPair} (hnone : s.byAddr.lookup addr = none) (d : Datagram) :
    Runs (Calm (G.packet s addr d)) (Excused G) (createDescriptor addr d >>= requestConnection (hook (n + 1))) s l
      fun _ _ => True := by
  obtain ⟨s', o, c', hcreate, hid, hlookup, hbyAddr, hnext, howner, haddr, hbytes, hlimit, ho⟩ :=
    createDescriptor_ok s l addr d
  have hgiven : G.packet s addr d = G.plus o := packet_eq fun j => by
    rcases ho with ⟨hroom, rfl, -⟩ | ⟨hroom, rfl, -⟩
    · simp [UdpCtx.admits, hnone, hroom, Out.brings, Out.idOf, eq_comm (a := s.nextId)]
    · simp [UdpCtx.admits, hnone, hroom, Out.brings]
  have hc' := (hlookup s.nextId).trans (if_pos rfl)
  rw [hgiven]
  refine Runs.of_ok_bind hcreate ?_
  refine Runs.of_ok_bind (update_ok hc' _ _) (Runs.of_ok_bind (deref_ok (lookup_set_self hc' _) _) ?_)
  refine Runs.get (Runs.raise (reactions_spec (G := G.plus o) n ?_ _ _))
  have hnew := h.unknown s.nextId (Nat.le_refl _)
  have hother : ∀ j, j ≠ s.nextId → digest j (l ++ [o]) = digest j l := fun j hj =>
    digest_other l o (hid.symm ▸ hj)
  have hself : digest s.nextId (l ++ [o]) = Digest.add {} o := by
    rw [digest_self s.nextId l o hid, hnew]
  have hfacts : Orderly l o ∧ (digest s.nextId (l ++ [o])).closed = false ∧
      Live (digest s.nextId (l ++ [o])) [] { c' with state := .requested } := by
    rw [hself]
    rcases ho with ⟨-, rfl, hpending⟩ | ⟨-, rfl, hpending⟩
    · refine ⟨?_, rfl, rfl, rfl, rfl, ?_, hbytes, hlimit⟩
      · rw [Orderly, hnew]
        exact ⟨rfl, rfl⟩
      · rw [hpending]
        rfl
    · refine ⟨trivial, rfl, rfl, rfl, rfl, ?_, hbytes, hlimit⟩
      rw [hpending]
      rfl
  have hflow : Calm (G.plus o) (l ++ [o]) (s'.set s.nextId fun c => { c with state := .requested }) :=
    h.arrive hnone (h.each.snoc hfacts.1) hother (lookup_set_again hlookup _) hbyAddr hnext howner haddr
      hfacts.2.1 rfl (h.due_plus o) hfacts.2.2
  exact hflow.raise rfl rfl (lookup_set_self hc' _) trivial (fun _ _ => rfl) hfacts.2.1 hfacts.2.2

theorem processUdp_spec (addr : AddressPair) (d : Datagram)
    (hstate : ∀ id c, s.byAddr.lookup addr = some id → s.byId.lookup id = some c → c.state ≠ .confirmed) :
    Runs (Calm (G.packet s addr d)) (Excused G) (processUdp (hook (n + 1)) addr d) s l fun _ _ => True := by
  refine Runs.get ?_
  cases hid : s.byAddr.lookup addr with
  | none => exact request_spec n h hid d
  | some id =>
    obtain ⟨c, hc, rfl⟩ := h.byAddr addr id hid
    refine Runs.of_ok_bind (deref_ok hc l) ?_
    obtain ⟨hclosed, hlive⟩ := h.live id c hc
    cases hs : c.state with
    | idle =>
      rw [Live, hs] at hlive
      exact hlive.elim
    | requested =>
      exact enqueueIncomingPacket_spec h hc hs d
    | confirmed => exact absurd hs (hstate id c hid hc)
    | rejected | unreachable =>
      have hgiven : G.packet s c.addr d = G := by simp [Given.packet, UdpCtx.admits, hid, hc, hs]
      rw [hgiven]
      exact Runs.of_ok rfl (h.raise rfl rfl hc trivial (fun _ _ => rfl) hclosed hlive) trivial

theorem onPacket_spec (addr : AddressPair) (d : Datagram) :
    Runs (Calm (G.packet s addr d)) (Excused G) (onPacket addr d) s l fun _ _ => True := by
  refine Runs.get ?_
  cases hid : s.byAddr.lookup addr with
  | none =>
    refine processUdp_spec 0 h addr d fun id c hid' => ?_
    rw [hid] at hid'
    cases hid'
  | some id =>
    obtain ⟨c, hc, rfl⟩ := h.byAddr addr id hid
    refine Runs.of_ok_bind (deref_ok hc l) ?_
    by_cases hs : c.state = .confirmed
    · simp only [if_pos hs]
      obtain ⟨hclosed, hlive⟩ := h.live id c hc
      rw [Live, hs] at hlive
      obtain ⟨hdecision, hfine, heq⟩ := hlive
      have hgiven : G.packet s c.addr d = G.plus (.came id d) :=
        packet_eq fun j => by simp [UdpCtx.admits, hid, hc, hs, Out.brings, Out.idOf, eq_comm (a := id)]
      have hself : digest id (l ++ [.came id d]) = (digest id l).add (.came id d) := digest_self id l _ rfl
      have hcame : Flow (G.plus (.came id d)) (l ++ [.came id d]) s (holding id [d]) := by
        refine h.put hc (h.each.snoc ⟨hdecision, hclosed⟩)
          (fun j hj => digest_other l (.came id d) hj) (fun j => ?_)
          ⟨rfl, rfl, rfl⟩ rfl (fun j hj => ?_) ?_ rfl (h.due_plus _) ?_
        · split_ifs with hj
          · rw [hj, hc]
          · rfl
        · rw [holding, Function.update_of_ne hj]
        · rw [hself]
          exact hclosed
        rw [hself, Live, hs]
        refine ⟨hdecision, hfine, ?_⟩
        show (digest id l).reads ++ (holding id [d] id).map payload = (digest id l).due ++ [d.payload]
        rw [holding, Function.update_self, ← heq, map_nil, append_nil]
        rfl
      rw [hgiven]
      refine Runs.raise (Runs.congr (hook_confirmed 1 d hcame hc hs) (Runs.of_bind_pure ?_))
      refine receive_then hcame hc hs (fun s' l' c' h' _ _ => ?_) fun s' l' h' _ => Runs.pure h' trivial
      rw [holding_nil] at h'
      exact Runs.pure h' trivial
    · simp only [if_neg hs]
      refine processUdp_spec 0 h c.addr d fun j c' hj hc' => ?_
      rw [hid] at hj
      cases hj
      rw [hc] at hc'
      cases hc'
      exact hs

/-! ## Calls -/

theorem sendData_spec (id : ConnId) (length : Nat) (ok : Bool) :
    Runs (Calm G) (Excused G) (sendData id length ok) s l fun _ _ => True := by
  refine Runs.get ?_
  cases hc : s.byId.lookup id with
  | none => exact Runs.pure h trivial
  | some c =>
    have h' := h.refreshed hc (s.now + udpTimeout)
    have hc' := lookup_set_self hc fun c => { c with connTimeout := s.now + udpTimeout }
    refine Runs.of_ok_bind (refresh_ok hc l) ?_
    cases ok with
    | true =>
      obtain ⟨hclosed, hlive⟩ := h'.live id _ hc'
      exact Runs.of_ok rfl (h'.raise rfl rfl hc' trivial (fun _ _ => rfl) hclosed hlive) trivial
    | false => exact closeDescriptor_spec h' id

theorem timerTick_spec (now : Nat) : Runs (Calm G) (Excused G) (timerTick now) s l fun _ _ => True := by
  refine Runs.forEach (h.congr { s with now := now } rfl rfl rfl rfl h.gentle) trivial fun id _ s l h _ => ?_
  refine Runs.get ?_
  cases hc : s.byId.lookup id with
  | none => exact Runs.pure h trivial
  | some c =>
    by_cases hold : c.connTimeout < now
    · simp only [if_pos hold]
      exact closeDescriptor_spec h id
    · simp only [if_neg hold]
      exact Runs.pure h trivial

theorem cleanUp_spec : Runs (Calm G) (Excused G) cleanUp s l fun _ _ => True := by
  exact Runs.forEach h trivial fun id _ s l h _ => closeDescriptor_spec h id

end

end Actions

/-- The owner of a call is gentle. -/
def Call.Gentle : Call → Prop
  | .packet _ _ owner => owner.Gentle
  | .complete _ _ owner => owner.Gentle
  | _ => True

instance : DecidablePred Call.Gentle
  | .packet _ _ owner => inferInstanceAs (Decidable owner.Gentle)
  | .complete _ _ owner => inferInstanceAs (Decidable owner.Gentle)
  | .close _ => isTrue trivial
  | .send _ _ _ => isTrue trivial
  | .tick _ => isTrue trivial
  | .cleanUp => isTrue trivial

/-- The payload that a call brings for a connection. -/
def UdpCtx.arrived (s : UdpCtx) (id : ConnId) : Call → List Bytes
  | .packet addr d _ => if s.admits addr d id then [d.payload] else []
  | _ => []

def Given.after (G : Given) (s : UdpCtx) (e : Call) : Given :=
  { G with due := fun id => G.due id ++ s.arrived id e }

theorem perform_spec {G : Given} {l : List Out} {s : UdpCtx} {e : Call} (h : Calm G l s)
    (he : G.gentle → e.Gentle) : Runs (Calm (G.after s e)) (Excused G) (perform e) s l fun _ _ => True := by
  have hsame : (∀ id, s.arrived id e = []) → G.after s e = G := by
    intro hnone
    simp [Given.after, hnone]
  cases e with
  | packet addr d owner =>
    exact Runs.modify (onPacket_spec (h.congr { s with owner := owner } rfl rfl rfl rfl he) addr d)
  | complete id action owner =>
    rw [hsame fun _ => rfl]
    exact Runs.modify (completeConnectRequest_spec 0 (h.congr { s with owner := owner } rfl rfl rfl rfl he) id action)
  | close id =>
    rw [hsame fun _ => rfl]
    exact closeDescriptor_spec h id
  | send id length ok =>
    rw [hsame fun _ => rfl]
    exact sendData_spec h id length ok
  | tick now =>
    rw [hsame fun _ => rfl]
    exact timerTick_spec h now
  | cleanUp =>
    rw [hsame fun _ => rfl]
    exact cleanUp_spec h

/-! ## Whole runs -/

/-- The invariant of a run that the calls have brought `G`. -/
structure Tracked (G : Given) (r : Run) : Prop where
  calm : Calm G r.events r.ctx
  fault : ∀ f, r.fault = some f → Excused G f

/-- What a call brings, unless the run has ended. -/
def Run.arrived (r : Run) (id : ConnId) (e : Call) : List Bytes :=
  if r.fault.isNone then r.ctx.arrived id e else []

theorem Tracked.next {G : Given} {r : Run} {e : Call} (h : Tracked G r) (he : G.gentle → e.Gentle) :
    Tracked { G with due := fun id => G.due id ++ r.arrived id e } (r.next e) := by
  rw [Run.next]
  simp only [Run.arrived]
  split
  · have hend := perform_spec h.calm he
    refine ⟨hend.inv, fun f hf => hend.fault f ?_⟩
    revert hf
    show faultOf (perform e r.ctx r.events).1 = some f → (perform e r.ctx r.events).1 = .error f
    cases (perform e r.ctx r.events).1 with
    | ok _ => intro hf; cases hf
    | error f' => intro hf; cases hf; rfl
  · simpa using h

def arrivals (id : ConnId) (h : List (Record Run Call Empty)) : List Bytes :=
  h.flatMap fun r => r.before.arrived id r.call

theorem tracked_exec (es : List Call) :
    Tracked ⟨∀ e ∈ es, e.Gentle, fun id => arrivals id (manager.trace manager.init es)⟩
      (manager.exec manager.init es) := by
  refine manager.inv_run (J := fun h r => Tracked ⟨∀ e ∈ es, e.Gentle, fun id => arrivals id h⟩ r)
    ⟨?_, fun _ h => by cases h⟩ (fun h r e ht he => ?_) es (manager.meets_of_forall _ es fun e he => he)
  · exact {
      each := Each.nil
      gentle := fun _ => by decide
      due := fun _ => rfl
      byAddr := fun _ _ h => by cases h
      byId := fun _ _ h => by cases h
      fresh := fun _ _ h => by cases h
      unknown := fun _ _ => rfl
      gone := fun _ _ => ⟨List.nil_prefix, fun _ _ => rfl⟩
      live := fun _ _ h => by cases h }
  · show Tracked _ (r.next e)
    simpa [arrivals, System.record, flatMap_append] using ht.next fun hall => hall e he

/-- In every run in which no owner closes a connection from inside `ACCEPTED`, or from inside `READ` with a
result that is not negative: events are in order, and the payloads due to a connection are those that the calls
brought for it. Those that were read are the first ones of these, and all as long as every answer was a good
one; while there is no decision, the queue holds them, within its limit. -/
theorem read_in_order (es : List Call) (hgentle : ∀ e ∈ es, e.Gentle) :
    let r := manager.exec manager.init es
    r.fault = none ∧ Each Orderly r.events ∧
    (∀ id, (digest id r.events).due = arrivals id (manager.trace manager.init es) ∧
      (digest id r.events).reads <+: (digest id r.events).due ∧
      ((digest id r.events).decision = some .bypass → (digest id r.events).fine = true →
        (digest id r.events).reads = (digest id r.events).due)) ∧
    (∀ id c, r.ctx.byId.lookup id = some c → c.state = .requested →
      (digest id r.events).due = c.pendingPackets.map payload ∧
      c.pendingPacketsBytes = (c.pendingPackets.map totLen).sum ∧
      c.pendingPacketsBytes ≤ sndQueueLimit) := by
  intro r
  have h := tracked_exec es
  have hsettled : ∀ id, Settled (digest id r.events) := fun id => by
    cases hc : r.ctx.byId.lookup id with
    | none => exact h.calm.gone id hc
    | some c => exact (h.calm.live id c hc).2.settled
  refine ⟨?_, h.calm.each, fun id => ⟨h.calm.due id, (hsettled id).reads,
    (hsettled id).all⟩, fun id c hc hs => ?_⟩
  · cases hf : r.fault with
    | none => rfl
    | some f => exact absurd hgentle (h.fault f hf).2
  · exact ((h.calm.live id c hc).2.requested hs).2.2.2

def someAddr : AddressPair := ⟨⟨[10, 0, 0, 2], 5000⟩, ⟨[1, 1, 1, 1], 53⟩⟩

/-- Two packets are queued, the connection is forwarded, a third comes and is refused. -/
theorem read_in_order_three :
    let es := [.packet someAddr ⟨20, [1]⟩ {}, .packet someAddr ⟨20, [2]⟩ {}, .complete 0 .bypass {},
      .packet someAddr ⟨20, [3]⟩ { onRead := [⟨true, -1⟩] }, .packet someAddr ⟨20, [4]⟩ {}]
    (digest 0 (manager.exec manager.init es).events).reads = [[1], [2], [3]] ∧
    (digest 0 (manager.exec manager.init es).events).due = arrivals 0 (manager.trace manager.init es) :=
  ⟨by decide +kernel, ((read_in_order _ (by decide)).2.2.1 0).1⟩

/-- The owner closes the connection from inside `ACCEPTED`, or from inside `READ` with the result 0: the code
goes on with the descriptor that was freed. -/
theorem closed_inside :
    (manager.exec manager.init [.packet someAddr ⟨20, [1]⟩
      { onRequest := [.complete .bypass], closesAccepted := true }]
      ).fault = some .useAfterFree ∧
    (manager.exec manager.init [.packet someAddr ⟨20, [1]⟩
      { onRequest := [.complete .bypass], onRead := [⟨true, 0⟩] }]
      ).fault = some .useAfterFree := by
  decide +kernel

/-- After every run, also one that a fault cut short: the two tables hold the same connections, at most one for a
pair of addresses, under ids that were given out, and none of them was reported closed. -/
theorem tables_agree (es : List Call) :
    let r := manager.exec manager.init es
    (∀ addr id, r.ctx.byAddr.lookup addr = some id ↔ ∃ c, r.ctx.byId.lookup id = some c ∧ c.addr = addr) ∧
    (∀ id c, r.ctx.byId.lookup id = some c → id < r.ctx.nextId ∧ (digest id r.events).closed = false) := by
  intro r
  have h := (tracked_exec es).calm
  refine ⟨fun addr id => ⟨h.byAddr addr id, ?_⟩, fun id c hc => ⟨h.fresh id c hc, (h.live id c hc).1⟩⟩
  rintro ⟨c, hc, rfl⟩
  exact h.byId id c hc

end TrustTunnel.Tcpip.UdpCm
