import TrustTunnel.Pipe.Input
import Mathlib.Data.List.Perm.Basic

/-!
# Pipe.Output

What the endpoint sends: for every connection and every interleaving of `send` with the loop thread,
what happened to the messages put into the queue for it.
-/

namespace TrustTunnel.Pipe

open Lib PipeEndpoint List Option

/-! ## What happened on one connection -/

structure Tally where
  sent : List Bytes
  overflow : List Bytes
  lost : List Bytes
  wrote : Bytes

namespace Tally

def none : Tally := ⟨[], [], [], []⟩

def add (a b : Tally) : Tally :=
  ⟨a.sent ++ b.sent, a.overflow ++ b.overflow, a.lost ++ b.lost, a.wrote ++ b.wrote⟩

@[simp] theorem add_none (a : Tally) : a.add none = a := by simp [add, none]

@[simp] theorem none_add (a : Tally) : none.add a = a := by simp [add, none]

theorem add_assoc (a b c : Tally) : (a.add b).add c = a.add (b.add c) := by simp [add]

end Tally

def Out.tally (k : Nat) : Out → Tally
  | .sent c w => if c = k then ⟨[w], [], [], []⟩ else .none
  | .overflow c w => if c = k then ⟨[], [w], [], []⟩ else .none
  | .lost c w => if c = k then ⟨[], [], [w], []⟩ else .none
  | .wrote c d => if c = k then ⟨[], [], [], d⟩ else .none
  | _ => .none

def tally (k : Nat) : List Out → Tally
  | [] => .none
  | x :: o => (x.tally k).add (tally k o)

attribute [local simp] tally

theorem tally_append (k : Nat) (o o' : List Out) : tally k (o ++ o') = (tally k o).add (tally k o') := by
  induction o with
  | nil => simp
  | cons x o ih => simp [ih, Tally.add_assoc]

attribute [local simp] Out.tally

theorem tally_losts (k : Nat) (ws : List PendingWrite) :
    tally k (ws.map fun w => Out.lost k w.data) = ⟨[], [], ws.map (·.data), []⟩ := by
  induction ws with
  | nil => rfl
  | cons w ws ih => simp [ih, Tally.add]

theorem tally_losts_other {c k : Nat} (h : k ≠ c) (ws : List PendingWrite) :
    tally k (ws.map fun w => Out.lost c w.data) = .none := by
  induction ws with
  | nil => rfl
  | cons w ws ih => simp [ih, Ne.symm h]

theorem tally_received (k c : Nat) (d : Bytes) (msgs : List Message) :
    tally k (.received c d :: msgs.map (.handler c)) = .none := by
  induction msgs with
  | nil => rfl
  | cons m msgs ih => simpa using ih

/-! ## Accounts -/

variable (s : PipeEndpoint)

/-- The messages not written yet: the one in flight, then the queue. -/
def PipeEndpoint.unfinished : List Bytes :=
  (s.inflightWrite.map (·.data)).toList ++ s.pendingWrites.map (·.data)

def PipeEndpoint.begun : Bytes :=
  (s.inflightWrite.map fun w => w.data.take w.written).getD []

/-- The account of the connection whose messages the endpoint holds: `whole` was written. -/
structure LiveWith (t : Tally) (s : PipeEndpoint) (whole : List Bytes) : Prop where
  wrote : t.wrote = whole.flatten ++ s.begun
  order : (whole ++ s.unfinished).Sublist t.sent
  all : (whole ++ s.unfinished ++ t.overflow ++ t.lost).Perm t.sent

def Live (t : Tally) (s : PipeEndpoint) : Prop := ∃ whole, LiveWith t s whole

/-- The beginning of a message that follows `whole`. -/
def Cut (t : Tally) (whole : List Bytes) (part : Bytes) : Prop :=
  part = [] ∨ ∃ w, (whole ++ [w]).Sublist t.sent ∧ part <+: w ∧ part.length < w.length

/-- The account of a connection that is over: `whole` and the beginning `part` were written. -/
structure SettledWith (t : Tally) (whole : List Bytes) (part : Bytes) : Prop where
  wrote : t.wrote = whole.flatten ++ part
  order : whole.Sublist t.sent
  cut : Cut t whole part
  all : (whole ++ t.overflow ++ t.lost).Perm t.sent

def Settled (t : Tally) : Prop := ∃ whole part, SettledWith t whole part

def PipeEndpoint.Idle : Prop := s.inflightWrite = none ∧ s.pendingWrites = []

theorem settled_none : Settled .none :=
  ⟨[], [], ⟨rfl, List.Sublist.refl _, .inl rfl, List.Perm.refl _⟩⟩

variable {s : PipeEndpoint}

theorem live_none (h : s.Idle) : Live .none s := by
  refine ⟨[], ?_, ?_, ?_⟩ <;> simp [Tally.none, begun, unfinished, h.1, h.2]

theorem Live.settled {t : Tally} (h : Live t s) (hs : s.Idle) : Settled t := by
  obtain ⟨whole, hw⟩ := h
  have hnone : s.unfinished = [] := by simp [unfinished, hs.1, hs.2]
  have hbegun : s.begun = [] := by simp [begun, hs.1]
  refine ⟨whole, [], ?_, ?_, .inl rfl, ?_⟩
  · simpa [hbegun] using hw.wrote
  · simpa [hnone] using hw.order
  · simpa [hnone] using hw.all

theorem Live.of_eq {t : Tally} {s' : PipeEndpoint} (h : Live t s) (hunf : s'.unfinished = s.unfinished)
    (hbeg : s'.begun = s.begun) : Live t s' := by
  obtain ⟨whole, hw⟩ := h
  exact ⟨whole, by rw [hbeg]; exact hw.wrote, by rw [hunf]; exact hw.order, by rw [hunf]; exact hw.all⟩

/-! ## One lemma per change of an account -/

section Changes

variable {t : Tally} {s s' : PipeEndpoint}

variable {w : PendingWrite} {n : Nat}

section

variable (h : Live t s)
include h

theorem Live.push (hi : s'.inflightWrite = s.inflightWrite)
    (hq : s'.pendingWrites = s.pendingWrites ++ [w]) : Live (t.add ⟨[w.data], [], [], []⟩) s' := by
  obtain ⟨whole, hw⟩ := h
  have hunf : s'.unfinished = s.unfinished ++ [w.data] := by simp [unfinished, hi, hq]
  refine ⟨whole, ?_, ?_, ?_⟩
  · simpa [Tally.add, begun, hi] using hw.wrote
  · rw [hunf, ← append_assoc]
    exact hw.order.append (List.Sublist.refl _)
  rw [perm_iff_count]
  intro a
  have hall := hw.all.count_eq a
  simp only [Tally.add, hunf, count_append, append_nil] at hall ⊢
  omega

theorem Live.overflow {v : PendingWrite} {ws : List PendingWrite} (hold : s.pendingWrites = v :: ws)
    (hi : s'.inflightWrite = s.inflightWrite) (hq : s'.pendingWrites = ws ++ [w]) :
    Live (t.add ⟨[w.data], [v.data], [], []⟩) s' := by
  obtain ⟨whole, hw⟩ := h
  have hfront : s.unfinished =
      (s.inflightWrite.map (·.data)).toList ++ v.data :: ws.map (·.data) := by simp [unfinished, hold]
  have hunf : s'.unfinished = (s.inflightWrite.map (·.data)).toList ++ ws.map (·.data) ++ [w.data] := by
    simp [unfinished, hi, hq]
  refine ⟨whole, ?_, ?_, ?_⟩
  · simpa [Tally.add, begun, hi] using hw.wrote
  · have hdrop : (whole ++ ((s.inflightWrite.map (·.data)).toList ++ ws.map (·.data))).Sublist
        (whole ++ s.unfinished) := by
      rw [hfront]
      exact (List.Sublist.refl _).append ((List.Sublist.refl _).append (sublist_cons_self _ _))
    rw [hunf, ← append_assoc]
    exact (hdrop.trans hw.order).append (List.Sublist.refl _)
  · rw [perm_iff_count]
    intro a
    have hall := hw.all.count_eq a
    simp only [Tally.add, hunf, hfront, count_append, count_cons, count_nil] at hall ⊢
    omega

theorem Live.wrotePart (hold : s.inflightWrite = some w)
    (hi : s'.inflightWrite = some ⟨w.data, w.written + n⟩) (hq : s'.pendingWrites = s.pendingWrites) :
    Live (t.add ⟨[], [], [], (w.data.drop w.written).take n⟩) s' := by
  obtain ⟨whole, hw⟩ := h
  have hunf : s'.unfinished = s.unfinished := by simp [unfinished, hold, hi, hq]
  have hbeg : s'.begun = s.begun ++ (w.data.drop w.written).take n := by
    simp [begun, hold, hi, take_add]
  refine ⟨whole, ?_, ?_, ?_⟩
  · rw [hbeg, ← append_assoc, ← hw.wrote]
    rfl
  · simpa [hunf, Tally.add] using hw.order
  · simpa [hunf, Tally.add] using hw.all

theorem Live.wroteAll (hold : s.inflightWrite = some w) (hall : w.written + n = w.data.length)
    (hi : s'.inflightWrite = none) (hq : s'.pendingWrites = s.pendingWrites) :
    Live (t.add ⟨[], [], [], (w.data.drop w.written).take n⟩) s' := by
  obtain ⟨whole, hw⟩ := h
  have hunf : [w.data] ++ s'.unfinished = s.unfinished := by simp [unfinished, hold, hi, hq]
  have hbeg : s.begun ++ (w.data.drop w.written).take n = w.data := by
    have := take_add (l := w.data) (i := w.written) (j := n)
    simp [begun, hold, ← this, hall, take_length]
  refine ⟨whole ++ [w.data], ?_, ?_, ?_⟩
  · have hnone : s'.begun = [] := by simp [begun, hi]
    rw [hnone, append_nil, flatten_append, flatten_singleton]
    nth_rewrite 2 [← hbeg]
    rw [← append_assoc, ← hw.wrote]
    rfl
  · rw [append_assoc, hunf]
    simpa [Tally.add] using hw.order
  · rw [append_assoc whole, hunf]
    simpa [Tally.add] using hw.all

theorem Live.take {ws : List PendingWrite} (hnone : s.inflightWrite = none)
    (hold : s.pendingWrites = w :: ws) (hfresh : w.written = 0) (hi : s'.inflightWrite = some w)
    (hq : s'.pendingWrites = ws) : Live t s' := by
  refine h.of_eq ?_ ?_
  · simp [unfinished, hnone, hold, hi, hq]
  · simp [begun, hnone, hi, hfresh]

theorem Live.clear (hi : s'.inflightWrite = s.inflightWrite) (hq : s'.pendingWrites = []) :
    Live (t.add ⟨[], [], s.pendingWrites.map (·.data), []⟩) s' := by
  obtain ⟨whole, hw⟩ := h
  have hunf : s.unfinished = s'.unfinished ++ s.pendingWrites.map (·.data) := by
    simp [unfinished, hi, hq]
  refine ⟨whole, ?_, ?_, ?_⟩
  · simpa [begun, hi, Tally.add] using hw.wrote
  · refine List.Sublist.trans ?_ (by simpa [Tally.add] using hw.order)
    rw [hunf, ← append_assoc]
    exact sublist_append_left _ _
  · rw [perm_iff_count]
    intro a
    have hall := hw.all.count_eq a
    simp only [Tally.add, hunf, count_append] at hall ⊢
    omega

/-- The connection ends with a message in flight, of which `n` more bytes have gone out. -/
theorem Live.cut (hq : s.pendingWrites = []) (hi : s.inflightWrite = some w) (hn : w.written + n < w.data.length) :
    Settled (t.add ⟨[], [], [w.data], (w.data.drop w.written).take n⟩) := by
  obtain ⟨whole, hw⟩ := h
  have hunf : s.unfinished = [w.data] := by simp [unfinished, hi, hq]
  have hbeg : s.begun ++ (w.data.drop w.written).take n = w.data.take (w.written + n) := by
    simp [begun, hi, take_add]
  have horder := hw.order
  rw [hunf] at horder
  refine ⟨whole, w.data.take (w.written + n), ?_, ?_, .inr ⟨w.data, ?_, ?_, ?_⟩, ?_⟩
  · rw [← hbeg, ← append_assoc, ← hw.wrote]
    rfl
  · simpa [Tally.add] using (sublist_append_left whole [w.data]).trans horder
  · simpa [Tally.add] using horder
  · exact List.take_prefix _ _
  · rw [length_take]
    omega
  rw [perm_iff_count]
  intro a
  have hall := hw.all.count_eq a
  simp only [Tally.add, hunf, count_append] at hall ⊢
  omega

end

end Changes

/-! ## The invariant -/

/-- Nothing that a `send` may read says that a connection is up. -/
def PipeEndpoint.Refusing (s : PipeEndpoint) : Prop :=
  s.connected = false ∧ ∀ i, s.published ≤ i → s.flag[i]? ≠ some true

theorem PipeEndpoint.Refusing.store_false {s' : PipeEndpoint} (h : s.Refusing)
    (hflag : s'.flag = s.flag ++ [false]) (hpub : s'.published = s.published) : s'.Refusing := by
  refine ⟨by simp [connected, hflag], ?_⟩
  intro i hi htrue
  rw [hflag] at htrue
  rw [hpub] at hi
  rcases Nat.lt_trichotomy i s.flag.length with hlt | rfl | hgt
  · rw [List.getElem?_append_left hlt] at htrue
    exact h.2 i hi htrue
  · simp at htrue
  · rw [List.getElem?_eq_none (by simp; omega)] at htrue
    cases htrue

structure Writes (o : List Out) (s : PipeEndpoint) : Prop where
  past : ∀ k, k < s.conn → Settled (tally k o)
  later : ∀ k, s.conn < k → tally k o = .none
  account : Live (tally s.conn o) s ∨ (Settled (tally s.conn o) ∧ s.Idle ∧ s.Refusing)
  cleared : s.connected = false → s.pc ≠ .clear → s.pendingWrites = []
  idle : s.connected = false → s.pc ≠ .clear → s.pc ≠ .reset → s.inflightWrite = none
  /-- the messages in the queue are whole, and not empty -/
  queued : ∀ w ∈ s.pendingWrites, w.written = 0 ∧ 0 < w.data.length
  partly : ∀ w ∈ s.inflightWrite, w.written < w.data.length

namespace Writes

variable {o : List Out} {s s' : PipeEndpoint}

theorem fresh (reconnects : Bool) : Writes [] (fresh reconnects) where
  past := by intro k hk; exact absurd hk (Nat.not_lt_zero k)
  later := by intro k _; rfl
  account := .inl (live_none ⟨rfl, rfl⟩)
  cleared := by intro _ _; rfl
  idle := by intro _ _ _; rfl
  queued := by intro w hw; cases hw
  partly := by intro w hw; cases hw

variable {outs : List Out}

section

variable (h : Writes o s)
include h

theorem same_conn (ho : ∀ k, k ≠ s.conn → tally k outs = .none) (hconn : s'.conn = s.conn)
    (hacc : Live (tally s.conn (o ++ outs)) s' ∨ (Settled (tally s.conn (o ++ outs)) ∧ s'.Idle ∧ s'.Refusing))
    (hcleared : s'.connected = false → s'.pc ≠ .clear → s'.pendingWrites = [])
    (hidle : s'.connected = false → s'.pc ≠ .clear → s'.pc ≠ .reset → s'.inflightWrite = none)
    (hqueued : ∀ w ∈ s'.pendingWrites, w.written = 0 ∧ 0 < w.data.length)
    (hpartly : ∀ w ∈ s'.inflightWrite, w.written < w.data.length) : Writes (o ++ outs) s' where
  past := by
    intro k hk
    rw [hconn] at hk
    rw [tally_append, ho k (by omega), Tally.add_none]
    exact h.past k hk
  later := by
    intro k hk
    rw [hconn] at hk
    rw [tally_append, ho k (by omega), Tally.add_none]
    exact h.later k hk
  account := by rw [hconn]; exact hacc
  cleared := hcleared
  idle := hidle
  queued := hqueued
  partly := hpartly

theorem begin_conn (ho : ∀ k, tally k outs = .none) (hs : s.Idle)
    (hconn : s'.conn = s.conn + 1) (hi : s'.inflightWrite = none) (hq : s'.pendingWrites = []) :
    Writes (o ++ outs) s' := by
  have hsame : ∀ k, tally k (o ++ outs) = tally k o := by
    intro k
    rw [tally_append, ho, Tally.add_none]
  refine ⟨?_, ?_, ?_, ?_, ?_, ?_, ?_⟩
  · intro k hk
    rw [hsame]
    rcases Nat.lt_or_ge k s.conn with hlt | hge
    · exact h.past k hlt
    obtain rfl : k = s.conn := by omega
    rcases h.account with hlive | ⟨hset, -, -⟩
    · exact hlive.settled hs
    · exact hset
  · intro k hk
    rw [hsame]
    exact h.later k (by omega)
  · rw [hsame, h.later _ (by omega)]
    exact .inl (live_none ⟨hi, hq⟩)
  · intro _ _
    exact hq
  · intro _ _ _
    exact hi
  · intro w hw
    rw [hq] at hw
    cases hw
  · intro w hw
    rw [hi] at hw
    cases hw

theorem quiet (ho : ∀ k, tally k outs = .none) (hconn : s'.conn = s.conn)
    (hi : s'.inflightWrite = s.inflightWrite) (hq : s'.pendingWrites = s.pendingWrites)
    (hrefuse : s.Refusing → s'.Refusing) (hdown : s'.connected = false → s'.pc ≠ .clear →
      s.connected = false ∧ s.pc ≠ .clear ∧ (s'.pc ≠ .reset → s.pc ≠ .reset)) : Writes (o ++ outs) s' := by
  have hsame : tally s.conn (o ++ outs) = tally s.conn o := by
    rw [tally_append, ho, Tally.add_none]
  refine h.same_conn (fun k _ => ho k) hconn ?_ ?_ ?_ ?_ ?_
  · rw [hsame]
    rcases h.account with hlive | ⟨hset, hidle, href⟩
    · exact .inl (hlive.of_eq (by simp [unfinished, hi, hq]) (by simp [begun, hi]))
    · exact .inr ⟨hset, ⟨hi ▸ hidle.1, hq ▸ hidle.2⟩, hrefuse href⟩
  · intro hc hpc
    obtain ⟨hc, hpc, -⟩ := hdown hc hpc
    rw [hq]
    exact h.cleared hc hpc
  · intro hc hpc hreset
    obtain ⟨hc, hpc, himp⟩ := hdown hc hpc
    rw [hi]
    exact h.idle hc hpc (himp hreset)
  · rw [hq]
    exact h.queued
  · rw [hi]
    exact h.partly

theorem store_false (ho : ∀ k, tally k outs = .none) (hflag : s'.flag = s.flag ++ [false])
    (hpub : s'.published = s.published) (hi : s'.inflightWrite = s.inflightWrite)
    (hq : s'.pendingWrites = s.pendingWrites)
    (hdown : s'.pc ≠ .clear → s.connected = false ∧ s.pc ≠ .clear ∧ (s'.pc ≠ .reset → s.pc ≠ .reset)) :
    Writes (o ++ outs) s' :=
  h.quiet ho (by simp [conn, hflag]) hi hq (fun href => href.store_false hflag hpub) fun _ hpc => hdown hpc

theorem send (hord : Ordered s) {m : Message} {seen : Nat}
    (hseen : s.published ≤ seen) : Writes (o ++ (s.send m seen).2) (s.send m seen).1 := by
  have hw : 0 < (composeMessage m).length := by simp [composeMessage, Wire.putU32]
  unfold PipeEndpoint.send
  split
  · exact h.quiet (fun _ => rfl) rfl rfl rfl (fun href => href) fun hc hpc => ⟨hc, hpc, fun hr => hr⟩
  next htrue =>
  have htrue : s.flag[seen]? = some true := by simpa using htrue
  obtain ⟨hconn, hopen⟩ := hord.seen seen hseen htrue
  have hlive : Live (tally s.conn o) s := by
    rcases h.account with hlive | ⟨-, -, href⟩
    · exact hlive
    · exact absurd htrue (href.2 seen hseen)
  have hdown : s.connected = false → s.pc ≠ .clear → False := by
    intro hc hpc
    rcases hopen with hup | hclear
    · rw [hup] at hc
      cases hc
    · exact hpc hclear
  -- the message goes behind what is left of the queue
  have hpushed : ∀ ws outs, (∀ v ∈ ws, v ∈ s.pendingWrites) →
    (∀ k, k ≠ s.conn → tally k outs = .none) →
      Live ((tally s.conn o).add (tally s.conn outs)) { s with pendingWrites := ws ++ [⟨composeMessage m, 0⟩] } →
      Writes (o ++ outs) { s with pendingWrites := ws ++ [⟨composeMessage m, 0⟩] } := by
    intro ws outs hws ho hlive
    refine h.same_conn ho rfl (.inl ?_) (fun hc hpc => (hdown hc hpc).elim)
      (fun hc hpc _ => (hdown hc hpc).elim) ?_ h.partly
    · rw [tally_append]
      exact hlive
    · exact forall_mem_append.mpr ⟨fun v hv => h.queued v (hws v hv), forall_mem_singleton.mpr ⟨rfl, hw⟩⟩
  dsimp only
  rw [hconn]
  split
  · next hfull =>
    cases hold : s.pendingWrites with
    | nil => rw [hold] at hfull; cases hfull
    | cons v ws =>
      refine hpushed ws _ (fun v hv => by rw [hold]; exact mem_cons_of_mem _ hv) ?_ ?_
      · intro k hk
        simp [Ne.symm hk]
      have hone : tally s.conn [.overflow s.conn v.data, .sent s.conn (composeMessage m)] =
          ⟨[composeMessage m], [v.data], [], []⟩ := by simp [Tally.add, Tally.none]
      rw [List.head?_cons, map_some, toList_some, singleton_append, hone]
      exact hlive.overflow (w := ⟨composeMessage m, 0⟩) hold rfl rfl
  · refine hpushed s.pendingWrites _ (fun _ hv => hv) ?_ ?_
    · intro k hk
      simp [Ne.symm hk]
    have hone : tally s.conn [.sent s.conn (composeMessage m)] = ⟨[composeMessage m], [], [], []⟩ := by simp
    rw [hone]
    exact hlive.push (w := ⟨composeMessage m, 0⟩) rfl rfl

theorem closed (hord : Ordered s) (hpc : s.pc = .reset) (ho : ∀ k, k ≠ s.conn → tally k outs = .none)
    (hset : s.pendingWrites = [] → Settled (tally s.conn (o ++ outs))) : Writes (o ++ outs) s.closed := by
  have hdown := hord.down (.inr (.inr hpc))
  have hqueue : s.pendingWrites = [] := h.cleared hdown (by rw [hpc]; simp)
  refine h.same_conn ho rfl (.inr ⟨hset hqueue, ⟨rfl, hqueue⟩, hdown, ?_⟩) ?_ ?_ h.queued ?_
  · exact hord.nothing_seen hdown (by rw [hpc]; simp)
  · intro _ _
    exact hqueue
  · intro _ _ _
    rfl
  · intro w hw
    cases hw

theorem live_of_inflight {w : PendingWrite} (hw : s.inflightWrite = some w) : Live (tally s.conn o) s := by
  rcases h.account with hlive | ⟨-, hidle, -⟩
  · exact hlive
  · rw [hidle.1] at hw
    cases hw

theorem step_of_effect (hord : Ordered s) {r : PipeEndpoint × List Out} (he : Effect s r) : Writes (o ++ r.2) r.1 := by
  cases he with
  | skip => simpa using h
  | send m seen hseen => exact h.send hord hseen
  | move reading writing pc hr hpc =>
    exact h.quiet (fun _ => rfl) rfl rfl rfl (fun href => href) fun hc _ => ⟨hc,
      (running_ne hr).1, fun _ => (running_ne hr).2⟩
  | drop reading hr | full hr hc hf =>
    exact h.store_false (fun _ => rfl) rfl rfl rfl rfl fun hpc => absurd rfl hpc
  | prepare pc hpc hnext =>
    refine h.store_false (fun _ => rfl) rfl rfl rfl rfl ?_
    intro _
    exact ⟨hord.down (.inl hpc), by rw [hpc]; simp, fun _ => by rw [hpc]; simp⟩
  | connect hpc =>
    have hdown := hord.down (.inl hpc)
    have hqueue := h.cleared hdown (by rw [hpc]; simp)
    have hnone := h.idle hdown (by rw [hpc]; simp) (by rw [hpc]; simp)
    refine h.begin_conn (fun _ => rfl) ⟨hnone, hqueue⟩ ?_ hnone hqueue
    simp [setConnected, prepareForConnect, conn, store, goto]
  | finalize hr hc =>
    obtain ⟨hclear, hreset⟩ := running_ne hr
    have hqueue := h.cleared hc hclear
    have hnone := h.idle hc hclear hreset
    refine h.begin_conn (fun _ => rfl) ⟨hnone, hqueue⟩ ?_ hnone hqueue
    simp [setConnected]
  | receive reading d pc hr hc hpc hok =>
    refine h.quiet (fun k => tally_received k s.conn d _) rfl rfl rfl (fun href => href) ?_
    intro hdown _
    exact absurd (hdown.symm.trans hc) (by simp)
  | oversize reading d hr hc hok =>
    refine h.store_false ?_ rfl rfl rfl rfl fun hpc => absurd rfl hpc
    intro k
    rw [← cons_append, tally_append, tally_received]
    rfl
  | wrote writing pc w n hr hpc hw hn =>
    have hlive := h.live_of_inflight hw
    have hone : tally s.conn [.wrote s.conn ((w.data.drop w.written).take n)] =
        ⟨[], [], [], (w.data.drop w.written).take n⟩ := by simp
    refine h.same_conn ?_ rfl (.inl ?_) ?_ ?_ h.queued ?_
    · intro k hk
      simp [Ne.symm hk]
    · rw [tally_append, hone]
      by_cases hall : w.written + n = w.data.length
      · exact hlive.wroteAll hw hall (if_pos hall) rfl
      · exact hlive.wrotePart hw (if_neg hall) rfl
    · intro hc _
      exact h.cleared hc (running_ne hr).1
    · intro hc _ _
      have hnone := h.idle hc (running_ne hr).1 (running_ne hr).2
      rw [hw] at hnone
      cases hnone
    · intro v hv
      have hlt := h.partly w hw
      by_cases hall : w.written + n = w.data.length
      · simp [goto, hall] at hv
      simp only [goto, hall, if_false, mem_some_iff] at hv
      rw [← hv]
      show w.written + n < w.data.length
      omega
  | takeNone hr hq =>
    refine h.quiet (fun _ => rfl) rfl rfl rfl ?_ fun hc _ => ⟨hc, (running_ne hr).1, fun _ => (running_ne hr).2⟩
    intro href
    exact ⟨href.1, fun i hi => href.2 i (Nat.le_trans (Nat.le_sub_one_of_lt hord.bound) hi)⟩
  | take w ws hr hi hq =>
    obtain ⟨hfresh, hlen⟩ := h.queued w (by rw [hq]; simp)
    refine h.same_conn (fun _ _ => rfl) rfl (.inl ?_) ?_ ?_ ?_ ?_
    · rw [append_nil]
      rcases h.account with hlive | ⟨-, hidle, -⟩
      · exact hlive.take hi hq hfresh rfl rfl
      · rw [hidle.2] at hq
        cases hq
    · intro hc _
      rw [h.cleared hc (running_ne hr).1] at hq
      cases hq
    · intro hc _ _
      rw [h.cleared hc (running_ne hr).1] at hq
      cases hq
    · intro v hv
      exact h.queued v (by rw [hq]; exact mem_cons_of_mem _ hv)
    · intro v hv
      rw [mem_some_iff] at hv
      rw [← hv, hfresh]
      exact hlen
  | clear hpc =>
    refine h.same_conn (fun k hk => tally_losts_other hk _) rfl ?_ (fun _ _ => rfl) ?_ ?_ h.partly
    · simp only [clearPending, tally_append, tally_losts]
      rcases h.account with hlive | ⟨hset, hidle, href⟩
      · exact .inl (hlive.clear rfl rfl)
      refine .inr ⟨?_, ⟨hidle.1, rfl⟩, href.1, ?_⟩
      · simpa [hidle.2, Tally.add] using hset
      · intro i hi
        exact href.2 i (Nat.le_trans (Nat.le_sub_one_of_lt hord.bound) hi)
    · intro _ _ hreset
      exact absurd rfl hreset
    · intro w hw
      cases hw
  | reset hpc hw =>
    refine h.closed hord hpc (fun _ _ => rfl) fun hqueue => ?_
    rw [append_nil]
    rcases h.account with hlive | ⟨hset, -, -⟩
    · exact hlive.settled ⟨hw, hqueue⟩
    · exact hset
  | resetIdle w hpc hw =>
    refine h.closed hord hpc ?_ fun hqueue => ?_
    · intro k hk
      simp [Ne.symm hk]
    · have hcut := (h.live_of_inflight hw).cut (n := 0) hqueue hw (h.partly w hw)
      simpa [tally_append] using hcut
  | resetCut w n hpc hw hn hpart =>
    have hlt := h.partly w hw
    refine h.closed hord hpc ?_ fun hqueue => ?_
    · intro k hk
      simp [Ne.symm hk]
    · have hcut := (h.live_of_inflight hw).cut (n := n) hqueue hw (by omega)
      simpa [tally_append, Tally.add, Tally.none] using hcut
  | resetDone w n hpc hw hall =>
    refine h.closed hord hpc ?_ fun hqueue => ?_
    · intro k hk
      simp [Ne.symm hk]
    · have hlive : Live _ s.closed := (h.live_of_inflight hw).wroteAll hw hall rfl rfl
      simpa [tally_append] using hlive.settled ⟨rfl, hqueue⟩

end

end Writes

/-! ## Runs -/

section

variable (reconnects : Bool) (es : List Call) (hk : (endpoint reconnects).Meets KernelOk (endpoint reconnects).init es)
include reconnects es hk

theorem writes_run : Writes (raised reconnects es) (after reconnects es) :=
  effect_run reconnects es hk (Writes.fresh reconnects) Writes.step_of_effect

/-- A `send` that reads `true` puts its message into the queue of the connection that is up, or
whose end has not reached the queue yet. -/
def Accepted (r : Record PipeEndpoint Call Out) : Prop :=
  ∀ m seen, r.call = .send m seen → r.before.flag[seen]? = some true →
    Out.sent r.before.conn (composeMessage m) ∈ r.outs

theorem accepted_run : ∀ r ∈ (endpoint reconnects).trace (endpoint reconnects).init es, Accepted r := by
  refine ((endpoint reconnects).inv_run (J := fun h s => Ordered s ∧ ∀ r ∈ h, Accepted r)
    ⟨Ordered.fresh reconnects, by simp⟩ ?_ es hk).2
  intro h s c hinv hc
  refine ⟨hinv.1.step_of_effect (step_effect hc), forall_mem_append.mpr ⟨hinv.2, forall_mem_singleton.mpr ?_⟩⟩
  intro m seen hcall htrue
  change s.flag[seen]? = some true at htrue
  subst hcall
  have hconn := (hinv.1.seen seen hc.1 htrue).1
  change Out.sent s.conn (composeMessage m) ∈ (s.send m seen).2
  rw [← hconn]
  unfold PipeEndpoint.send
  rw [if_neg (by simpa using htrue)]
  split <;> simp

end

def waitingOn (k : Nat) (s : PipeEndpoint) : List Bytes := if s.conn = k then s.unfinished else []

/-- For every run and every connection `k`. The bytes written on it are whole messages, in order some
of those sent on it, and at most one proper beginning of the message that follows; every message sent
on it is written, held, was dropped by a full queue or lost in the disconnect; and a `send` that
finds the flag set has sent on the connection that is up. -/
theorem whole_messages_written (reconnects : Bool) (es : List Call)
    (hk : (endpoint reconnects).Meets KernelOk (endpoint reconnects).init es) : (∀ k, ∃ whole part,
      (tally k (raised reconnects es)).wrote = whole.flatten ++ part ∧
        whole.Sublist (tally k (raised reconnects es)).sent ∧ Cut (tally k (raised reconnects es)) whole part ∧
        (whole ++ waitingOn k (after reconnects es) ++ (tally k (raised reconnects es)).overflow ++
          (tally k (raised reconnects es)).lost).Perm (tally k (raised reconnects es)).sent) ∧
    ∀ r ∈ (endpoint reconnects).trace (endpoint reconnects).init es, Accepted r := by
  refine ⟨?_, accepted_run reconnects es hk⟩
  intro k
  have hinv := writes_run reconnects es hk
  generalize raised reconnects es = o at hinv
  generalize after reconnects es = s at hinv
  have hover : Settled (tally k o) → waitingOn k s = [] → ∃ whole part,
      (tally k o).wrote = whole.flatten ++ part ∧ whole.Sublist (tally k o).sent ∧ Cut (tally k o) whole part ∧
        (whole ++ waitingOn k s ++ (tally k o).overflow ++ (tally k o).lost).Perm (tally k o).sent := by
    intro ⟨whole, part, hset⟩ hwait
    refine ⟨whole, part, hset.wrote, hset.order, hset.cut, ?_⟩
    simpa [hwait] using hset.all
  rcases Nat.lt_trichotomy k s.conn with hlt | rfl | hgt
  · exact hover (hinv.past k hlt) (if_neg (by omega))
  · rcases hinv.account with ⟨whole, hlive⟩ | ⟨hset, hidle, -⟩
    · refine ⟨whole, s.begun, hlive.wrote, ?_, ?_, ?_⟩
      · exact (sublist_append_left _ _).trans hlive.order
      · cases hi : s.inflightWrite with
        | none => exact .inl (by simp [begun, hi])
        | some w =>
          have hlt := hinv.partly w hi
          refine .inr ⟨w.data, ?_, ?_, ?_⟩
          · refine List.Sublist.trans ?_ hlive.order
            simp [unfinished, hi]
          · simpa [begun, hi] using List.take_prefix w.written w.data
          · simp only [begun, hi, map_some, getD_some, length_take]
            omega
      · simpa [waitingOn] using hlive.all
    · exact hover hset (by simp [waitingOn, unfinished, hidle.1, hidle.2])
  · refine hover ?_ (if_neg (by omega))
    rw [hinv.later k hgt]
    exact settled_none

/-- Two connections: of two messages sent on the first, one is written in two parts and one is lost
in the disconnect; a message is sent and written on the second. -/
def twoConnections : List Call :=
  [.startConnect .connected, .send ⟨1, [7]⟩ 2, .send ⟨2, []⟩ 2, .wait .wake, .startRead .pending,
    .pumpWrites (.ok 0), .pumpWrites (.ok 4), .pumpWrites .pending, .wait (.write (some 5)),
    .startRead .pending, .pumpWrites (.ok 0), .pumpWrites .failed, .clearPending, .resetConnection 0,
    .startConnect .pending, .wait (.io true none), .send ⟨3, []⟩ 5, .startRead .pending,
    .pumpWrites (.ok 0), .pumpWrites (.ok 8)]

theorem whole_messages_written_twice : (endpoint true).Meets KernelOk (endpoint true).init twoConnections ∧
      (tally 1 (raised true twoConnections)).wrote = composeMessage ⟨1, [7]⟩ ∧
      (tally 2 (raised true twoConnections)).wrote = composeMessage ⟨3, []⟩ ∧
      ∃ (whole : List Bytes) (part : Bytes), (tally 1 (raised true twoConnections)).wrote = whole.flatten ++ part ∧
        whole.Sublist (tally 1 (raised true twoConnections)).sent := by
  have hk : (endpoint true).Meets KernelOk (endpoint true).init twoConnections := by decide +kernel
  obtain ⟨whole, part, hwrote, horder, -⟩ := (whole_messages_written true twoConnections hk).1 1
  exact ⟨hk, by decide +kernel, by decide +kernel, whole, part, hwrote, horder⟩

/-! ## From one endpoint to the other -/

theorem Writes.wrote_in_order {o : List Out} {s : PipeEndpoint} (h : Writes o s) (k : Nat) :
    ∃ ms : List Bytes, ms.Sublist (tally k o).sent ∧ (tally k o).wrote <+: ms.flatten := by
  have hover : Settled (tally k o) → ∃ ms : List Bytes, ms.Sublist (tally k o).sent ∧
    (tally k o).wrote <+: ms.flatten := by
    rintro ⟨whole, part, hset⟩
    rcases hset.cut with rfl | ⟨w, horder, hpart, -⟩
    · exact ⟨whole, hset.order, by simp [hset.wrote]⟩
    · exact ⟨_, horder, by simpa [hset.wrote] using hpart⟩
  rcases Nat.lt_trichotomy k s.conn with hlt | rfl | hgt
  · exact hover (h.past k hlt)
  · rcases h.account with ⟨whole, hlive⟩ | ⟨hset, -⟩
    · refine ⟨_, hlive.order, ?_⟩
      rw [hlive.wrote, flatten_append, prefix_append_right_inj]
      cases hi : s.inflightWrite with
      | none => simp [begun, hi]
      | some w =>
        have htake := take_prefix w.written w.data
        simpa [begun, unfinished, hi] using htake.trans (prefix_append _ _)
    · exact hover hset
  · exact hover (by rw [h.later k hgt]; exact settled_none)

/-- From one endpoint to the other: however the sender's messages are interleaved with its loop, cut
by the pipe and read by the receiver, those handled were all sent, in this order, and none is taken
for an oversized one. -/
theorem handled_as_sent (sends receives : Bool) (es fs : List Call)
    (hsends : (endpoint sends).Meets KernelOk (endpoint sends).init es)
    (hreceives : (endpoint receives).Meets KernelOk (endpoint receives).init fs) (k j : Nat) (msgs : List Message)
    (hsize : ∀ m ∈ msgs, m.data.length ≤ maxMessageSize)
    (hsent : (tally k (raised sends es)).sent = msgs.map composeMessage)
    (hpipe : receivedOn j (raised receives fs) <+: (tally k (raised sends es)).wrote) :
    (handledOn j (raised receives fs)).Sublist msgs ∧ Out.oversize j ∉ raised receives fs := by
  have hreads := reads_run receives fs hreceives
  obtain ⟨encoded, horder, hwrote⟩ := (writes_run sends es hsends).wrote_in_order k
  rw [hsent] at horder
  obtain ⟨ms, hms, rfl⟩ := sublist_map_iff.mp horder
  obtain ⟨rest, hrest⟩ := hpipe.trans hwrote
  have hdrain := drain_messages (fun m hm => hsize m (hms.subset hm)) []
  rw [append_nil, drain_nil, ← hrest] at hdrain
  have hok : (framing.drain (receivedOn j (raised receives fs))).ok = true := by
    by_contra hbad
    rw [framing.drain_append_failed (by simpa using hbad)] at hdrain
    simp [Drained.after] at hdrain
  constructor
  · rw [framing.drain_append hok] at hdrain
    have hitems := congrArg Drained.items hdrain
    simp only [Drained.after, hreads.items j, append_nil] at hitems
    exact (hitems ▸ sublist_append_left _ _).trans hms
  · rw [← hreads.failed j, hok]
    simp

theorem handled_as_sent_first : (handledOn 1 (raised false [.startConnect .connected, .wait .wake,
      .startRead (.ok (composeMessage ⟨1, [7]⟩))])).Sublist [⟨1, [7]⟩, ⟨2, []⟩] :=
  (handled_as_sent true false twoConnections _ (by decide +kernel) (by decide +kernel) 1 1 [⟨1, [7]⟩, ⟨2, []⟩]
    (by decide +kernel) (by decide +kernel) (by decide +kernel)).1

end TrustTunnel.Pipe
