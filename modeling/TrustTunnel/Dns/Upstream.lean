import TrustTunnel.Lib.System

/-!
# Dns.Upstream

Opening and closing connections on the server side of the DNS handler
(`DnsHandlerServerUpstreamBase` in `core/src/dns_handler.cpp`): which connections are in its table and
what it reports about them.

A handler may call back. `close_connection` waits for `on_upstream_connection_closed`, and
`on_async_task` waits for the handler of each event it raises; what they have left to do then is part
of the state (`hooks`, `loop`), and `resume` is the return of the innermost handler. Between two
`resume`s any calls may come, so that every re-entry is a run. The task itself is started by the event
loop, when no handler is running.
-/

namespace TrustTunnel.Dns

open Lib List

def plainDnsPort : Nat := 53

/-- Where `on_async_task` is: what is left of `to_open`, or of `to_close`. -/
inductive Loop where
  | idle
  | opening (rest : List Nat)
  | closing (rest : List Nat)
  deriving DecidableEq

namespace Loop

def toOpen : Loop → List Nat
  | opening rest => rest
  | _ => []

def toClose : Loop → List Nat
  | closing rest => rest
  | _ => []

end Loop

/-- `hooks` are the calls of `close_connection` that wait for `on_upstream_connection_closed`,
innermost first, with their `async`. -/
structure DnsHandlerServerUpstreamBase where
  nextId : Nat
  connections : List Nat
  newConnections : List Nat
  closedConnections : List Nat
  task : Bool
  hooks : List (Nat × Bool)
  loop : Loop
  deriving DecidableEq

variable (s : DnsHandlerServerUpstreamBase)

namespace DnsHandlerServerUpstreamBase

inductive Output where
  | returned (id : Nat)
  | connectionOpened (id : Nat)
  | connectionClosed (id : Nat)
  deriving DecidableEq

inductive Call where
  | openConnection (dstport : Nat)
  | closeConnection (id : Nat) (async : Bool)
  | asyncTask
  | resume
  | takeId
  deriving DecidableEq

abbrev Part := DnsHandlerServerUpstreamBase × List Output

def initial : DnsHandlerServerUpstreamBase := ⟨1, [], [], [], false, [], .idle⟩

def openConnection (dstport : Nat) : Part :=
  if dstport ≠ plainDnsPort then (s, [])
  else
    ({ s with
        nextId := s.nextId + 1
        connections := s.connections ++ [s.nextId]
        newConnections := s.newConnections ++ [s.nextId]
        task := true },
      [.returned s.nextId])

/-- `close_connection`, up to the call of `on_upstream_connection_closed`. -/
def closeConnection (id : Nat) (async : Bool) : Part :=
  if id ∈ s.newConnections then
    ({ s with newConnections := s.newConnections.filter (· ≠ id) }, [])
  else if id ∉ s.connections then (s, [])
  else
    ({ s with connections := s.connections.filter (· ≠ id), hooks := (id, async) :: s.hooks }, [])

/-- `close_connection`, after `on_upstream_connection_closed` returned. -/
def finishClose (id : Nat) : Bool → Part
  | false => (s, [.connectionClosed id])
  | true => ({ s with closedConnections := s.closedConnections ++ [id], task := true }, [])

def onAsyncTask : DnsHandlerServerUpstreamBase :=
  { s with task := false, newConnections := [], loop := .opening s.newConnections }

def advance : Part :=
  match s.loop with
  | .idle => (s, [])
  | .opening (id :: rest) => ({ s with loop := .opening rest }, [.connectionOpened id])
  | .opening [] => ({ s with closedConnections := [], loop := .closing s.closedConnections }, [])
  | .closing (id :: rest) => ({ s with loop := .closing rest }, [.connectionClosed id])
  | .closing [] => ({ s with loop := .idle }, [])

def resume : Part :=
  match s.hooks with
  | (id, async) :: hooks => finishClose { s with hooks := hooks } id async
  | [] => s.advance

def step : Call → Part
  | .openConnection dstport => s.openConnection dstport
  | .closeConnection id async => s.closeConnection id async
  | .asyncTask => if s.task ∧ s.hooks = [] ∧ s.loop = .idle then (s.onAsyncTask, []) else (s, [])
  | .resume => s.resume
  | .takeId => ({ s with nextId := s.nextId + 1 }, [])

def upstream : System DnsHandlerServerUpstreamBase Call Output := ⟨initial, step⟩

abbrev History := List (Record DnsHandlerServerUpstreamBase Call Output)

/-! ## What is due, and what was asked for -/

def opensDue : List Nat := s.newConnections ++ s.loop.toOpen

def closesDue : List Nat :=
  s.hooks.map Prod.fst ++ s.closedConnections ++ s.loop.toClose

def AtRest : Prop := s.hooks = [] ∧ s.loop = .idle ∧ s.task = false

open System

def Released (h : History) (id : Nat) : Prop :=
  ∃ h₁ r h₂, h = h₁ ++ r :: h₂ ∧ .returned id ∈ outputs h₁ ∧ ∃ async,
    r.call = .closeConnection id async

variable {h : History} {s : DnsHandlerServerUpstreamBase}

theorem released_snoc {r : Record DnsHandlerServerUpstreamBase Call Output} {id : Nat} :
    Released (h ++ [r]) id ↔ Released h id ∨
      .returned id ∈ outputs h ∧ ∃ async, r.call = .closeConnection id async := by
  constructor
  · rintro ⟨h₁, q, h₂, heq, hopen, hclose⟩
    rcases eq_nil_or_concat h₂ with rfl | ⟨h₃, z, rfl⟩
    · obtain ⟨rfl, hq⟩ := append_inj' heq rfl
      cases hq
      exact .inr ⟨hopen, hclose⟩
    · rw [concat_eq_append, ← cons_append, ← append_assoc] at heq
      exact .inl ⟨h₁, q, h₃, (append_inj' heq rfl).1, hopen, hclose⟩
  · rintro (⟨h₁, q, h₂, rfl, hopen, hclose⟩ | ⟨hopen, hclose⟩)
    · exact ⟨h₁, q, h₂ ++ [r], by simp, hopen, hclose⟩
    · exact ⟨h, r, [], rfl, hopen, hclose⟩

/-- No connection is closed before its `CONNECTION_OPENED` was raised; with `async` it may be one that
the task is about to report. -/
def Timely (s : DnsHandlerServerUpstreamBase) : Call → Prop
  | .closeConnection id async =>
    id ∉ s.newConnections ∧ (async = true ∨ id ∉ s.loop.toOpen ∨ id ∉ s.connections)
  | _ => True

instance (s : DnsHandlerServerUpstreamBase) : (e : Call) → Decidable (s.Timely e)
  | .closeConnection id async => inferInstanceAs (Decidable (id ∉ s.newConnections ∧
      (async = true ∨ id ∉ s.loop.toOpen ∨ id ∉ s.connections)))
  | .openConnection _ | .asyncTask | .resume | .takeId => isTrue trivial

/-- What is promised about a connection that was opened and then closed. -/
structure Settled (o : List Output) (s : DnsHandlerServerUpstreamBase) (id : Nat) : Prop where
  gone : id ∉ s.connections
  once : o.count (.connectionClosed id) + s.closesDue.count id = 1
  last : ∀ a b, o = a ++ .connectionClosed id :: b → .connectionOpened id ∉ b
  /-- None is due that would come after `CONNECTION_CLOSED`. -/
  noneDue : .connectionClosed id ∈ o ∨ (id, false) ∈ s.hooks → id ∉ s.opensDue

/-! ## The invariant -/

/-- `R` are the connections that were opened and then closed, `o` is what was raised. -/
structure Inv (R : Nat → Prop) (o : List Output) (s : DnsHandlerServerUpstreamBase) : Prop where
  fresh : ∀ id, .returned id ∈ o → id < s.nextId
  returned : ∀ id, R id → .returned id ∈ o
  connections : ∀ id, id ∈ s.connections ↔ .returned id ∈ o ∧ ¬R id
  new : ∀ id ∈ s.newConnections, id ∈ s.connections
  toOpen : ∀ id ∈ s.loop.toOpen, .returned id ∈ o
  count : ∀ id, ¬R id → o.count (.connectionClosed id) + s.closesDue.count id = 0
  once : ∀ id, R id → o.count (.connectionClosed id) + s.closesDue.count id = 1
  last : ∀ id a b, o = a ++ .connectionClosed id :: b → .connectionOpened id ∉ b
  noneDue : ∀ id, .connectionClosed id ∈ o ∨ (id, false) ∈ s.hooks → id ∉ s.opensDue
  newQueued : s.newConnections ≠ [] → s.task = true
  closedQueued : s.closedConnections ≠ [] → s.task = true ∨ ∃ rest, s.loop = .opening rest

theorem inv_initial : Inv (fun _ => False) [] initial where
  fresh := nofun
  returned := nofun
  connections := by simp [initial]
  new := nofun
  toOpen := nofun
  count := fun _ _ => rfl
  once := nofun
  last := by simp
  noneDue := by simp [initial]
  newQueued := by simp [initial]
  closedQueued := by simp [initial]

section Steps

variable {R : Nat → Prop} {o : List Output} {s : DnsHandlerServerUpstreamBase}

theorem Inv.of_iff (h : Inv R o s) {R' : Nat → Prop} (hR : ∀ id, R' id ↔ R id) : Inv R' o s := by
  have heq : R' = R := funext fun id => propext (hR id)
  rw [heq]
  exact h

variable {id : Nat} {async : Bool}

theorem Inv.released (h : Inv R o s) (hid : .connectionClosed id ∈ o ∨ id ∈ s.closesDue) : R id := by
  by_contra hR
  have hzero := h.count id hR
  rcases hid with hid | hid
  all_goals
    have := count_pos_iff.mpr hid
    omega

theorem mem_closesDue_of_hook (h : (id, async) ∈ s.hooks) : id ∈ s.closesDue := by
  simp only [closesDue, mem_append, mem_map]
  exact .inl (.inl ⟨_, h, rfl⟩)

theorem last_append {new : List Output} (hlast : ∀ a b, o = a ++ .connectionClosed id :: b →
    .connectionOpened id ∉ b)
    (hnew : .connectionClosed id ∈ o → .connectionOpened id ∉ new)
    (hinside : ∀ a b, new = a ++ .connectionClosed id :: b → .connectionOpened id ∉ b) :
    ∀ a b, o ++ new = a ++ .connectionClosed id :: b → .connectionOpened id ∉ b := by
  intro a b heq
  rcases append_eq_append_iff.mp heq with ⟨c, rfl, hnew'⟩ | ⟨c, ho, hb⟩
  · exact hinside c b hnew'
  cases c with
  | nil => exact hinside [] b hb.symm
  | cons x c =>
    simp only [cons_append, List.cons.injEq] at hb
    obtain ⟨rfl, rfl⟩ := hb
    rw [mem_append, not_or]
    refine ⟨hlast a c ho, hnew ?_⟩
    rw [ho]
    simp

theorem last_single (x : Output) (id : Nat) :
    ∀ a b, [x] = a ++ .connectionClosed id :: b → .connectionOpened id ∉ b := by
  intro a b heq
  have hlen := congrArg List.length heq
  simp only [length_cons, length_nil, length_append] at hlen
  have hb : b = [] := length_eq_zero_iff.mp (by omega)
  simp [hb]

theorem Inv.settled (h : Inv R o s) (hR : R id) : Settled o s id :=
  ⟨fun hc => ((h.connections id).mp hc).2 hR, h.once id hR, h.last id, h.noneDue id⟩

open Output

theorem Inv.openConnection (h : Inv R o s) (dstport : Nat) :
    Inv R (o ++ (s.openConnection dstport).2) (s.openConnection dstport).1 := by
  unfold DnsHandlerServerUpstreamBase.openConnection
  split
  · rw [append_nil]
    exact h
  have hfresh : .returned s.nextId ∉ o := fun hmem => Nat.lt_irrefl _ (h.fresh _ hmem)
  have hnot : ¬R s.nextId := fun hR => hfresh (h.returned _ hR)
  refine ⟨fun id hid => ?_, fun id hR => ?_, fun id => ?_, fun id hid => ?_, fun id hid => ?_,
    fun id hR => ?_, fun id hR => ?_, fun id => ?_, fun id hid => ?_, fun _ => rfl, fun _ => .inl rfl⟩
  · simp only [mem_append, mem_singleton, returned.injEq] at hid
    rcases hid with hid | rfl
    · exact Nat.lt_succ_of_lt (h.fresh id hid)
    · exact Nat.lt_succ_self _
  · exact mem_append_left _ (h.returned id hR)
  · simp only [mem_append, mem_singleton, returned.injEq, h.connections id]
    constructor
    · rintro (⟨hid, hR⟩ | rfl)
      · exact ⟨.inl hid, hR⟩
      · exact ⟨.inr rfl, hnot⟩
    · rintro ⟨hid | rfl, hR⟩
      · exact .inl ⟨hid, hR⟩
      · exact .inr rfl
  · simp only [mem_append] at hid ⊢
    exact hid.imp (h.new id) fun heq => heq
  · exact mem_append_left _ (h.toOpen id hid)
  · rw [count_append]
    exact h.count id hR
  · rw [count_append]
    exact h.once id hR
  · exact last_append (h.last id) (fun _ => by simp) (last_single _ id)
  · have hid' : .connectionClosed id ∈ o ∨ (id, false) ∈ s.hooks := by
      rcases hid with hid | hid
      · simp only [mem_append, mem_singleton, reduceCtorEq, or_false] at hid
        exact .inl hid
      · exact .inr hid
    have hne : id ≠ s.nextId := by
      rintro rfl
      exact hnot (h.released (hid'.imp_right mem_closesDue_of_hook))
    have hdue := h.noneDue id hid'
    simp only [opensDue, mem_append, mem_singleton, not_or] at hdue ⊢
    exact ⟨⟨hdue.1, hne⟩, hdue.2⟩

theorem Inv.takeId (h : Inv R o s) : Inv R o { s with nextId := s.nextId + 1 } where
  fresh := fun id hid => Nat.lt_succ_of_lt (h.fresh id hid)
  returned := h.returned
  connections := h.connections
  new := h.new
  toOpen := h.toOpen
  count := h.count
  once := h.once
  last := h.last
  noneDue := h.noneDue
  newQueued := h.newQueued
  closedQueued := h.closedQueued

theorem Inv.closeConnection (h : Inv R o s) (ht : s.Timely (.closeConnection id async)) :
    Inv (fun j => R j ∨ j = id ∧ .returned id ∈ o) o (s.closeConnection id async).1 := by
  obtain ⟨hnew, hopen⟩ := ht
  unfold DnsHandlerServerUpstreamBase.closeConnection
  rw [if_neg hnew]
  split
  · next hgone =>
    -- closed before, or never opened
    refine h.of_iff fun j => ⟨?_, .inl⟩
    rintro (hR | ⟨rfl, hret⟩)
    · exact hR
    · by_contra hR
      exact hgone ((h.connections j).mpr ⟨hret, hR⟩)
  · next hmem =>
    rw [not_not] at hmem
    obtain ⟨hret, hR⟩ := (h.connections id).mp hmem
    have hdue : ∀ j, ({ s with
        connections := s.connections.filter (· ≠ id)
        hooks := (id, async) :: s.hooks }).closesDue.count j = s.closesDue.count j + if j = id then 1 else 0 := by
      intro j
      simp [closesDue, count_cons, beq_iff_eq, eq_comm (a := id)]
    refine ⟨h.fresh, fun j hj => ?_, fun j => ?_, fun j hj => ?_, h.toOpen, fun j hj => ?_,
      fun j hj => ?_, h.last, fun j hj => ?_, h.newQueued, h.closedQueued⟩
    · rcases hj with hj | ⟨rfl, hret⟩
      · exact h.returned j hj
      · exact hret
    · simp only [mem_filter, decide_eq_true_eq, h.connections j, not_or, not_and, hret]
      constructor
      · rintro ⟨⟨hj, hjR⟩, hne⟩
        exact ⟨hj, hjR, fun heq => absurd heq hne⟩
      · rintro ⟨hj, hjR, hne⟩
        exact ⟨⟨hj, hjR⟩, fun heq => hne heq trivial⟩
    · simp only [mem_filter, decide_eq_true_eq]
      refine ⟨h.new j hj, ?_⟩
      rintro rfl
      exact hnew hj
    · rw [not_or, not_and] at hj
      have hne : j ≠ id := fun heq => hj.2 heq hret
      rw [hdue j, if_neg hne]
      exact h.count j hj.1
    · rw [hdue j]
      rcases hj with hj | ⟨rfl, -⟩
      · have hne : j ≠ id := by
          rintro rfl
          exact hR hj
        rw [if_neg hne]
        exact h.once j hj
      · have hzero := h.count j hR
        rw [if_pos rfl]
        omega
    · by_cases hnow : .connectionClosed j ∈ o ∨ (j, false) ∈ s.hooks
      · exact h.noneDue j hnow
      rw [not_or] at hnow
      rcases hj with hj | hj
      · exact absurd hj hnow.1
      -- the synchronous close of a connection that is in the table
      rcases mem_cons.mp hj with heq | hj
      · cases heq
        simp only [opensDue, mem_append, not_or]
        refine ⟨hnew, (hopen.resolve_left nofun).resolve_right fun hc => hc hmem⟩
      · exact absurd hj hnow.2

attribute [local simp] DnsHandlerServerUpstreamBase.finishClose

theorem Inv.finishClose {hooks : List (Nat × Bool)} (h : Inv R o s) (hhooks : s.hooks = (id, async) :: hooks) :
    Inv R (o ++ (DnsHandlerServerUpstreamBase.finishClose { s with hooks := hooks } id async).2)
      (DnsHandlerServerUpstreamBase.finishClose { s with hooks := hooks } id async).1 := by
  have hmem : (id, async) ∈ s.hooks := by
    rw [hhooks]
    exact mem_cons_self
  have hsub : ∀ x ∈ hooks, x ∈ s.hooks := fun x hx => by
    rw [hhooks]
    exact mem_cons_of_mem _ hx
  cases async with
  | false =>
    have hcount : ∀ j, (o ++ [connectionClosed id]).count (connectionClosed j) +
        ({ s with hooks := hooks }).closesDue.count j = o.count (.connectionClosed j) + s.closesDue.count j := by
      simp only [closesDue, hhooks, map_cons, count_append, count_cons, count_nil, beq_iff_eq, connectionClosed.injEq]
      omega
    refine ⟨fun j hj => h.fresh j ?_, fun j hR => mem_append_left _ (h.returned j hR), fun j => ?_,
      h.new, fun j hj => mem_append_left _ (h.toOpen j hj), fun j hR => (hcount j).trans
      (h.count j hR), fun j hR => (hcount j).trans (h.once j hR), fun j => ?_, fun j hj => ?_,
      h.newQueued, h.closedQueued⟩
    · simpa using hj
    · simp [h.connections j]
    · exact last_append (h.last j) (fun _ => by simp) (last_single _ j)
    refine h.noneDue j ?_
    rcases hj with hj | hj
    · simp only [DnsHandlerServerUpstreamBase.finishClose, mem_append, mem_singleton, connectionClosed.injEq] at hj
      rcases hj with hj | rfl
      · exact .inl hj
      · exact .inr hmem
    · exact .inr (hsub _ hj)
  | true =>
    have hcount : ∀ j, ({ s with
        hooks := hooks
        closedConnections := s.closedConnections ++ [id]
        task := true }).closesDue.count j = s.closesDue.count j := by
      simp only [closesDue, hhooks, map_cons, count_append, count_cons, count_nil]
      omega
    simp only [DnsHandlerServerUpstreamBase.finishClose, append_nil]
    exact ⟨h.fresh, h.returned, h.connections, h.new, h.toOpen,
      fun j hR => (congrArg _ (hcount j)).trans (h.count j hR),
      fun j hR => (congrArg _ (hcount j)).trans (h.once j hR), h.last,
      fun j hj => h.noneDue j (hj.imp_right (hsub _)), fun _ => rfl, fun _ => .inl rfl⟩

attribute [local simp] opensDue Loop.toOpen

theorem Inv.advance (h : Inv R o s) : Inv R (o ++ s.advance.2) s.advance.1 := by
  unfold DnsHandlerServerUpstreamBase.advance
  split
  · rw [append_nil]
    exact h
  · next id rest hloop =>
    have hdue : ∀ j, j ∈ ({ s with loop := .opening rest }).opensDue → j ∈ s.opensDue := by
      intro j hj
      simp only [opensDue, Loop.toOpen, hloop, mem_append, mem_cons] at hj ⊢
      exact hj.imp_right .inr
    have hid : id ∈ s.opensDue := by simp [hloop]
    have hclose : ({ s with loop := .opening rest }).closesDue = s.closesDue := by
      simp [closesDue, Loop.toClose, hloop]
    have hcount : ∀ j, (o ++ [connectionOpened id]).count (connectionClosed j) = o.count (.connectionClosed j) := by
      simp
    refine ⟨fun j hj => h.fresh j (by simpa using hj), fun j hR => mem_append_left _
      (h.returned j hR), fun j => by simp [h.connections j], h.new, fun j hj => ?_,
      fun j hR => by rw [hcount, hclose, h.count j hR], fun j hR => by rw [hcount, hclose, h.once j hR],
      fun j => ?_, fun j hj hmem => ?_, h.newQueued, fun _ => .inr ⟨rest, rfl⟩⟩
    · refine mem_append_left _ (h.toOpen j ?_)
      rw [hloop]
      exact mem_cons_of_mem _ hj
    · refine last_append (h.last j) (fun hclosed => ?_) (last_single _ j)
      rw [mem_singleton, connectionOpened.injEq]
      rintro rfl
      exact h.noneDue j (.inl hclosed) hid
    · exact h.noneDue j (hj.imp_left fun hj => by simpa using hj) (hdue j hmem)
  · next hloop =>
    have hclose : ∀ j, ({ s with
        closedConnections := []
        loop := .closing s.closedConnections }).closesDue.count j =
        s.closesDue.count j := by
      simp [closesDue, Loop.toClose, hloop]
    rw [append_nil]
    refine ⟨h.fresh, h.returned, h.connections, h.new, nofun, fun j hR => by rw [hclose, h.count j hR],
      fun j hR => by rw [hclose, h.once j hR], h.last, fun j hj hmem => h.noneDue j hj ?_, h.newQueued,
      fun hne => absurd rfl hne⟩
    · simpa [hloop] using hmem
  · next id rest hloop =>
    have hR : R id := h.released (.inr (by simp [closesDue, Loop.toClose, hloop]))
    have hcount : ∀ j, (o ++ [connectionClosed id]).count (connectionClosed j) +
        ({ s with loop := .closing rest }).closesDue.count j = o.count (.connectionClosed j) + s.closesDue.count j := by
      simp only [closesDue, Loop.toClose, hloop, count_append, count_cons, count_nil,
        beq_iff_eq, connectionClosed.injEq]
      omega
    refine ⟨fun j hj => h.fresh j (by simpa using hj), fun j hR => mem_append_left _
      (h.returned j hR), fun j => by simp [h.connections j], h.new, nofun,
      fun j hR => (hcount j).trans (h.count j hR), fun j hR => (hcount j).trans (h.once j hR),
      fun j => last_append (h.last j) (fun _ => by simp) (last_single _ j), fun j hj hmem => ?_,
      h.newQueued, fun hne => ?_⟩
    · simp only [opensDue, Loop.toOpen, append_nil] at hmem
      simp only [mem_append, mem_singleton, connectionClosed.injEq] at hj
      rcases hj with (hj | rfl) | hj
      · exact h.noneDue j (.inl hj) (by simp [hmem])
      · -- a connection that is closed is not among the new ones
        exact ((h.connections j).mp (h.new j hmem)).2 hR
      · exact h.noneDue j (.inr hj) (by simp [hmem])
    · rcases h.closedQueued hne with ht | ⟨r, hr⟩
      · exact .inl ht
      · rw [hloop] at hr
        cases hr
  · next hloop =>
    have hclose : ({ s with loop := .idle }).closesDue = s.closesDue := by
      simp [closesDue, Loop.toClose, hloop]
    rw [append_nil]
    refine ⟨h.fresh, h.returned, h.connections, h.new, nofun, fun j hR => ?_, fun j hR => ?_, h.last,
      fun j hj hmem => h.noneDue j hj ?_, h.newQueued, fun hne => ?_⟩
    · rw [hclose]
      exact h.count j hR
    · rw [hclose]
      exact h.once j hR
    · simpa [hloop] using hmem
    rcases h.closedQueued hne with ht | ⟨r, hr⟩
    · exact .inl ht
    · rw [hloop] at hr
      cases hr

theorem Inv.onAsyncTask (h : Inv R o s) (hloop : s.loop = .idle) : Inv R o s.onAsyncTask := by
  have hopen : s.onAsyncTask.opensDue = s.opensDue := by
    simp [DnsHandlerServerUpstreamBase.onAsyncTask, hloop]
  have hclose : s.onAsyncTask.closesDue = s.closesDue := by
    simp [closesDue, DnsHandlerServerUpstreamBase.onAsyncTask, hloop, Loop.toClose]
  refine ⟨h.fresh, h.returned, h.connections, nofun, fun j hj => ?_, fun j hR => ?_, fun j hR => ?_,
    h.last, fun j hj => ?_, fun hne => absurd rfl hne, fun _ => .inr ⟨_, rfl⟩⟩
  · exact ((h.connections j).mp (h.new j hj)).1
  · rw [hclose]
    exact h.count j hR
  · rw [hclose]
    exact h.once j hR
  · rw [hopen]
    exact h.noneDue j hj

end Steps

theorem Inv.step (hi : Inv (Released h) (outputs h) s) {e : Call} (ht : s.Timely e) :
    Inv (Released (h ++ [upstream.record s e])) (outputs (h ++ [upstream.record s e])) (s.step e).1 := by
  have hother : (∀ id async, e ≠ .closeConnection id async) →
      Inv (Released h) (outputs h ++ (s.step e).2) (s.step e).1 →
      Inv (Released (h ++ [upstream.record s e])) (outputs (h ++ [upstream.record s e])) (s.step e).1 := by
    intro hne hinv
    rw [outputs_append, outputs_record]
    refine hinv.of_iff fun id => released_snoc.trans ⟨?_, .inl⟩
    rintro (hr | ⟨-, async, heq⟩)
    · exact hr
    · exact absurd heq (hne id async)
  cases e with
  | openConnection dstport => exact hother nofun (hi.openConnection dstport)
  | closeConnection id async =>
    have houts : (s.closeConnection id async).2 = [] := by
      unfold DnsHandlerServerUpstreamBase.closeConnection
      split
      · rfl
      · split <;> rfl
    rw [outputs_append, outputs_record]
    show Inv _ (_ ++ (s.closeConnection id async).2) _
    rw [houts, append_nil]
    refine (hi.closeConnection ht).of_iff fun j => released_snoc.trans ⟨?_, ?_⟩
    · rintro (hr | ⟨hret, async', heq⟩)
      · exact .inl hr
      · cases heq
        exact .inr ⟨rfl, hret⟩
    · rintro (hr | ⟨rfl, hret⟩)
      · exact .inl hr
      · exact .inr ⟨hret, async, rfl⟩
  | asyncTask =>
    refine hother nofun ?_
    simp only [DnsHandlerServerUpstreamBase.step]
    split
    · next hc =>
      rw [append_nil]
      exact hi.onAsyncTask hc.2.2
    · rw [append_nil]
      exact hi
  | resume =>
    refine hother nofun ?_
    simp only [DnsHandlerServerUpstreamBase.step, DnsHandlerServerUpstreamBase.resume]
    split
    · next id async hooks hhooks => exact hi.finishClose hhooks
    · exact hi.advance
  | takeId =>
    refine hother nofun ?_
    simp only [DnsHandlerServerUpstreamBase.step, append_nil]
    exact hi.takeId

/-! ## Coming to rest -/

def load (s : DnsHandlerServerUpstreamBase) : Nat :=
  2 * s.hooks.length + s.closedConnections.length + match s.loop with
    | .idle => 0
    | .opening rest => rest.length + 2
    | .closing rest => rest.length + 1

theorem load_resume (h : ¬(s.hooks = [] ∧ s.loop = .idle)) : s.resume.1.load < s.load := by
  unfold resume
  split
  · next id async hooks hhooks =>
    cases async with
    | false => simp [finishClose, load, hhooks]
    | true =>
      simp only [finishClose, load, hhooks, length_append, length_cons, length_nil]
      omega
  · next hhooks =>
    unfold advance
    split
    · next hloop => exact absurd ⟨hhooks, hloop⟩ h
    all_goals
      next hloop =>
      simp only [load, hloop, length_cons]
      omega

/-- Once no `close_connection` is waiting, `resume` does not queue the task again. -/
theorem resume_task (h : s.hooks = []) : s.resume.1.hooks = [] ∧ s.resume.1.task = s.task := by
  have hres : s.resume = s.advance := by simp [resume, h]
  rw [hres]
  unfold advance
  split <;> exact ⟨h, rfl⟩

theorem returns (s : DnsHandlerServerUpstreamBase) : ∃ n, (upstream.exec s (List.replicate n .resume)).hooks = [] ∧
      (upstream.exec s (List.replicate n .resume)).loop = .idle ∧
      (s.hooks = [] → (upstream.exec s (List.replicate n .resume)).task = s.task) := by
  induction hn : s.load using Nat.strongRecOn generalizing s with
  | ind k ih =>
    by_cases hdone : s.hooks = [] ∧ s.loop = .idle
    · exact ⟨0, hdone.1, hdone.2, fun _ => rfl⟩
    obtain ⟨n, hhooks, hloop, htask⟩ := ih s.resume.1.load (hn ▸ load_resume hdone) s.resume.1 rfl
    refine ⟨n + 1, hhooks, hloop, fun h => ?_⟩
    obtain ⟨hnext, hsame⟩ := resume_task h
    exact (htask hnext).trans hsame

theorem comes_to_rest (s : DnsHandlerServerUpstreamBase) :
    ∃ fs, (∀ e ∈ fs, e = .resume ∨ e = .asyncTask) ∧ (upstream.exec s fs).AtRest := by
  obtain ⟨n, hhooks, hloop, -⟩ := returns s
  generalize ht : upstream.exec s (List.replicate n .resume) = t at hhooks hloop
  cases htask : t.task with
  | false =>
    refine ⟨List.replicate n .resume, fun e he => .inl (eq_of_mem_replicate he), ?_⟩
    rw [ht]
    exact ⟨hhooks, hloop, htask⟩
  | true =>
    have hrun : (t.step .asyncTask).1 = t.onAsyncTask := by
      simp [step, htask, hhooks, hloop]
    obtain ⟨m, hhooks', hloop', htask'⟩ := returns t.onAsyncTask
    refine ⟨List.replicate n .resume ++ .asyncTask :: List.replicate m .resume, fun e he => ?_, ?_⟩
    · rcases mem_append.mp he with he | he
      · exact .inl (eq_of_mem_replicate he)
      · rcases mem_cons.mp he with rfl | he
        · exact .inr rfl
        · exact .inl (eq_of_mem_replicate he)
    · rw [exec_append, ht]
      show (upstream.exec (t.step .asyncTask).1 (List.replicate m .resume)).AtRest
      rw [hrun]
      exact ⟨hhooks', hloop', htask' hhooks⟩

theorem Inv.atRest {R : Nat → Prop} {o : List Output} (h : Inv R o s) (hr : s.AtRest) : s.closesDue = [] := by
  obtain ⟨hhooks, hloop, htask⟩ := hr
  have hclosed : s.closedConnections = [] := by
    by_contra hne
    rcases h.closedQueued hne with ht | ⟨rest, hrest⟩
    · rw [htask] at ht
      cases ht
    · rw [hloop] at hrest
      cases hrest
  simp [closesDue, hhooks, hclosed, hloop, Loop.toClose]

/-! ## Runs -/

theorem inv_of_run {es : List Call} (hm : upstream.Meets Timely initial es) :
    Inv (Released (upstream.trace initial es)) (outputs (upstream.trace initial es)) (upstream.exec initial es) := by
  refine upstream.inv_run (J := fun h s => Inv (Released h) (outputs h) s)
    (inv_initial.of_iff fun id => ⟨?_, False.elim⟩) (fun h s e hi ht => hi.step ht) es hm
  rintro ⟨h₁, r, h₂, heq, -⟩
  simp at heq

theorem timely_of_settled (hi : Inv (Released h) (outputs h) s) {e : Call}
    (hs : ∀ id, Released (h ++ [upstream.record s e]) id →
      Settled (outputs (h ++ [upstream.record s e])) (s.step e).1 id) : s.Timely e := by
  cases e with
  | closeConnection id async =>
    have hclosed : id ∈ s.connections → Settled _ (s.closeConnection id async).1 id := fun hmem =>
      hs id (released_snoc.mpr (.inr ⟨((hi.connections id).mp hmem).1, async, rfl⟩))
    constructor
    · -- a new connection stays in the table
      intro hnew
      have hgone := (hclosed (hi.new id hnew)).gone
      rw [closeConnection, if_pos hnew] at hgone
      exact hgone (hi.new id hnew)
    · by_contra hearly
      simp only [not_or, not_not, Bool.not_eq_true] at hearly
      obtain ⟨rfl, hopen, hmem⟩ := hearly
      have hnew : id ∉ s.newConnections := by
        intro hnew
        have hgone := (hclosed hmem).gone
        rw [closeConnection, if_pos hnew] at hgone
        exact hgone hmem
      have hdue := (hclosed hmem).noneDue
      rw [closeConnection, if_neg hnew, if_neg (not_not.mpr hmem)] at hdue
      exact hdue (.inr mem_cons_self) (mem_append_right _ hopen)
  | openConnection dstport | asyncTask | resume | takeId => trivial

/-- In every run in which each connection is closed after its `CONNECTION_OPENED` was raised, or with
`async` by a handler that `on_async_task` calls before it, every connection that was opened and then
closed is settled; the next call keeps that exactly if it is in time again. Left alone, the handlers
and the task come to an end, and then `CONNECTION_CLOSED` has been raised exactly once. -/
theorem closed_once (es : List Call) (hm : upstream.Meets Timely initial es) :
    (∀ id, Released (upstream.trace initial es) id →
      Settled (outputs (upstream.trace initial es)) (upstream.exec initial es) id) ∧
    (∀ e, (∀ id, Released (upstream.trace initial (es ++ [e])) id →
        Settled (outputs (upstream.trace initial (es ++ [e])))
          (upstream.exec initial (es ++ [e])) id) ↔ (upstream.exec initial es).Timely e) ∧
    ∃ fs, (∀ e ∈ fs, e = .resume ∨ e = .asyncTask) ∧ (upstream.exec initial (es ++ fs)).AtRest ∧
      ∀ id, Released (upstream.trace initial es) id →
        (outputs (upstream.trace initial (es ++ fs))).count (.connectionClosed id) = 1 := by
  have hi := inv_of_run hm
  refine ⟨fun id => hi.settled, fun e => ?_, ?_⟩
  · rw [trace_append, exec_append]
    exact ⟨timely_of_settled hi, fun ht id => (hi.step ht).settled⟩
  obtain ⟨fs, hfs, hrest⟩ := comes_to_rest (upstream.exec initial es)
  have hm' : upstream.Meets Timely initial (es ++ fs) := by
    rw [meets_append]
    refine ⟨hm, ?_⟩
    clear hrest
    generalize upstream.exec initial es = s
    induction fs generalizing s with
    | nil => trivial
    | cons e fs ih =>
      refine ⟨?_, ih (fun e he => hfs e (mem_cons_of_mem _ he)) _⟩
      rcases hfs e mem_cons_self with rfl | rfl <;> trivial
  have hi' := inv_of_run hm'
  rw [← exec_append] at hrest
  refine ⟨fs, hfs, hrest, fun id hr => ?_⟩
  have hr' : Released (upstream.trace initial (es ++ fs)) id := by
    obtain ⟨h₁, r, h₂, heq, hopen, hclose⟩ := hr
    exact ⟨h₁, r, h₂ ++ upstream.trace (upstream.exec initial es) fs,
      by rw [trace_append, heq, append_assoc, cons_append], hopen, hclose⟩
  have honce := hi'.once id hr'
  rw [hi'.atRest hrest] at honce
  exact honce

/-- Opened, reported, closed with `async` and reported again. -/
theorem closed_once_async :
    upstream.Meets Timely initial [.openConnection 53, .asyncTask, .resume, .closeConnection 1 true] ∧
      ∃ fs, (∀ e ∈ fs, e = .resume ∨ e = .asyncTask) ∧ (outputs (upstream.trace initial
          ([.openConnection 53, .asyncTask, .resume, .closeConnection 1 true] ++ fs))).count
            (.connectionClosed 1) = 1 := by
  refine ⟨by decide, ?_⟩
  obtain ⟨-, -, fs, hfs, -, honce⟩ := closed_once
    [.openConnection 53, .asyncTask, .resume, .closeConnection 1 true] (by decide)
  refine ⟨fs, hfs, honce 1 ?_⟩
  exact ⟨upstream.trace initial [.openConnection 53, .asyncTask, .resume],
    upstream.record (upstream.exec initial [.openConnection 53, .asyncTask, .resume])
      (.closeConnection 1 true), [], by decide, by decide, true, rfl⟩

/-- The first connection is closed before the task runs. -/
def closedEarly : List Call :=
  [.openConnection 53, .closeConnection 1 false, .asyncTask, .resume, .resume, .resume]

/-- The second connection is closed by the handler of the first one's `CONNECTION_OPENED`. -/
def closedInside : List Call :=
  [.openConnection 53, .openConnection 53, .asyncTask, .resume, .closeConnection 2 false, .resume, .resume]

/-- A connection closed before it was reported stays in the table and is not reported closed. One that
is closed by the handler of another's `CONNECTION_OPENED` is reported closed, then opened. -/
theorem early_close : (1 ∈ (upstream.exec initial closedEarly).connections ∧
      outputs (upstream.trace initial closedEarly) = [.returned 1] ∧ (upstream.exec initial closedEarly).AtRest) ∧
    outputs (upstream.trace initial closedInside) =
      [.returned 1, .returned 2, .connectionOpened 1, .connectionClosed 2, .connectionOpened 2] :=
  ⟨⟨by decide, by decide, by decide, by decide, by decide⟩, by decide⟩

end DnsHandlerServerUpstreamBase

end TrustTunnel.Dns
