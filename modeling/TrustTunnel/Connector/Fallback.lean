import TrustTunnel.Connector.Single

/-!
# Connector.Fallback

`FallbackableUpstreamConnector` (`fallbackable_upstream_connector.cpp`): two connectors, of which the
second is started after a delay or when the first has failed. Results of the two come back through
tasks of the event loop.
-/

namespace TrustTunnel.Connector

open Lib SingleUpstreamConnector List

inductive Side where
  | main
  | fallback
  deriving DecidableEq

def Side.other : Side → Side
  | .main => .fallback
  | .fallback => .main

theorem Side.eq_other {a b : Side} (h : a ≠ b) : a = b.other := by
  cases a <;> cases b <;> first | rfl | exact absurd rfl h

structure Slot where
  connector : Option SingleUpstreamConnector
  hasResult : Bool
  resultTask : Option EndpointConnectorResult
  deriving DecidableEq

namespace Slot

def empty : Slot := ⟨none, false, none⟩

def settled : Slot := ⟨none, true, none⟩

/-- The connector has done something; a result of it is queued as a task
(`main_connector_handler`, `fallback_connector_handler`). -/
def absorb (x : Slot) (r : SingleUpstreamConnector × List Effect) : Slot :=
  { x with connector := some r.1, resultTask := (results r.2).head?.or x.resultTask }

def load (x : Slot) : Nat :=
  x.connector.elim 0 SingleUpstreamConnector.load + x.resultTask.isSome.toNat

theorem absorb_nothing {x : Slot} {c : SingleUpstreamConnector} (h : x.connector = some c) : x.absorb (c, []) = x := by
  obtain ⟨connector, hasResult, resultTask⟩ := x
  cases h
  rfl

theorem absorb_fresh {c : SingleUpstreamConnector} {effects : List Effect} (h : results effects = []) :
    Slot.absorb ⟨some fresh, false, none⟩ (c, effects) = ⟨some c, false, none⟩ := by
  simp [absorb, h]

end Slot

structure FallbackableUpstreamConnector where
  main : Slot
  startTs : Int
  fallback : Slot
  delay : Int
  tried : Bool
  delayTask : Bool
  connectTimeout : Option Int

inductive Output where
  | openSession (side : Side) (timeout : Option Int)
  | closeSession (side : Side)
  /-- the fallback is to start after so many milliseconds -/
  | fallbackIn (delay : Int)
  | fallbackStarted
  /-- `handle_connect_result` -/
  | handled (side : Side) (r : EndpointConnectorResult)
  | raised (r : EndpointConnectorResult)
  | assertFailed
  deriving DecidableEq

abbrev Part := FallbackableUpstreamConnector × List Output

variable {p : Part} (s : FallbackableUpstreamConnector) (side : Side) (a b : List Output)

namespace FallbackableUpstreamConnector

def create (delay : Int) : FallbackableUpstreamConnector :=
  ⟨⟨some fresh, false, none⟩, 0, ⟨some fresh, false, none⟩, delay, false, false, none⟩

def slot : Side → Slot
  | .main => s.main
  | .fallback => s.fallback

def setSlot (x : Slot) : FallbackableUpstreamConnector :=
  match side with
  | .main => { s with main := x }
  | .fallback => { s with fallback := x }

def tell (effects : List Effect) : List Output :=
  effects.filterMap fun
    | .openSession timeout => some (.openSession side timeout)
    | .closeSession => some (.closeSession side)
    | .result _ => none

def absorb (r : SingleUpstreamConnector × List Effect) : Part :=
  (s.setSlot side ((s.slot side).absorb r), tell side r.2)

def disconnectSide : Part :=
  match (s.slot side).connector with
  | some c => s.absorb side c.disconnect
  | none => (s, [])

def cleared : FallbackableUpstreamConnector :=
  { s with main := .empty, startTs := 0, fallback := .empty, delay := 0, tried := false,
           delayTask := false }

def handleConnectResult (r : EndpointConnectorResult) : Part :=
  let d : Part := match r with
    | .upstream => s.disconnectSide side.other
    | .error _ => (s, [])
  let s := d.1.setSlot side .settled
  if r = .upstream ∨ (s.main.hasResult ∧ s.fallback.hasResult) then
    (s.cleared, .handled side r :: d.2 ++ [.raised r])
  else if !s.tried then ({ s with delayTask := true }, .handled side r :: d.2 ++ [.fallbackIn 0])
  else (s, .handled side r :: d.2)

/-- `start_fallback_connection`, with the time and what the upstream answers. -/
def startFallbackConnection (now : Int) (inits opens : Bool) : Part :=
  match s.tried || s.fallback.hasResult, s.fallback.connector with
  | false, some c =>
    let timeout := s.connectTimeout.map fun t => max (t - (now - s.startTs)) (t / 10)
    let r := c.connect timeout inits opens
    let p := ({ s with tried := true }).absorb .fallback (r.1, r.2.2)
    match r.2.1 with
    | none => (p.1, .fallbackStarted :: p.2)
    | some e =>
      let q := p.1.handleConnectResult .fallback (.error e)
      (q.1, .fallbackStarted :: p.2 ++ q.2)
  | _, _ => (s, [.assertFailed])

def connect (now : Int) (timeout : Option Int) (inits opens : Bool) : Part :=
  match s.main.connector with
  | none => (s, [.assertFailed])
  | some c =>
    let r := c.connect timeout inits opens
    let p := ({ s with connectTimeout := timeout, startTs := now }).absorb .main (r.1, r.2.2)
    match r.2.1 with
    | none => ({ p.1 with delayTask := true }, p.2 ++ [.fallbackIn s.delay])
    | some e =>
      let q := p.1.handleConnectResult .main (.error e)
      (q.1, p.2 ++ q.2)

def disconnect : Part :=
  let m := if s.main.hasResult then (s, []) else s.disconnectSide .main
  let s := m.1.setSlot .main { m.1.main with resultTask := none }
  let f := if s.tried && !s.fallback.hasResult then s.disconnectSide .fallback else (s, [])
  ({ f.1 with delayTask := false, fallback := { f.1.fallback with resultTask := none } }, m.2 ++ f.2)

inductive Call where
  | upstream (side : Side) (e : UpstreamEvent)
  | deferred (side : Side)
  | result (side : Side)
  | delay (now : Int) (inits opens : Bool)
  | disconnect
  deriving DecidableEq

def step : Call → Part
  | .upstream side e =>
    match (s.slot side).connector with
    | some c => if c.upstream then s.absorb side (c.onUpstream e) else (s, [])
    | none => (s, [])
  | .deferred side =>
    match (s.slot side).connector with
    | some c => s.absorb side c.onDeferred
    | none => (s, [])
  | .result side =>
    match (s.slot side).resultTask with
    | some r => s.handleConnectResult side r
    | none => (s, [])
  | .delay now inits opens =>
    if s.delayTask then ({ s with delayTask := false }).startFallbackConnection now inits opens
    else (s, [])
  | .disconnect => s.disconnect

def afterCalls (p : Part) : List Call → Part
  | [] => p
  | e :: es => afterCalls (andDo p fun s => s.step e) es

/-! ## What a run has reported -/

def raised (o : List Output) : List EndpointConnectorResult :=
  o.filterMap fun
    | .raised r => some r
    | _ => none

def handled (o : List Output) : List EndpointConnectorResult :=
  o.filterMap fun
    | .handled side' r => if side' = side then some r else none
    | _ => none

def started (o : List Output) : Nat := o.count .fallbackStarted

@[simp] theorem raised_append : raised (a ++ b) = raised a ++ raised b :=
  filterMap_append

@[simp] theorem handled_append : handled side (a ++ b) = handled side a ++ handled side b :=
  filterMap_append

@[simp] theorem started_append : started (a ++ b) = started a + started b :=
  count_append

def Silent (o : List Output) : Prop := raised o = [] ∧ (∀ side, handled side o = []) ∧ started o = 0

theorem silent_nil : Silent [] := ⟨rfl, fun _ => rfl, rfl⟩

theorem silent_tell (effects : List Effect) : Silent (tell side effects) := by
  induction effects with
  | nil => exact silent_nil
  | cons e effects ih => cases e <;> exact ih

variable {a o : List Output} {s : FallbackableUpstreamConnector} {side : Side} {c : SingleUpstreamConnector}
  {x : Slot}

theorem raised_after (h : raised o = []) (ha : raised a = []) : raised (o ++ a) = [] := by
  rw [raised_append, h, ha]
  rfl

theorem handled_after {l : List EndpointConnectorResult} (h : handled side o = l) (ha : handled side a = []) :
    handled side (o ++ a) = l := by
  rw [handled_append, h, ha, append_nil]

theorem started_after {n : Nat} (h : started o = n) (ha : started a = 0) : started (o ++ a) = n := by
  rw [started_append, h, ha]
  rfl

theorem Silent.append {b : List Output} (ha : Silent a) (hb : Silent b) : Silent (a ++ b) :=
  ⟨raised_after ha.1 hb.1, fun side => handled_after (ha.2.1 side) (hb.2.1 side), started_after ha.2.2 hb.2.2⟩

@[simp] theorem slot_setSlot : (s.setSlot side x).slot side = x := by
  cases side <;> rfl

@[simp] theorem slot_setSlot_other : (s.setSlot side x).slot side.other = s.slot side.other := by
  cases side <;> rfl

@[simp] theorem setSlot_slot : s.setSlot side (s.slot side) = s := by
  cases side <;> rfl

@[simp] theorem tried_setSlot : (s.setSlot side x).tried = s.tried := by
  cases side <;> rfl

@[simp] theorem delayTask_setSlot (s : FallbackableUpstreamConnector) (side : Side) (x : Slot) :
    (s.setSlot side x).delayTask = s.delayTask := by
  cases side <;> rfl

theorem forall_setSlot {P : Slot → Prop} (hx : P x) (hold : ∀ k, P (s.slot k)) (k : Side) :
    P ((s.setSlot side x).slot k) := by
  by_cases hk : k = side
  · rwa [hk, slot_setSlot]
  · rw [Side.eq_other hk, slot_setSlot_other]
    exact hold _

theorem absorb_nothing (h : (s.slot side).connector = some c) : s.absorb side (c, []) = (s, []) := by
  rw [absorb, Slot.absorb_nothing h, setSlot_slot]
  rfl

theorem handle_error (e : VpnError) : s.handleConnectResult side (.error e) =
      if (s.slot side.other).hasResult then
        ((s.setSlot side .settled).cleared, [.handled side (.error e), .raised (.error e)])
      else if s.tried then (s.setSlot side .settled, [.handled side (.error e)])
      else ({ s.setSlot side .settled with delayTask := true }, [.handled side (.error e), .fallbackIn 0]) := by
  cases side <;> cases hm : s.main.hasResult <;> cases hf : s.fallback.hasResult <;>
    cases ht : s.tried <;>
    simp [handleConnectResult, setSlot, slot, Side.other, Slot.settled, hf, ht]

/-! ## Phases -/

/-- The connector of a side is at work or its result is queued. -/
structure Running (o : List Output) (side : Side) (x : Slot) : Prop where
  connector : ∃ c, x.connector = some c ∧
    (c.Live ∧ x.resultTask = none ∨ c.state = .disconnected ∧ x.resultTask.isSome)
  hasResult : x.hasResult = false
  handled : handled side o = []

structure Failed (o : List Output) (side : Side) (x : Slot) : Prop where
  slot : x = .settled
  handled : ∃ e, handled side o = [.error e]

structure Waiting (o : List Output) (s : FallbackableUpstreamConnector) : Prop where
  tried : s.tried = false
  delayTask : s.delayTask = true
  slot : s.fallback = ⟨some fresh, false, none⟩
  handled : handled .fallback o = []
  started : started o = 0

structure Tried (o : List Output) (s : FallbackableUpstreamConnector) : Prop where
  tried : s.tried = true
  delayTask : s.delayTask = false
  started : started o = 1

/-- Nothing was delivered, and a result can still come. -/
structure Racing (o : List Output) (s : FallbackableUpstreamConnector) : Prop where
  raised : raised o = []
  main : Running o .main s.main ∨ Failed o .main s.main
  fallback : Waiting o s ∨ Tried o s ∧ (Running o .fallback s.fallback ∨ Failed o .fallback s.fallback)
  contested : ¬(Failed o .main s.main ∧ Failed o .fallback s.fallback)

/-- The result is the first success, or an error after both sides failed. -/
def Justified (o : List Output) : EndpointConnectorResult → Prop
  | .upstream => ∃ side, .upstream ∈ handled side o
  | .error _ => ∀ side, ∃ e, handled side o = [.error e]

structure Over (o : List Output) (s : FallbackableUpstreamConnector) : Prop where
  raised : ∃ r, raised o = [r] ∧ Justified o r
  started : started o ≤ 1
  slot : ∀ side, s.slot side = .empty
  delayTask : s.delayTask = false

structure Stopped (o : List Output) (s : FallbackableUpstreamConnector) : Prop where
  raised : raised o = []
  handled : ∀ side, .upstream ∉ handled side o
  started : started o ≤ 1
  task : ∀ side, (s.slot side).resultTask = none
  connector : ∀ side c, (s.slot side).connector = some c → c.state = .disconnected
  delayTask : s.delayTask = false

/-! ## Silent steps -/

theorem Running.append (h : Running o side x) (ha : FallbackableUpstreamConnector.handled side a = []) :
    Running (o ++ a) side x :=
  ⟨h.connector, h.hasResult, handled_after h.handled ha⟩

theorem Failed.append (h : Failed o side x) (ha : FallbackableUpstreamConnector.handled side a = []) :
    Failed (o ++ a) side x := by
  obtain ⟨e, he⟩ := h.handled
  exact ⟨h.slot, e, handled_after he ha⟩

theorem Failed.of_append (h : Failed (o ++ a) side x) (ha : FallbackableUpstreamConnector.handled side a = []) :
    Failed o side x := by
  obtain ⟨e, he⟩ := h.handled
  exact ⟨h.slot, e, by rwa [handled_append, ha, append_nil] at he⟩

theorem Failed.no_connector (h : Failed o side x) : x.connector ≠ some c := by
  rw [h.slot]
  exact nofun

section Silence

variable {o a : List Output} (ha : Silent a)

include ha

theorem Racing.silent {s : FallbackableUpstreamConnector} (h : Racing o s) : Racing (o ++ a) s where
  raised := raised_after h.raised ha.1
  main := h.main.imp (·.append (ha.2.1 _)) (·.append (ha.2.1 _))
  fallback := by
    rcases h.fallback with hw | ⟨ht, hf⟩
    · exact .inl ⟨hw.tried, hw.delayTask, hw.slot, handled_after hw.handled (ha.2.1 _),
        started_after hw.started ha.2.2⟩
    · exact .inr ⟨⟨ht.tried, ht.delayTask, started_after ht.started ha.2.2⟩,
        hf.imp (·.append (ha.2.1 _)) (·.append (ha.2.1 _))⟩
  contested hboth := h.contested ⟨hboth.1.of_append (ha.2.1 _), hboth.2.of_append (ha.2.1 _)⟩

theorem Over.silent {s : FallbackableUpstreamConnector} (h : Over o s) : Over (o ++ a) s where
  raised := by
    obtain ⟨r, hr, hj⟩ := h.raised
    refine ⟨r, by rw [raised_append, hr, ha.1]; rfl, ?_⟩
    cases r with
    | upstream =>
      obtain ⟨side, hside⟩ := hj
      exact ⟨side, by rw [handled_append]; exact mem_append_left _ hside⟩
    | error e =>
      intro side
      obtain ⟨e', he'⟩ := hj side
      exact ⟨e', handled_after he' (ha.2.1 side)⟩
  started := by rw [started_append, ha.2.2]; exact h.started
  slot := h.slot
  delayTask := h.delayTask

theorem Stopped.silent {s : FallbackableUpstreamConnector} (h : Stopped o s) : Stopped (o ++ a) s where
  raised := raised_after h.raised ha.1
  handled side := by rw [handled_append, ha.2.1, append_nil]; exact h.handled side
  started := by rw [started_append, ha.2.2]; exact h.started
  task := h.task
  connector := h.connector
  delayTask := h.delayTask

end Silence

theorem Running.not_failed {y : Slot} (h : Running o side x) : ¬Failed o side y := by
  intro hf
  obtain ⟨e, he⟩ := hf.handled
  rw [h.handled] at he
  cases he

theorem Waiting.not_running (h : Waiting o s) : ¬Running o .fallback s.fallback := by
  intro hr
  obtain ⟨c, hc, hlive | ⟨-, htask⟩⟩ := hr.connector
  · rw [h.slot] at hc
    cases hc
    rcases hlive.1.2 with ⟨hs, -⟩ | ⟨hs, -⟩ <;> cases hs
  · rw [h.slot] at htask
    cases htask

theorem Racing.sideCases (h : Racing o s) (side : Side) :
    Running o side (s.slot side) ∨ Failed o side (s.slot side) ∨ side = .fallback ∧ Waiting o s := by
  cases side with
  | main => exact h.main.imp_right .inl
  | fallback =>
    rcases h.fallback with hw | ⟨-, hrun | hfail⟩
    · exact .inr (.inr ⟨rfl, hw⟩)
    · exact .inl hrun
    · exact .inr (.inl hfail)

theorem Racing.setRunning (h : Racing o s) (hr : Running o side (s.slot side)) (hx : Running o side x) :
    Racing o (s.setSlot side x) := by
  cases side with
  | main =>
    refine ⟨h.raised, .inl hx, ?_, fun hboth => hx.not_failed hboth.1⟩
    rcases h.fallback with hw | ⟨ht, hf⟩
    · exact .inl ⟨hw.tried, hw.delayTask, hw.slot, hw.handled, hw.started⟩
    · exact .inr ⟨⟨ht.tried, ht.delayTask, ht.started⟩, hf⟩
  | fallback =>
    rcases h.fallback with hw | ⟨ht, -⟩
    · exact absurd hr hw.not_running
    · exact ⟨h.raised, h.main, .inr ⟨⟨ht.tried, ht.delayTask, ht.started⟩, .inl hx⟩,
        fun hboth => hx.not_failed hboth.2⟩

/-! ## The load -/

/-- How many calls can still change something: a fallback that waits counts for all it may do. -/
def load (s : FallbackableUpstreamConnector) : Nat :=
  s.main.load + s.fallback.load + 6 * s.delayTask.toNat

theorem load_eq (s : FallbackableUpstreamConnector) (side : Side) :
    s.load = (s.slot side).load + (s.slot side.other).load + 6 * s.delayTask.toNat := by
  cases side with
  | main => rfl
  | fallback => exact congrArg (· + _) (Nat.add_comm ..)

theorem load_setSlot (h : x.load < (s.slot side).load) : (s.setSlot side x).load < s.load := by
  rw [load_eq _ side, load_eq s side, slot_setSlot, slot_setSlot_other, delayTask_setSlot]
  omega

attribute [local simp] Slot.absorb Slot.load

theorem Running.absorb (h : Running o side x) (hc : x.connector = some c)
    {r : SingleUpstreamConnector × List Effect} (hlive : c.Live → Proceeds c r) (hidle : c.state = .disconnected →
      r = (c, []) ∨ (r.1.state = .disconnected ∧ results r.2 = [] ∧ r.1.load < c.load)) :
    Running o side (x.absorb r) ∧ (x.absorb r = x ∨ (x.absorb r).load < x.load) := by
  obtain ⟨connector, hasResult, resultTask⟩ := x
  subst hc
  have hhas : hasResult = false := h.hasResult
  obtain ⟨c', hc', hcase⟩ := h.connector
  cases hc'
  rcases hcase with ⟨hl, htask⟩ | ⟨hs, htask⟩
  · subst htask
    rcases hlive hl with rfl | ⟨hl', hres, hload⟩ | ⟨hs', ⟨res, hres⟩, hload⟩
    · exact ⟨h, .inl rfl⟩
    · refine ⟨⟨⟨r.1, rfl, .inl ⟨hl', ?_⟩⟩, hhas, h.handled⟩, .inr ?_⟩
      · simp [hres]
      · simpa [hres] using hload
    · refine ⟨⟨⟨r.1, rfl, .inr ⟨hs', ?_⟩⟩, hhas, h.handled⟩, .inr ?_⟩
      · simp [hres]
      · simpa [hres] using hload
  · obtain ⟨res, hres⟩ := Option.isSome_iff_exists.mp htask
    subst hres
    rcases hidle hs with rfl | ⟨hs', hnone, hload⟩
    · exact ⟨h, .inl rfl⟩
    · refine ⟨⟨⟨r.1, rfl, .inr ⟨hs', ?_⟩⟩, hhas, h.handled⟩, .inr ?_⟩
      · simp
      · simpa using hload

/-! ## Steps of the race -/

def Lowers (s s' : FallbackableUpstreamConnector) : Prop := s' = s ∨ s'.load < s.load

theorem racing_absorb (h : Racing o s) (hc : (s.slot side).connector = some c)
    {r : SingleUpstreamConnector × List Effect} (hlive : c.Live → Proceeds c r) (hidle : c.state = .disconnected →
      r = (c, []) ∨ (r.1.state = .disconnected ∧ results r.2 = [] ∧ r.1.load < c.load))
    (hfresh : c = fresh → r = (c, [])) :
    Racing (o ++ (s.absorb side r).2) (s.absorb side r).1 ∧ Lowers s (s.absorb side r).1 := by
  by_cases hr : Running o side (s.slot side)
  · obtain ⟨hx, hload⟩ := hr.absorb hc hlive hidle
    refine ⟨(h.setRunning hr hx).silent (silent_tell side r.2), ?_⟩
    rcases hload with heq | hlt
    · exact .inl (by rw [absorb, heq, setSlot_slot])
    · exact .inr (load_setSlot hlt)
  · -- the side has no connector at work: it has failed or has not been started
    have hnothing : r = (c, []) := by
      refine hfresh ?_
      rcases h.sideCases side with hrun | hfail | ⟨rfl, hw⟩
      · exact absurd hrun hr
      · exact absurd hc hfail.no_connector
      · have hsome : (s.slot .fallback).connector = some fresh := congrArg Slot.connector hw.slot
        rw [hc] at hsome
        exact Option.some.inj hsome
    subst hnothing
    rw [absorb_nothing hc]
    exact ⟨h.silent silent_nil, .inl rfl⟩

theorem handled_self (r : EndpointConnectorResult) : handled side (.handled side r :: o) = r :: handled side o := by
  simp [handled]

theorem handled_of_other (side : Side) (r : EndpointConnectorResult) (o : List Output) :
    handled side.other (.handled side r :: o) = handled side.other o := by
  cases side <;> simp [handled, Side.other]

theorem silent_disconnectSide (side : Side) : Silent (s.disconnectSide side).2 := by
  unfold disconnectSide
  split
  · exact silent_tell _ _
  · exact silent_nil

theorem over_of_upstream (hraised : raised o = []) (hstarted : started o ≤ 1) :
    Over (o ++ (s.handleConnectResult side .upstream).2) (s.handleConnectResult side .upstream).1 := by
  obtain ⟨hr, hh, hs⟩ := s.silent_disconnectSide side.other
  simp only [handleConnectResult, true_or, if_true]
  refine ⟨⟨.upstream, ?_, side, ?_⟩, ?_, fun side => by cases side <;> rfl, rfl⟩
  · rw [raised_append, hraised]
    show raised ((s.disconnectSide side.other).2 ++ [.raised .upstream]) = _
    rw [raised_append, hr]
    rfl
  · rw [handled_append, cons_append, handled_self]
    exact mem_append_right _ (mem_cons_self)
  · rw [started_append]
    show started o + started ((s.disconnectSide side.other).2 ++ [.raised .upstream]) ≤ 1
    rw [started_append, hs]
    exact hstarted

theorem over_of_error {e : VpnError} (hraised : raised o = []) (hstarted : started o ≤ 1)
    (hhandled : handled side o = []) (hother : ∃ e', handled side.other o = [.error e']) :
    Over (o ++ [.handled side (.error e), .raised (.error e)]) s.cleared := by
  refine ⟨⟨.error e, ?_, fun side' => ?_⟩, ?_, fun side => by cases side <;> rfl, rfl⟩
  · rw [raised_append, hraised]
    rfl
  · obtain ⟨e', he'⟩ := hother
    by_cases hside : side' = side
    · subst hside
      refine ⟨e, ?_⟩
      rw [handled_append, hhandled, handled_self]
      rfl
    · obtain rfl := Side.eq_other hside
      exact ⟨e', handled_after he' (handled_of_other ..)⟩
  · rw [started_append]
    exact hstarted

theorem failed_settled {e : VpnError} (h : handled side o = []) (ha : handled side a = []) :
    Failed (o ++ .handled side (.error e) :: a) side .settled :=
  ⟨rfl, e, by rw [handled_append, h, handled_self, ha]; rfl⟩

theorem handled_other_nil (side : Side) (r : EndpointConnectorResult) : handled side.other [.handled side r] = [] :=
  handled_of_other side r []

theorem start_settled (hraised : raised o = []) (hmain : Running o .main s.main ∨ Failed o .main s.main)
    (ht : Tried o s) (hhandled : handled .fallback o = []) (e : VpnError) :
    (Racing (o ++ (s.handleConnectResult .fallback (.error e)).2) (s.handleConnectResult .fallback (.error e)).1 ∨
      Over (o ++ (s.handleConnectResult .fallback (.error e)).2) (s.handleConnectResult .fallback (.error e)).1) ∧
    (s.handleConnectResult .fallback (.error e)).1.load ≤ s.main.load := by
  rw [handle_error]
  rcases hmain with hrun | hfail
  · have hfalse : (s.slot Side.fallback.other).hasResult = false := hrun.hasResult
    have hrun' := hrun.append (handled_other_nil .fallback (.error e))
    simp only [hfalse, ht.tried]
    refine ⟨.inl ⟨raised_after hraised rfl, .inl hrun',
      .inr ⟨⟨ht.tried, ht.delayTask, started_after ht.started rfl⟩, .inr (failed_settled hhandled rfl)⟩,
      fun hboth => hrun'.not_failed hboth.1⟩, ?_⟩
    show s.main.load + Slot.settled.load + 6 * s.delayTask.toNat ≤ s.main.load
    rw [ht.delayTask]
    exact Nat.le_refl _
  · have htrue : (s.slot Side.fallback.other).hasResult = true := congrArg Slot.hasResult hfail.slot
    simp only [htrue]
    exact ⟨.inr (over_of_error hraised (Nat.le_of_eq ht.started) hhandled hfail.handled), Nat.zero_le _⟩

theorem Racing.fail (h : Racing o s) (hr : Running o side (s.slot side)) (e : VpnError) :
    Racing (o ++ (s.handleConnectResult side (.error e)).2) (s.handleConnectResult side (.error e)).1 ∨
      Over (o ++ (s.handleConnectResult side (.error e)).2) (s.handleConnectResult side (.error e)).1 := by
  cases side with
  | main =>
    rw [handle_error]
    rcases h.fallback with hw | ⟨ht, hrun | hfail⟩
    · have hfalse : (s.slot Side.main.other).hasResult = false := congrArg Slot.hasResult hw.slot
      simp only [hfalse, hw.tried]
      refine .inl ⟨raised_after h.raised rfl, .inr (failed_settled hr.handled rfl),
        .inl ⟨hw.tried, rfl, hw.slot, handled_after hw.handled rfl, started_after hw.started rfl⟩, ?_⟩
      rintro ⟨-, hf⟩
      exact absurd (hw.slot.symm.trans hf.slot) (by decide)
    · have hfalse : (s.slot Side.main.other).hasResult = false := hrun.hasResult
      simp only [hfalse, ht.tried]
      have hrun' := hrun.append (handled_other_nil .main (.error e))
      exact .inl ⟨raised_after h.raised rfl, .inr (failed_settled hr.handled rfl),
        .inr ⟨⟨ht.tried, ht.delayTask, started_after ht.started rfl⟩, .inl hrun'⟩,
        fun hboth => hrun'.not_failed hboth.2⟩
    · have htrue : (s.slot Side.main.other).hasResult = true := congrArg Slot.hasResult hfail.slot
      simp only [htrue]
      exact .inr (over_of_error h.raised (Nat.le_of_eq ht.started) hr.handled hfail.handled)
  | fallback =>
    rcases h.fallback with hw | ⟨ht, -⟩
    · exact absurd hr hw.not_running
    · exact (start_settled h.raised h.main ht hr.handled e).1

theorem load_pos_of_slot (h : 0 < (s.slot side).load) : 0 < s.load := by
  rw [load_eq s side]
  omega

theorem load_handle {r : EndpointConnectorResult} (h : (s.slot side).resultTask = some r)
    (hdelay : s.tried = false → s.delayTask = true) : (s.handleConnectResult side r).1.load < s.load := by
  have hpos : 0 < (s.slot side).load := by simp [h]
  have hsettled : Slot.settled.load < (s.slot side).load := hpos
  cases r with
  | upstream =>
    exact load_pos_of_slot hpos
  | error e =>
    rw [handle_error]
    split
    · exact load_pos_of_slot hpos
    split
    · exact load_setSlot hsettled
    next htried =>
    have hset : { s.setSlot side .settled with delayTask := true } = s.setSlot side .settled := by
      rw [← hdelay (by simpa using htried), ← delayTask_setSlot s side .settled]
    rw [hset]
    exact load_setSlot hsettled

theorem start_phase (h : Racing o s) (hdelay : s.delayTask = true) (now : Int) (inits opens : Bool) (p : Part)
    (hp : p = ({ s with delayTask := false }).startFallbackConnection now inits opens) :
    (Racing (o ++ p.2) p.1 ∨ Over (o ++ p.2) p.1) ∧ p.1.load < s.load := by
  rcases h.fallback with hw | ⟨ht, -⟩
  swap
  · rw [ht.delayTask] at hdelay
    cases hdelay
  have hraised := h.raised
  have hmain := h.main
  obtain ⟨main, startTs, fallback, delay, tried, delayTask, connectTimeout⟩ := s
  obtain ⟨htried, -, hslot, hhandled, hstarted⟩ := hw
  subst htried hslot hdelay
  simp only [startFallbackConnection, Bool.or_false] at hp
  generalize connectTimeout.map (fun t => max (t - (now - startTs)) (t / 10)) = timeout at hp
  obtain ⟨hnone, hcon⟩ := connect_fresh timeout inits opens
  generalize fresh.connect timeout inits opens = r at hp hnone hcon
  obtain ⟨c, err, effects⟩ := r
  -- the connector's call has started the fallback and reported no result
  have htell := silent_tell .fallback effects
  have hstart : started (Output.fallbackStarted :: tell .fallback effects) = 1 := by
    show started ([Output.fallbackStarted] ++ tell .fallback effects) = 1
    rw [started_append, htell.2.2]
    rfl
  have hraised1 : raised (o ++ .fallbackStarted :: tell .fallback effects) = [] := raised_after hraised htell.1
  have hhandled1 : ∀ side, handled side (.fallbackStarted :: tell .fallback effects) = [] := htell.2.1
  have hstarted1 : started (o ++ .fallbackStarted :: tell .fallback effects) = 1 := by
    rw [started_append, hstarted, hstart]
  have hmain1 := hmain.imp (Running.append · (hhandled1 .main)) (Failed.append · (hhandled1 .main))
  have hfb := handled_after hhandled (hhandled1 .fallback)
  simp only [absorb, slot, Slot.absorb_fresh hnone] at hp
  cases err with
  | none =>
    subst hp
    split at hcon
    · obtain ⟨-, hlive, hload⟩ := hcon
      have hrun : Running (o ++ .fallbackStarted :: tell .fallback effects) .fallback
          ⟨some c, false, none⟩ := ⟨⟨c, rfl, .inl ⟨hlive, rfl⟩⟩, rfl, hfb⟩
      refine ⟨.inl ⟨hraised1, hmain1, .inr ⟨⟨rfl, rfl, hstarted1⟩, .inl hrun⟩,
        fun hboth => hrun.not_failed hboth.2⟩, ?_⟩
      show main.load + c.load + 0 < main.load + 0 + 6
      replace hload : c.load = 4 := hload
      omega
    · obtain ⟨e, he⟩ := hcon
      cases he
  | some e =>
    subst hp
    obtain ⟨hphase, hload⟩ := start_settled hraised1 hmain1
      (s := ⟨main, startTs, ⟨some c, false, none⟩, delay, true, false, connectTimeout⟩) ⟨rfl, rfl,
        hstarted1⟩ hfb e
    rw [append_assoc] at hphase
    refine ⟨hphase, Nat.lt_of_le_of_lt hload ?_⟩
    show main.load < main.load + 0 + 6
    omega

/-! ## Disconnecting -/

theorem slot_disconnectSide (side : Side)
    (h : ((s.disconnectSide side).1.slot side).connector = some c) : c.state = .disconnected := by
  unfold disconnectSide at h
  split at h
  · next c' hc' =>
    simp only [absorb, slot_setSlot, Slot.absorb, Option.some.injEq] at h
    rw [← h]
    exact (disconnect_idle c').1
  · next hc' =>
    rw [hc'] at h
    cases h

theorem disconnectSide_other (s : FallbackableUpstreamConnector) (side : Side) :
    (s.disconnectSide side).1.slot side.other = s.slot side.other ∧ (s.disconnectSide side).1.tried = s.tried := by
  unfold disconnectSide
  split
  · simp [absorb]
  · exact ⟨rfl, rfl⟩

/-- The sides that `disconnect` leaves alone are not at work. -/
def Spared (s : FallbackableUpstreamConnector) : Prop :=
  ∀ side c, (s.slot side).connector = some c →
    (s.slot side).hasResult = true ∨ side = .fallback ∧ s.tried = false → c.state = .disconnected

theorem side_done (side : Side)
    (hp : p = s.disconnectSide side ∨ p = (s, []) ∧ ∀ c, (s.slot side).connector = some c →
      c.state = .disconnected) :
    Silent p.2 ∧ p.1.slot side.other = s.slot side.other ∧ p.1.tried = s.tried ∧
      ∀ c, (p.1.slot side).connector = some c → c.state = .disconnected := by
  rcases hp with rfl | ⟨rfl, hdone⟩
  · obtain ⟨hslot, htried⟩ := s.disconnectSide_other side
    exact ⟨s.silent_disconnectSide side, hslot, htried, fun c hc => s.slot_disconnectSide side hc⟩
  · exact ⟨silent_nil, rfl, rfl, hdone⟩

theorem disconnect_spec (h : s.Spared) : Silent s.disconnect.2 ∧ s.disconnect.1.delayTask = false ∧
      (∀ side, (s.disconnect.1.slot side).resultTask = none) ∧
      ∀ side c, (s.disconnect.1.slot side).connector = some c → c.state = .disconnected := by
  -- the main side first
  obtain ⟨m, hm⟩ : ∃ m : Part, m = if s.main.hasResult then (s, []) else s.disconnectSide .main :=
    ⟨_, rfl⟩
  obtain ⟨hsilent, hfb, htried, hdone⟩ := side_done .main (by
    split at hm
    · next hres => exact .inr ⟨hm, fun c hc => h .main c hc (.inl hres)⟩
    · exact .inl hm)
  obtain ⟨s1, hs1⟩ : ∃ s1, s1 = m.1.setSlot .main { m.1.main with resultTask := none } := ⟨_, rfl⟩
  obtain ⟨f, hf⟩ : ∃ f : Part,
      f = if s1.tried && !s1.fallback.hasResult then s1.disconnectSide .fallback else (s1, []) :=
    ⟨_, rfl⟩
  have htried1 : s1.tried = s.tried := by rw [hs1, tried_setSlot, htried]
  have hfb1 : s1.fallback = s.fallback := by rw [hs1]; exact hfb
  obtain ⟨hsilent', hmain', -, hdone'⟩ := side_done .fallback (by
    split at hf
    · exact .inl hf
    next hres =>
    refine .inr ⟨hf, fun c hc => h .fallback c (by rw [← hc, slot, slot, hfb1]) ?_⟩
    rw [htried1, hfb1] at hres
    cases ht : s.tried with
    | false => exact .inr ⟨rfl, rfl⟩
    | true =>
      rw [ht] at hres
      exact .inl (show s.fallback.hasResult = true by simpa using hres))
  have hall : s.disconnect = ({ f.1 with
      delayTask := false, fallback := { f.1.fallback with resultTask := none } }, m.2 ++ f.2) := by
    rw [hf, hs1, hm]
    rfl
  replace hmain' : f.1.main = s1.main := hmain'
  rw [hall]
  refine ⟨hsilent.append hsilent', rfl, fun side => ?_, fun side c hc => ?_⟩ <;> cases side with
  | main | fallback => ?_
  · show f.1.main.resultTask = none
    rw [hmain', hs1]
    rfl
  · rfl
  · have hc' : f.1.main.connector = some c := hc
    rw [hmain', hs1] at hc'
    exact hdone c hc'
  · exact hdone' c hc

theorem Racing.spared (h : Racing o s) : s.Spared := by
  intro side c hc hcase
  rcases h.sideCases side with hrun | hfail | ⟨rfl, hw⟩
  · rcases hcase with hres | ⟨rfl, hres⟩
    · rw [hrun.hasResult] at hres
      cases hres
    rcases h.fallback with hw | ⟨ht, -⟩
    · exact absurd hrun hw.not_running
    · rw [ht.tried] at hres
      cases hres
  · exact absurd hc hfail.no_connector
  · have hfresh : (s.slot .fallback).connector = some fresh := congrArg Slot.connector hw.slot
    rw [hfresh] at hc
    cases hc
    rfl

theorem Racing.delayTask_of_not_tried (h : Racing o s) (hfalse : s.tried = false) : s.delayTask = true := by
  rcases h.fallback with hw | ⟨ht, -⟩
  · exact hw.delayTask
  · rw [ht.tried] at hfalse
    cases hfalse

theorem Racing.started_le (h : Racing o s) : started o ≤ 1 := by
  rcases h.fallback with hw | ⟨ht, -⟩
  · rw [hw.started]
    exact Nat.zero_le 1
  · exact Nat.le_of_eq ht.started

theorem Racing.no_success (h : Racing o s) (side : Side) : .upstream ∉ handled side o := by
  rcases h.sideCases side with hrun | hfail | ⟨rfl, hw⟩
  · simp [hrun.handled]
  · obtain ⟨e, he⟩ := hfail.handled
    simp [he]
  · simp [hw.handled]

theorem Racing.disconnect (h : Racing o s) : Stopped (o ++ s.disconnect.2) s.disconnect.1 := by
  obtain ⟨hsilent, hdelay, htask, hconnector⟩ := disconnect_spec h.spared
  exact Stopped.silent hsilent ⟨h.raised, h.no_success, h.started_le, htask, hconnector, hdelay⟩

/-! ## Nothing more happens -/

theorem over_step (h : Over o s) (e : Call) :
    Silent (s.step e).2 ∧ Over o (s.step e).1 ∧ (e ≠ .disconnect → (s.step e).1 = s) := by
  have hsame : s.step e = (s, []) → Silent (s.step e).2 ∧ Over o (s.step e).1 ∧
      (e ≠ .disconnect → (s.step e).1 = s) := by
    intro heq
    rw [heq]
    exact ⟨silent_nil, h, fun _ => rfl⟩
  have hnone : ∀ side, (s.slot side).connector = none := fun side => by rw [h.slot side]; rfl
  have htask : ∀ side, (s.slot side).resultTask = none := fun side => by rw [h.slot side]; rfl
  cases e with
  | upstream side e | deferred side => exact hsame (by simp [step, hnone])
  | result side => exact hsame (by simp [step, htask])
  | delay now inits opens => exact hsame (by simp [step, h.delayTask])
  | disconnect =>
    have hmain : s.main = .empty := h.slot .main
    have hfallback : s.fallback = .empty := h.slot .fallback
    have hraised := h.raised
    have hstarted := h.started
    obtain ⟨main, startTs, fallback, delay, tried, delayTask, connectTimeout⟩ := s
    cases hmain
    cases hfallback
    refine ⟨?_, ⟨hraised, hstarted, fun side => ?_, ?_⟩, fun hne => absurd rfl hne⟩ <;> cases tried
    · exact silent_nil
    · exact silent_nil
    · cases side <;> rfl
    · cases side <;> rfl
    · rfl
    · rfl

theorem stopped_step (h : Stopped o s) (e : Call) : Silent (s.step e).2 ∧ Stopped o (s.step e).1 ∧
      (e ≠ .disconnect → Lowers s (s.step e).1) := by
  have hsame : Silent [] ∧ Stopped o s ∧ (e ≠ .disconnect → Lowers s s) :=
    ⟨silent_nil, h, fun _ => .inl rfl⟩
  cases e with
  | upstream side e =>
    simp only [step]
    split
    · next c hc =>
      split
      · rw [onUpstream_idle (h.connector side c hc), absorb_nothing hc]
        exact hsame
      · exact hsame
    · exact hsame
  | deferred side =>
    simp only [step]
    split
    · next c hc =>
      have hidle := h.connector side c hc
      rcases onDeferred_idle hidle with heq | ⟨hs, hnone, hload⟩
      · rw [heq, absorb_nothing hc]
        exact hsame
      have habsorb : (s.slot side).absorb c.onDeferred = { s.slot side with connector := some c.onDeferred.1 } := by
        simp [hnone]
      rw [absorb, habsorb]
      refine ⟨silent_tell _ _, ⟨h.raised, h.handled, h.started, ?_, ?_, ?_⟩, fun _ => .inr (load_setSlot ?_)⟩
      · exact forall_setSlot (P := fun y => y.resultTask = none) (h.task side) h.task
      · refine forall_setSlot (P := fun y => ∀ c, y.connector = some c → c.state = .disconnected)
          (fun c' hc' => ?_) h.connector
        cases hc'
        exact hs
      · rw [delayTask_setSlot]
        exact h.delayTask
      · simpa [hc] using hload
    · exact hsame
  | result side =>
    simp only [step, h.task side]
    exact hsame
  | delay now inits opens =>
    simp only [step, h.delayTask]
    exact hsame
  | disconnect =>
    obtain ⟨hsilent, hdelay, htask, hconnector⟩ :=
      disconnect_spec fun side c hc _ => h.connector side c hc
    exact ⟨hsilent, ⟨h.raised, h.handled, h.started, htask, hconnector, hdelay⟩, fun hne => absurd rfl hne⟩

/-! ## Runs -/

inductive Phase (o : List Output) (s : FallbackableUpstreamConnector) : Prop where
  | racing (h : Racing o s)
  | ended (h : Over o s)
  | stopped (h : Stopped o s)

theorem racing_step (h : Racing o s) (e : Call) (he : e ≠ .disconnect) :
    (Racing (o ++ (s.step e).2) (s.step e).1 ∨ Over (o ++ (s.step e).2) (s.step e).1) ∧ Lowers s (s.step e).1 := by
  have hsame : (Racing (o ++ []) s ∨ Over (o ++ []) s) ∧ Lowers s s := by
    rw [append_nil]
    exact ⟨.inl h, .inl rfl⟩
  cases e with
  | upstream side e =>
    simp only [step]
    split
    · next c hc =>
      split
      · obtain ⟨hrace, hload⟩ := racing_absorb h hc (onUpstream_live · e)
          (fun hidle => .inl (onUpstream_idle hidle e)) (fun hfresh => by subst hfresh; exact onUpstream_idle rfl e)
        exact ⟨.inl hrace, hload⟩
      · exact hsame
    · exact hsame
  | deferred side =>
    simp only [step]
    split
    · next c hc =>
      obtain ⟨hrace, hload⟩ := racing_absorb h hc onDeferred_live onDeferred_idle
        (fun hfresh => by subst hfresh; rfl)
      exact ⟨.inl hrace, hload⟩
    · exact hsame
  | result side =>
    simp only [step]
    split
    · next r hr =>
      have hrun : Running o side (s.slot side) := by
        have hnot : (s.slot side).resultTask ≠ none := by simp [hr]
        rcases h.sideCases side with hrun | hfail | ⟨rfl, hw⟩
        · exact hrun
        · exact absurd (congrArg Slot.resultTask hfail.slot) hnot
        · exact absurd (congrArg Slot.resultTask hw.slot) hnot
      refine ⟨?_, .inr (load_handle hr h.delayTask_of_not_tried)⟩
      cases r with
      | upstream => exact .inr (over_of_upstream h.raised h.started_le)
      | error e => exact h.fail hrun e
    · exact hsame
  | delay now inits opens =>
    simp only [step]
    split
    · next hdelay =>
      obtain ⟨hphase, hload⟩ := start_phase h hdelay now inits opens _ rfl
      exact ⟨hphase, .inr hload⟩
    · exact hsame
  | disconnect => exact absurd rfl he

theorem Phase.step (h : Phase o s) (e : Call) :
    Phase (o ++ (s.step e).2) (s.step e).1 ∧ (e ≠ .disconnect → Lowers s (s.step e).1) := by
  cases h with
  | racing h =>
    by_cases he : e = .disconnect
    · subst he
      exact ⟨.stopped h.disconnect, fun hne => absurd rfl hne⟩
    · obtain ⟨hrace | hover, hload⟩ := racing_step h e he
      · exact ⟨.racing hrace, fun _ => hload⟩
      · exact ⟨.ended hover, fun _ => hload⟩
  | ended h =>
    obtain ⟨hsilent, hover, hsame⟩ := over_step h e
    exact ⟨.ended (hover.silent hsilent), fun hne => .inl (hsame hne)⟩
  | stopped h =>
    obtain ⟨hsilent, hstop, hload⟩ := stopped_step h e
    exact ⟨.stopped (hstop.silent hsilent), hload⟩

theorem Phase.justified {r : EndpointConnectorResult} (h : Phase o s) (hr : raised o = [r]) : Justified o r := by
  cases h with
  | racing h | stopped h =>
    rw [h.raised] at hr
    cases hr
  | ended h =>
    obtain ⟨r', hr', hj⟩ := h.raised
    rw [hr] at hr'
    cases hr'
    exact hj

theorem racing_connect (delay now : Int) (timeout : Option Int) (inits opens : Bool) (p : Part)
    (hp : p = (create delay).connect now timeout inits opens) : Racing p.2 p.1 := by
  simp only [FallbackableUpstreamConnector.connect, create] at hp
  obtain ⟨hnone, hcon⟩ := connect_fresh timeout inits opens
  generalize fresh.connect timeout inits opens = r at hp hnone hcon
  obtain ⟨c, err, effects⟩ := r
  obtain ⟨hr, hh, hs⟩ := silent_tell .main effects
  simp only [absorb, slot, Slot.absorb_fresh hnone] at hp
  cases err with
  | none =>
    subst hp
    split at hcon
    · obtain ⟨-, hlive, -⟩ := hcon
      have hrun : Running (tell .main effects ++ [.fallbackIn delay]) .main ⟨some c, false, none⟩ :=
        ⟨⟨c, rfl, .inl ⟨hlive, rfl⟩⟩, rfl, handled_after (hh _) rfl⟩
      exact ⟨raised_after hr rfl, .inl hrun,
        .inl ⟨rfl, rfl, rfl, handled_after (hh _) rfl,
          started_after hs rfl⟩, fun hboth => hrun.not_failed hboth.1⟩
    · obtain ⟨e, he⟩ := hcon
      cases he
  | some e =>
    subst hp
    refine ⟨raised_after hr rfl, .inr (failed_settled (hh .main) rfl),
      .inl ⟨rfl, rfl, rfl, handled_after (hh _) rfl, started_after hs rfl⟩, ?_⟩
    rintro ⟨-, hf⟩
    exact absurd hf.slot (show (⟨some fresh, false, none⟩ : Slot) ≠ .settled by decide)

theorem afterCalls_append (p : Part) (es fs : List Call) :
    afterCalls p (es ++ fs) = afterCalls (afterCalls p es) fs := by
  induction es generalizing p with
  | nil => rfl
  | cons e es ih => exact ih _

theorem phase_run (h : Phase p.2 p.1) (es : List Call) : Phase (afterCalls p es).2 (afterCalls p es).1 := by
  induction es generalizing p with
  | nil => exact h
  | cons e es ih => exact ih (h.step e).1

theorem silent_after (h : Over p.2 p.1 ∨ Stopped p.2 p.1) (es : List Call) :
    raised (afterCalls p es).2 = raised p.2 ∧ started (afterCalls p es).2 = started p.2 := by
  induction es generalizing p with
  | nil => exact ⟨rfl, rfl⟩
  | cons e es ih =>
    have hstep : Silent (p.1.step e).2 ∧ (Over (p.2 ++ (p.1.step e).2) (p.1.step e).1 ∨
        Stopped (p.2 ++ (p.1.step e).2) (p.1.step e).1) := by
      rcases h with h | h
      · obtain ⟨hsilent, hover, -⟩ := over_step h e
        exact ⟨hsilent, .inl (hover.silent hsilent)⟩
      · obtain ⟨hsilent, hstop, -⟩ := stopped_step h e
        exact ⟨hsilent, .inr (hstop.silent hsilent)⟩
    obtain ⟨⟨hr, -, hs⟩, hnext⟩ := hstep
    obtain ⟨hraised, hstarted⟩ := ih (p := andDo p fun s => s.step e) hnext
    refine ⟨hraised.trans ?_, hstarted.trans ?_⟩
    · rw [andDo_snd, raised_append, hr, append_nil]
    · rw [andDo_snd, started_append, hs, Nat.add_zero]

/-- While the race goes on, some call brings it on: an upstream has to report, or a task or the timer
is due. -/
theorem Racing.outstanding (h : Racing o s) : ∃ e, e ≠ .disconnect ∧ (s.step e).1.load < s.load := by
  suffices hmoves : ∃ e, e ≠ Call.disconnect ∧ (s.step e).1 ≠ s by
    obtain ⟨e, he, hne⟩ := hmoves
    exact ⟨e, he, (racing_step h e he).2.resolve_left hne⟩
  have hrunning : ∀ side, Running o side (s.slot side) → ∃ e, e ≠ Call.disconnect ∧ (s.step e).1 ≠ s := by
    intro side hrun
    obtain ⟨c, hc, ⟨hlive, -⟩ | ⟨-, htask⟩⟩ := hrun.connector
    · have hslot : ∀ r : SingleUpstreamConnector × List Effect, r.1 ≠ c → (s.absorb side r).1 ≠ s := by
        intro r hne heq
        have hcon := congrArg (fun s' => (s'.slot side).connector) heq
        simp only [absorb, slot_setSlot, Slot.absorb, hc, Option.some.injEq] at hcon
        exact hne hcon
      rcases hlive.moves with hne | hne
      · refine ⟨.upstream side .sessionOpened, nofun, ?_⟩
        simp only [step, hc, hlive.1]
        exact hslot _ hne
      · refine ⟨.deferred side, nofun, ?_⟩
        simp only [step, hc]
        exact hslot _ hne
    · obtain ⟨r, hr⟩ := Option.isSome_iff_exists.mp htask
      refine ⟨.result side, nofun, fun heq => ?_⟩
      have hload := load_handle hr h.delayTask_of_not_tried
      simp only [step, hr] at heq
      rw [heq] at hload
      exact Nat.lt_irrefl _ hload
  rcases h.fallback with hw | ⟨-, hfb⟩
  · refine ⟨.delay 0 true true, nofun, fun heq => ?_⟩
    have hload := (start_phase h hw.delayTask 0 true true _ rfl).2
    simp only [step, hw.delayTask, if_true] at heq
    rw [heq] at hload
    exact Nat.lt_irrefl _ hload
  · rcases h.main with hrun | hmain
    · exact hrunning .main hrun
    · rcases hfb with hrun | hfail
      · exact hrunning .fallback hrun
      · exact absurd ⟨hmain, hfail⟩ h.contested

def run (delay now : Int) (timeout : Option Int) (inits opens : Bool) (es : List Call) : Part :=
  afterCalls ((create delay).connect now timeout inits opens) es

theorem racing_or_over (h : Racing p.2 p.1 ∨ Over p.2 p.1) {es : List Call} (hno : .disconnect ∉ es) :
    Racing (afterCalls p es).2 (afterCalls p es).1 ∨ Over (afterCalls p es).2 (afterCalls p es).1 := by
  induction es generalizing p with
  | nil => exact h
  | cons e es ih =>
    rw [mem_cons, not_or] at hno
    refine ih ?_ hno.2
    rcases h with h | h
    · exact (racing_step h e (Ne.symm hno.1)).1
    · obtain ⟨hsilent, hover, -⟩ := over_step h e
      exact .inr (hover.silent hsilent)

/-- Over every run: at most one result is delivered, the first success, or an error when both sides have
failed; the fallback is started at most once, and nothing after a result or a `disconnect`. As long as
there is neither, a call is outstanding, and each call changes nothing or lowers the load. -/
theorem one_result (delay now : Int) (timeout : Option Int) (inits opens : Bool) (es : List Call) :
    let after := run delay now timeout inits opens
    let p := after es
    (raised p.2).length ≤ 1 ∧
    (∀ side, .upstream ∈ handled side p.2 → raised p.2 = [.upstream]) ∧
    (raised p.2 = [.upstream] → ∃ side, .upstream ∈ handled side p.2) ∧
    (∀ e, raised p.2 = [.error e] → ∀ side, ∃ e', handled side p.2 = [.error e']) ∧
    started p.2 ≤ 1 ∧
    (∀ fs, raised p.2 ≠ [] →
      raised (after (es ++ fs)).2 = raised p.2 ∧ started (after (es ++ fs)).2 = started p.2) ∧
    (∀ fs, raised (after (es ++ .disconnect :: fs)).2 = raised p.2 ∧
      started (after (es ++ .disconnect :: fs)).2 = started p.2) ∧
    (.disconnect ∉ es → raised p.2 = [] → ∃ e, e ≠ .disconnect ∧ (p.1.step e).1.load < p.1.load) ∧
    ∀ e, e ≠ .disconnect → (p.1.step e).1 = p.1 ∨ (p.1.step e).1.load < p.1.load := by
  intro after p
  have hrace := racing_connect delay now timeout inits opens _ rfl
  have hphase : Phase p.2 p.1 := phase_run (.racing hrace) es
  have hrunning : .disconnect ∉ es → Racing p.2 p.1 ∨ Over p.2 p.1 := @racing_or_over _ (.inl hrace) es
  have hafter : ∀ fs, after (es ++ fs) = afterCalls p fs := afterCalls_append _ es
  simp only [hafter]
  refine ⟨?_, fun side hside => ?_, hphase.justified, fun _ => hphase.justified, ?_, fun fs hr => ?_, fun fs => ?_,
    fun hno hr => ?_, fun e => (hphase.step e).2⟩
  · cases hphase with
    | racing h | stopped h => simp [h.raised]
    | ended h =>
      obtain ⟨r, hr, -⟩ := h.raised
      simp [hr]
  · cases hphase with
    | racing h => exact absurd hside (h.no_success side)
    | ended h =>
      obtain ⟨r, hr, hj⟩ := h.raised
      cases r with
      | upstream => exact hr
      | error e =>
        obtain ⟨e', he'⟩ := hj side
        simp [he'] at hside
    | stopped h => exact absurd hside (h.handled side)
  · cases hphase with
    | racing h => exact h.started_le
    | ended h | stopped h => exact h.started
  · cases hphase with
    | racing h | stopped h => exact absurd h.raised hr
    | ended h => exact silent_after (.inl h) fs
  · cases hphase with
    | racing h =>
      have hsilent := (disconnect_spec h.spared).1
      obtain ⟨hr, hs⟩ := silent_after (p := andDo p fun s => s.step .disconnect) (.inr h.disconnect) fs
      refine ⟨hr.trans ?_, hs.trans ?_⟩
      · rw [andDo_snd, raised_append]
        exact (congrArg _ hsilent.1).trans (append_nil _)
      · rw [andDo_snd, started_append]
        exact (congrArg _ hsilent.2.2).trans (Nat.add_zero _)
    | ended h => exact silent_after (.inl h) (.disconnect :: fs)
    | stopped h => exact silent_after (.inr h) (.disconnect :: fs)
  · rcases hrunning hno with h | h
    · exact h.outstanding
    · obtain ⟨r, hr', -⟩ := h.raised
      rw [hr] at hr'
      cases hr'

end FallbackableUpstreamConnector

end TrustTunnel.Connector
