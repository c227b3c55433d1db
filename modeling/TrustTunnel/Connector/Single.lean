import TrustTunnel.Core.Types
import TrustTunnel.Lib.Fsm

/-!
# Connector.Single

`SingleUpstreamConnector` (`single_upstream_connector.cpp`): opens the session of one upstream and
reports to its owner whether that succeeded.
-/

namespace TrustTunnel.Connector

open Lib

inductive EndpointConnectorResult where
  | upstream
  | error (e : VpnError)
  deriving DecidableEq

inductive State where
  | disconnected
  | connecting
  | disconnecting
  deriving DecidableEq

inductive Event where
  | runConnect
  | disconnect
  | deferredDisconnect
  | sessionOpened
  | sessionClosed
  | sessionError
  | healthCheckError
  deriving DecidableEq

inductive Action where
  | doConnect
  | doDisconnect
  | submitDisconnect
  | raiseConnected
  | raiseDisconnected

structure SingleUpstreamConnector where
  state : State
  /-- the upstream has not been handed over -/
  upstream : Bool
  pendingError : Option VpnError
  deferredTask : Bool
  deriving DecidableEq

structure EventData where
  error : Option VpnError
  timeout : Option Int
  opens : Bool

def EventData.null : EventData := ⟨none, none, true⟩

inductive Effect where
  | openSession (timeout : Option Int)
  | closeSession
  | result (r : EndpointConnectorResult)

def noError : VpnError := ⟨.noError, ""⟩

variable (c : SingleUpstreamConnector)

namespace SingleUpstreamConnector

def keepError (data : EventData) : SingleUpstreamConnector :=
  match c.pendingError, data.error with
  | none, some e => if e.code = .noError then c else { c with pendingError := some e }
  | _, _ => c

theorem keepError_upstream (data : EventData) : (c.keepError data).upstream = c.upstream := by
  unfold keepError
  split
  · split <;> rfl
  · rfl

def run : Action → EventData → SingleUpstreamConnector → SingleUpstreamConnector × List Effect
  | .doConnect, data, c =>
    (if data.opens then c
      else { c with pendingError := some ⟨.error, "Failed to open session with endpoint"⟩ },
      [.openSession data.timeout])
  | .doDisconnect, data, c => ({ c.keepError data with deferredTask := false }, [.closeSession])
  | .submitDisconnect, data, c => ({ c.keepError data with deferredTask := true }, [])
  | .raiseConnected, _, c => ({ c with upstream := false }, [.result .upstream])
  | .raiseDisconnected, data, c =>
    ({ c with pendingError := none }, [.result (.error ((c.pendingError.or data.error).getD noError))])

def transitionTable : List (Row State Event Empty Action) :=
  [⟨some .disconnected, .runConnect, none, some .doConnect, some .connecting, none⟩,
   ⟨some .disconnected, .sessionClosed, none, none, none, none⟩,
   ⟨some .disconnected, .disconnect, none, none, none, none⟩,
   ⟨some .connecting, .sessionOpened, none, none, some .disconnected, some .raiseConnected⟩,
   ⟨some .connecting, .sessionClosed, none, none, some .disconnected, some .raiseDisconnected⟩,
   ⟨some .connecting, .sessionError, none, some .submitDisconnect, some .disconnecting, none⟩,
   ⟨some .disconnecting, .sessionClosed, none, none, some .disconnected, some .raiseDisconnected⟩,
   ⟨some .disconnecting, .deferredDisconnect, none, some .doDisconnect, some .disconnected,
     some .raiseDisconnected⟩,
   ⟨none, .disconnect, none, some .doDisconnect, some .disconnected, none⟩]

def fsm : Machine State Event Empty Action SingleUpstreamConnector EventData Effect :=
  ⟨transitionTable, state, fun q c => { c with state := q }, (fun g _ _ => g.elim), run⟩

def fresh : SingleUpstreamConnector := ⟨.disconnected, true, none, false⟩

def disconnect : SingleUpstreamConnector × List Effect :=
  fsm.perform .disconnect .null c

/-- `connect`, where `inits` and `opens` are what `init` and `open_session` of the upstream return. -/
def connect (timeout : Option Int) (inits opens : Bool) : SingleUpstreamConnector × Option VpnError × List Effect :=
  if c.state ≠ .disconnected then (c, some ⟨.error, "Invalid state"⟩, [])
  else if !inits then (c, some ⟨.error, "Failed to initialize upstream"⟩, [])
  else
    let r := fsm.perform .runConnect ⟨none, timeout, opens⟩ c
    match r.1.pendingError with
    | some e =>
      let d := disconnect { r.1 with pendingError := none }
      (d.1, some e, r.2 ++ d.2)
    | none => (r.1, none, r.2)

inductive UpstreamEvent where
  | sessionOpened
  | sessionClosed
  | healthCheckError (e : Option VpnError)
  | error (e : VpnError)
  deriving DecidableEq

def onUpstream : UpstreamEvent → SingleUpstreamConnector × List Effect
  | .sessionOpened => fsm.perform .sessionOpened .null c
  | .sessionClosed => fsm.perform .sessionClosed .null c
  | .healthCheckError e => fsm.perform .healthCheckError ⟨e, none, true⟩ c
  | .error e => fsm.perform .sessionError ⟨some e, none, true⟩ c

def onDeferred : SingleUpstreamConnector × List Effect :=
  if c.deferredTask then fsm.perform .deferredDisconnect .null { c with deferredTask := false }
  else (c, [])

/-! ## What a connector reports -/

def results (effects : List Effect) : List EndpointConnectorResult :=
  effects.filterMap fun
    | .result r => some r
    | _ => none

def Live : Prop :=
  c.upstream = true ∧
    (c.state = .connecting ∧ c.deferredTask = false ∨ c.state = .disconnecting ∧ c.deferredTask = true)

def load : Nat :=
  (match c.state with
    | .connecting => 4
    | .disconnecting => 2
    | .disconnected => 0) + c.deferredTask.toNat

variable {c : SingleUpstreamConnector}

theorem onUpstream_idle (h : c.state = .disconnected) (e : UpstreamEvent) : c.onUpstream e = (c, []) := by
  obtain ⟨state, upstream, pending, deferred⟩ := c
  cases h
  cases e <;> rfl

theorem onDeferred_idle (h : c.state = .disconnected) :
    c.onDeferred = (c, []) ∨ (c.onDeferred.1.state = .disconnected ∧ results c.onDeferred.2 = [] ∧
      c.onDeferred.1.load < c.load) := by
  obtain ⟨state, upstream, pending, deferred⟩ := c
  cases h
  cases deferred with
  | false => exact .inl rfl
  | true => exact .inr ⟨rfl, rfl, show 0 < 1 by decide⟩

def Proceeds (c : SingleUpstreamConnector) (r : SingleUpstreamConnector × List Effect) : Prop :=
  r = (c, []) ∨ (r.1.Live ∧ results r.2 = [] ∧ r.1.load < c.load) ∨
    (r.1.state = .disconnected ∧ (∃ res, results r.2 = [res]) ∧ r.1.load + 1 < c.load)

theorem onUpstream_live (h : c.Live) (e : UpstreamEvent) : Proceeds c (c.onUpstream e) := by
  obtain ⟨state, upstream, pending, deferred⟩ := c
  obtain ⟨hup, ⟨hs, hd⟩ | ⟨hs, hd⟩⟩ := h
  · cases hup
    cases hs
    cases hd
    cases e with
    | sessionOpened | sessionClosed => exact .inr (.inr ⟨rfl, ⟨_, rfl⟩, show 0 + 1 < 4 by decide⟩)
    | healthCheckError e => exact .inl rfl
    | error e => exact .inr (.inl ⟨⟨keepError_upstream _ _, .inr ⟨rfl, rfl⟩⟩, rfl, show 3 < 4 by decide⟩)
  · cases hs
    cases hd
    cases e with
    | sessionOpened | healthCheckError e | error e => exact .inl rfl
    | sessionClosed => exact .inr (.inr ⟨rfl, ⟨_, rfl⟩, show 1 + 1 < 3 by decide⟩)

theorem onDeferred_live (h : c.Live) : Proceeds c c.onDeferred := by
  obtain ⟨state, upstream, pending, deferred⟩ := c
  obtain ⟨hup, ⟨hs, hd⟩ | ⟨hs, hd⟩⟩ := h
  · cases hd
    exact .inl rfl
  · cases hs
    cases hd
    exact .inr (.inr ⟨rfl, ⟨_, rfl⟩, show 0 + 1 < 3 by decide⟩)

theorem Live.moves (h : c.Live) : (c.onUpstream .sessionOpened).1 ≠ c ∨ c.onDeferred.1 ≠ c := by
  obtain ⟨-, ⟨hs, -⟩ | ⟨hs, hd⟩⟩ := h
  · left
    intro heq
    obtain ⟨state, upstream, pending, deferred⟩ := c
    cases hs
    cases congrArg state heq
  · right
    intro heq
    obtain ⟨state, upstream, pending, deferred⟩ := c
    cases hs
    cases hd
    cases congrArg state heq

theorem disconnect_idle (c : SingleUpstreamConnector) :
    c.disconnect.1.state = .disconnected ∧ results c.disconnect.2 = [] := by
  obtain ⟨state, upstream, pending, deferred⟩ := c
  cases state <;> exact ⟨rfl, rfl⟩

theorem connect_fresh (timeout : Option Int) (inits opens : Bool) :
    results (fresh.connect timeout inits opens).2.2 = [] ∧
      if inits && opens then (fresh.connect timeout inits opens).2.1 = none ∧
          (fresh.connect timeout inits opens).1.Live ∧ (fresh.connect timeout inits opens).1.load = 4
        else ∃ e, (fresh.connect timeout inits opens).2.1 = some e := by
  cases inits with
  | false => exact ⟨rfl, _, rfl⟩
  | true =>
    cases opens with
    | false => exact ⟨rfl, _, rfl⟩
    | true => exact ⟨rfl, rfl, ⟨rfl, .inl ⟨rfl, rfl⟩⟩, rfl⟩

end SingleUpstreamConnector

end TrustTunnel.Connector
