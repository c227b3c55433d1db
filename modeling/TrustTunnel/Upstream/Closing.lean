import TrustTunnel.Upstream.Invariant

/-!
# Upstream.Closing

Closing a connection that waits for its child to open. `close_connection` looks for the id in the
table of the connections that a child has; a pending one is not in it, the call does nothing, and the
connection is opened with the others when the child is ready.
-/

namespace TrustTunnel.Upstream

open Lib List

namespace Mux

/-- The connection is pending, and the session of its child is still opening. -/
def Waits (m : Mux) (id : ConnId) : Prop :=
  ∃ c info, m.pending.lookup id = some c ∧ m.pool.lookup c.upstreamId = some info ∧ info.state = .openingSession

/-- A child reports nothing of a connection that it does not have. -/
def honest (m : Mux) : Call → Bool
  | .child u (.connectionOpened id) _ | .child u (.connectionClosed id) _ =>
    (m.pool.lookup u).any fun info => info.connections.contains id
  | .child u (.error id _) _ =>
    id == nonId || (m.pool.lookup u).any fun info => info.connections.contains id
  | _ => true

/-- What the outputs show of a connection once it was closed: no child is asked to open it, it is not
announced, its end is raised once at most. -/
structure StaysClosed (id : ConnId) (outs : List Output) : Prop where
  notOpened : ∀ u request, .asked u (.openConnection id request) ∉ outs
  notAnnounced : .raised (.connectionOpened id) ∉ outs
  closedOnce : outs.count (.raised (.connectionClosed id)) ≤ 1

/-- The call closes the connection for good, whatever comes later, and its end can be raised. -/
def Closes (n : Nat) (m : Mux) (id : ConnId) (graceful async : Bool) : Prop :=
  ∀ later, (system n).Meets (fun m c => m.honest c = true) m (.closeConnection id graceful async :: later) →
    StaysClosed id (System.outputs ((system n).trace m (.closeConnection id graceful async :: later))) ∧
    ∃ more, (system n).Meets (fun m c => m.honest c = true) m
        (.closeConnection id graceful async :: later ++ more) ∧
      (System.outputs ((system n).trace m (.closeConnection id graceful async :: later ++ more))).count
        (.raised (.connectionClosed id)) = 1

variable {m : Mux} {id : ConnId}

theorem closeConnection_state (m : Mux) (id : ConnId) (graceful async : Bool) :
    (m.closeConnection id graceful async).1 = m := by
  unfold closeConnection
  repeat' split
  all_goals rfl

theorem asked_childOpened {c : PendingConnection} (hc : m.pending.lookup id = some c)
    (hu : (m.pool.lookup c.upstreamId).isSome) (r : Replies) :
    .asked c.upstreamId (.openConnection id c.request) ∈ (m.childOpened c.upstreamId r).2 := by
  have hmem : ⟨id, c⟩ ∈ (m.markOpened c.upstreamId).pendingOf c.upstreamId := pendingOf_mem hc rfl
  refine mem_append_right _ (mem_forEach (I := fun s : Mux => s.Opened c.upstreamId)
    (opened_markOpened hu) (fun e _ s hs => ?_) hmem fun s hs => ?_)
  · exact ((passFrame_proceedAndErase hs r e).opened _).mpr hs
  have hask := openConnectionOn_opened hs id c.request (r.openConnection id)
  simp only [proceedAndErase, proceedPendingConnection, hask, andDo_snd, append_nil]
  cases r.openConnection id with
  | true => exact mem_singleton_self _
  | false => exact mem_append_left _ (mem_singleton_self _)

/-- The connections for which closing does what it should are those that do not wait. -/
theorem closed_waiting_iff (n : Nat) (m : Mux) (id : ConnId) (graceful async : Bool) :
    (m.Waits id → Closes n m id graceful async) ↔ ¬ m.Waits id := by
  refine ⟨fun h hw => ?_, fun h hw => absurd hw h⟩
  have ⟨c, info, hc, hu, _⟩ := hw
  -- the next thing that happens is that the child opens
  have hstays := (h hw [.child c.upstreamId .sessionOpened allAccepted] ⟨rfl, rfl, trivial⟩).1
  refine hstays.notOpened c.upstreamId c.request ?_
  have hstate : ((system n).step m (.closeConnection id graceful async)).1 = m :=
    closeConnection_state m id graceful async
  have hsome : (m.pool.lookup c.upstreamId).isSome := by rw [hu]; rfl
  simp only [System.trace, System.outputs, System.record, flatMap_cons, flatMap_nil, hstate, append_nil]
  refine mem_append_right _ ?_
  have hstep : (system n).step m (.child c.upstreamId .sessionOpened allAccepted)
      = m.childOpened c.upstreamId allAccepted := by
    change m.childUpstreamHandler c.upstreamId .sessionOpened allAccepted = _
    rw [childUpstreamHandler, if_neg (by rw [hu]; exact Bool.false_ne_true)]
  rw [hstep]
  exact asked_childOpened hc hsome allAccepted

def closedWhileWaiting : List Call :=
  [.openSession none allAccepted, .openConnection anyRequest allAccepted, .closeConnection 1 false true,
    .child 0 .sessionOpened allAccepted, .child 0 (.connectionOpened 1) allAccepted]

theorem opened_after_close : (system 1).Meets (fun m c => m.honest c = true) (init 1) closedWhileWaiting ∧
      ((system 1).exec (init 1) (closedWhileWaiting.take 2)).pending.lookup 1 = some ⟨0, anyRequest⟩ ∧
      System.outputs ((system 1).trace ((system 1).exec (init 1) (closedWhileWaiting.take 2))
        (closedWhileWaiting.drop 2)) = [.raised .sessionOpened, .asked 0 (.openConnection 1 anyRequest),
          .raised (.connectionOpened 1)] := by
  decide +kernel

end Mux
end TrustTunnel.Upstream
