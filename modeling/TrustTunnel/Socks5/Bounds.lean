import TrustTunnel.Socks5.Calls

/-!
# Socks5.Bounds

Reads of received bytes and copies into replies. Whatever clients send and however it is cut, a byte
outside what was received is used, or a copy of a wrong length made, in one case only: the address of a
request has not arrived when the request is found to be invalid (`memory_violation_iff`). The reply is
composed with an address length that was not tested then, and that is negative if the length byte itself
is missing.
-/

namespace TrustTunnel.Socks5

open Lib Lib.Act

section Request

variable {s : Socks5Listener} {id : ConnId} {c : Connection}

theorem onRequest_violates (s : Socks5Listener) (id : ConnId) (env : Env) (hbad : InvalidBeforeAddress c.unread)
    (l : List Out) :
    ∃ v, onRequest id c.unread env s l = (.error (.memory v), s, l) := by
  cases hverdict : processRequest env.reply.localPort c.unread with
  | ok verdict =>
    exact absurd hbad ((processRequest_ok_iff env.reply.localPort c.unread).mp ⟨verdict, hverdict⟩)
  | error v =>
    refine ⟨v, ?_⟩
    have haccess : access (processRequest env.reply.localPort c.unread) s l = (.error (.memory v), s, l) := by
      rw [hverdict]
      rfl
    exact bind_error haccess

theorem InvalidBeforeAddress.ne_nil {chunk : Bytes} (h : InvalidBeforeAddress chunk) : chunk.isEmpty = false := by
  cases chunk with
  | nil => exact absurd h not_false
  | cons b rest => rfl

theorem sockHandler_violates (config : Config) (eof : Bool) (env : Env) (hi : s.view.Inv) (hc : s.view.conn id = some c)
    (hs : c.state = .waitingRequest) (hbad : InvalidBeforeAddress c.unread) (l : List Out) :
    ∃ v, sockHandler config id (.readable eof env) s l = (.error (.memory v), s, l) := by
  obtain ⟨v, hv⟩ := onRequest_violates s id env hbad l
  have hsome : (s.connections.lookup id).isSome = true := by
    have hl : s.connections.lookup id = some c := hc
    rw [hl]
    rfl
  have hassoc : s.isUdpAssociation id c = false := by
    refine Bool.of_not_eq_true fun h => ?_
    obtain ⟨t, hr⟩ := Option.isSome_iff_exists.mp ((isUdpAssociation_iff hc hi).mp h)
    obtain ⟨c', hc', -, hs'⟩ := hi.related id t hr
    rw [hc] at hc'
    cases hc'
    rw [hs] at hs'
    cases hs'
  refine ⟨v, ?_⟩
  rw [sockHandler, get_bind, if_pos hsome]
  rw [onReadable, bind_ok (deref_ok hc l), get_bind, hbad.ne_nil, hassoc]
  rw [onChunk, hs]
  exact hv

end Request

/-- After any run, the next call uses a byte that was not received or makes a copy of a wrong length
exactly if it is for a connection that waits for a request, and the bytes of the request so far make it
invalid before its address is there. -/
theorem memory_violation_iff (config : Config) (es : List Call) (e : Call)
    (hrun : ((listener config).exec (listener config).init es).fault = none) :
    (∃ v, ((listener config).step ((listener config).exec (listener config).init es) e).1.fault =
        some (.memory v)) ↔ ((listener config).exec (listener config).init es).listener.overreads e := by
  have hi := tables_inv config es
  generalize (listener config).exec (listener config).init es = r at hrun hi ⊢
  constructor
  · rintro ⟨v, hv⟩
    exact (step_any config e hi).fault (.memory v) hrun hv
  rintro ⟨id, eof, env, c, rfl, hc, hs, hbad⟩
  obtain ⟨v, hv⟩ := sockHandler_violates config eof env hi hc hs hbad []
  have hp : c.proto ≠ some .udp := by
    intro hp
    rcases ((hi.proper id c hc).udp hp).1 with h | h <;> rw [hs] at h <;> cases h
  have henabled : (r.fault.isNone && r.listener.enabled (.socket id (.readable eof env))) = true := by
    rw [hrun]
    show (r.listener.connections.lookup id).any (fun c => c.proto != some .udp) = true
    rw [hc]
    exact bne_iff_ne.mpr hp
  refine ⟨v, ?_⟩
  show (step config r (.socket id (.readable eof env))).1.fault = _
  rw [step_perform config henabled]
  show faultOf (sockHandler config id (.readable eof env) r.listener []).1 = _
  rw [hv]
  rfl

/-- A request for a domain name, complete. -/
theorem memory_violation_complete : ((listener noCredentials).exec (listener noCredentials).init
        (greetedWith [5, 1, 0, 3, 1, 97, 0, 80])).fault = none ∧
      ((∃ v, ((listener noCredentials).step ((listener noCredentials).exec (listener noCredentials).init
          (greetedWith [5, 1, 0, 3, 1, 97, 0, 80])) (.socket 1 (.readable false quietEnv))).1.fault =
            some (.memory v)) ↔ ((listener noCredentials).exec (listener noCredentials).init
          (greetedWith [5, 1, 0, 3, 1, 97, 0, 80])).listener.overreads (.socket 1 (.readable false quietEnv))) :=
  ⟨by decide, memory_violation_iff _ _ _ (by decide)⟩

/-- A wrong version in front of an address: a copy of negative length if the length byte of the name is
missing, and bytes that were not received if the address is. -/
theorem invalid_before_address :
    ((listener noCredentials).step ((listener noCredentials).exec (listener noCredentials).init
        (greetedWith [4, 1, 0, 3])) (.socket 1 (.readable false quietEnv))).1.fault = some (.memory .negativeLength) ∧
      ((listener noCredentials).step ((listener noCredentials).exec (listener noCredentials).init
        (greetedWith [4, 1, 0, 1])) (.socket 1 (.readable false quietEnv))).1.fault = some (.memory .readPastEnd) :=
  ⟨by decide +kernel, by decide +kernel⟩

end TrustTunnel.Socks5
