import TrustTunnel.Socks5.Steps

/-!
# Socks5.Calls

What one call of the event loop or of the owner can lead to, from any state in which the tables fit
together: which moves it makes (`perform_spec`), which slips it can have (`Allows`), and which fault it
can end with (`Blamed`). Each is a condition on the call and the state before it. `listener_inv` carries
what the moves keep to whole runs.
-/

namespace TrustTunnel.Socks5

open Lib Lib.Act List

/-! ## Conditions on a call -/

variable (config : Config) (s : Socks5Listener)

namespace Socks5Listener

/-- The call processes the bytes of the connection, which is in a state of the handshake or carries
a stream. -/
def processes (p : Connection → Env → Bool) : Call → Bool
  | .socket id (.readable _ env) => (s.connections.lookup id).any fun c => p c env
  | _ => false

/-- A request is found invalid although its address is incomplete. -/
def overreads (e : Call) : Prop :=
  ∃ id eof env c, e = .socket id (.readable eof env) ∧ s.connections.lookup id = some c ∧
    c.state = .waitingRequest ∧ InvalidBeforeAddress c.unread

end Socks5Listener

open Reaction

/-- The owner frees the TCP connection from inside an event, or the reply of a new association does
not go out, which frees it as well. -/
def Connection.dangles (c : Connection) (env : Env) : Bool :=
  match c.state with
  | .waitingRequest =>
    match processRequest env.reply.localPort c.unread with
    | .ok (.request cmd _ _ _) =>
      if cmd = cmdConnect then env.onRequest.any (frees .tcp)
      else !succeeded env.reply.write
    | _ => false
  | .established => env.onRead.any fun a => a.reactions.any (frees .tcp)
  | _ => false

def Connection.refused (c : Connection) (env : Env) : Bool :=
  match c.state with
  | .idle => processAuthRequest config c.unread = .ok .failed
  | .waitingUsernamePassword => processUsernamePassword config c.unread = .ok .failed
  | .waitingRequest =>
    match processRequest env.reply.localPort c.unread with
    | .ok (.invalid _) => true
    | .ok (.request cmd _ _ _) => cmd != cmdConnect && env.udpSocket.isNone
    | _ => false
  | _ => false

/-- The owner completes a request that is not there, or an association has no address to reply with. -/
def Connection.misused (c : Connection) (env : Env) : Bool :=
  match c.state with
  | .waitingRequest =>
    match processRequest env.reply.localPort c.unread with
    | .ok (.request cmd dst _ _) =>
      if cmd = cmdConnect then 1 < env.onRequest.countP completes
      else associationAtyp dst (env.udpSocket.getD .empty) == .domainName
    | _ => false
  | .established => env.onRead.any fun a => 0 < a.reactions.countP completes
  | _ => false

namespace Socks5Listener

/-- Data is raised for a connection that the owner closed from inside the event before. -/
def staleReads : Call → Bool
  | .task answers => s.connsWithPendingUdp.any fun id =>
      (answers id).any fun a => a.reactions.any (frees .udp)
  | _ => false

def dangles (e : Call) : Bool :=
  s.processes Connection.dangles e || match e with
    | .task answers => s.connsWithPendingUdp.any fun id =>
        ((answers id).any fun a => a.reactions.any (frees .udp)) && (answers id).any fun a => a.result < 0
    | _ => false

def refuses (config : Config) (e : Call) : Bool :=
  s.processes (Connection.refused config) e

/-- The listener stops with a connection that was not announced, or that is not in the place of the
table its identifier names. -/
def sweeps : Call → Bool
  | .stop slot => s.connections.keys.any fun id => (s.connections.lookup id).any fun c =>
      c.proto != some .udp && (s.udpRelays.lookup id).isNone && !(c.state.pastRequest && slot id == id)
  | _ => false

/-- How many requests of a datagram's connection can be completed: one if it is a new one. -/
def requestsOf (relay : ConnId) (key : AddressPair) : Nat :=
  if ((s.udpRelays.lookup relay).any fun r => (r.connectionsByAddr.lookup key).isSome) then 0 else 1

def breaksContract : Call → Bool
  | .socket id (.readable eof env) => s.processes Connection.misused (.socket id (.readable eof env))
  | .udp relay (.datagram src data reactions) =>
    match processUdpHeader data with
    | .ok (.packet dst _ _) => s.requestsOf relay ⟨src, dst⟩ < reactions.countP completes
    | _ => false
  | .task answers => s.connsWithPendingUdp.any fun id =>
      (answers id).any fun a => 0 < a.reactions.countP completes
  | .complete id _ _ => (s.connections.lookup id).any fun c =>
      c.state != .waitingConnectResult && c.state != .failed
  | .send id _ _ => (s.connections.lookup id).any fun c => c.state != .established
  | _ => false

def Blamed (e : Call) : Fault → Prop
  | .memory _ => s.overreads e
  | .useAfterFree => s.dangles e = true
  | .assertion => s.breaksContract e = true ∨ s.dangles e = true

structure Allows (config : Config) (x : Slips) (s : Socks5Listener) (e : Call) : Prop where
  refuse : s.refuses config e = true → x.refuse
  stale : s.staleReads e = true → x.stale
  sweep : s.sweeps e = true → x.sweep

end Socks5Listener

def Slips.any : Slips := ⟨True, True, True⟩

theorem allows_any (e : Call) : s.Allows config .any e :=
  ⟨fun _ => trivial, fun _ => trivial, fun _ => trivial⟩

/-! ## One call -/

section Call

variable {config : Config} {x : Slips} {s : Socks5Listener} {e : Call}

variable {id : ConnId}

open Socks5Listener

theorem processes_eq {p : Connection → Env → Bool} {c : Connection} {eof : Bool} {env : Env}
    (hc : s.view.conn id = some c) : s.processes p (.socket id (.readable eof env)) = p c env := by
  have hl : s.connections.lookup id = some c := hc
  rw [processes, hl]
  rfl

attribute [local simp] Connection.refused

theorem chunkFaults {c : Connection} {eof : Bool} {env : Env} (hc : s.view.conn id = some c)
    (hx : s.Allows config x (.socket id (.readable eof env))) :
    ChunkFaults config (s.Blamed (.socket id (.readable eof env))) x c env := by
  have hrefused : c.refused config env = true → x.refuse := fun h =>
    hx.refuse ((processes_eq hc).trans h)
  have hdangles : c.dangles env = true → s.dangles (.socket id (.readable eof env)) = true := by
    intro h
    simp [dangles, processes_eq hc, h]
  have hmisused : c.misused env = true → s.breaksContract (.socket id (.readable eof env)) = true := fun h =>
    (processes_eq hc : s.processes Connection.misused (.socket id (.readable eof env)) = _).trans h
  constructor
  case auth =>
    intro hs hv
    refine hrefused ?_
    simp [hs, hv]
  case credentials =>
    intro hs hv
    refine hrefused ?_
    simp [hs, hv]
  case request =>
    intro hs
    constructor
    case invalid =>
      intro hbad v
      exact ⟨id, eof, env, c, rfl, hc, hs, hbad⟩
    case refused =>
      intro reply hv
      refine hrefused ?_
      simp [hs, hv]
    case connect =>
      intro dst appName n hv
      refine ⟨fun hlt => .inl (hmisused ?_), fun hfrees => hdangles ?_⟩
      · simp [Connection.misused, hs, hv, hlt]
      · simpa [Connection.dangles, hs, hv] using hfrees
    case associate =>
      intro dst appName n hv
      have hcmd : cmdUdpAssociate ≠ cmdConnect := by decide
      have hlost : succeeded env.reply.write = false → c.dangles env = true := fun hw => by
        simp [Connection.dangles, hs, hv, hcmd, hw]
      refine ⟨fun hnone => hrefused ?_, fun hname => .inl (hmisused ?_), fun _ hw => .inr (hdangles (hlost hw)),
        fun _ hw => hdangles (hlost hw)⟩
      · simp [hs, hv, hcmd, hnone]
      · simp [Connection.misused, hs, hv, hcmd, hname]
  case read =>
    intro hs a ha
    refine ⟨fun hlt => .inl (hmisused ?_), fun hfrees => hdangles ?_⟩
    · simp only [Connection.misused, hs, any_eq_true, decide_eq_true_eq]
      exact ⟨a, ha, hlt⟩
    · simp only [Connection.dangles, hs, any_eq_true]
      exact ⟨a, ha, hfrees⟩

theorem sockHandler_spec {what : SocketEvent} (hi : s.view.Inv) (he : s.enabled (.socket id what) = true)
    (hx : s.Allows config x (.socket id what)) :
    Runs (Reached config x s.view) (s.Blamed (.socket id what)) (sockHandler config id what) s []
      Anywhere := by
  have h : Reached config x s.view [] s := Reached.start hi
  obtain ⟨c, hc, hp⟩ := (Option.any_eq_true ..).mp he
  have hp : c.proto ≠ some .udp := by simpa using hp
  have hsome : (s.connections.lookup id).isSome = true := by rw [hc]; rfl
  refine Runs.get ?_
  rw [if_pos hsome]
  cases what with
  | readable eof env => exact onReadable_spec h hc hp fun _ _ => chunkFaults hc hx
  | error e => exact onSocketError_spec h hc hp e
  | sent n => exact onSent_spec h hc n
  | writeFlush => exact onWriteFlush_spec h hc hp

theorem udpEventHandler_spec {r : ConnId} {what : UdpEvent} (hi : s.view.Inv) (he : s.enabled (.udp r what) = true) :
    Runs (Reached config x s.view) (s.Blamed (.udp r what)) (udpEventHandler r what) s [] Anywhere := by
  have h : Reached config x s.view [] s := Reached.start hi
  obtain ⟨u, hu⟩ := Option.isSome_iff_exists.mp he
  have hr : s.view.relay r = some fun k => u.connectionsByAddr.lookup k :=
    Option.map_eq_some_iff.mpr ⟨u, hu, rfl⟩
  obtain ⟨c, hc, -, -⟩ := hi.related r _ hr
  have hl : s.connections.lookup r = some c := hc
  have hboth : ((s.connections.lookup r).isSome && (s.udpRelays.lookup r).isSome) = true := by
    rw [hl, hu]
    rfl
  refine Runs.get ?_
  rw [if_pos hboth]
  cases what with
  | timeout e => exact terminate_anywhere h hr e
  | datagram src data as =>
    refine onDatagram_spec h hr fun dst appName size hv hlt => .inl ?_
    have hcount : s.requestsOf r ⟨src, dst⟩ = if (u.connectionsByAddr.lookup ⟨src,
      dst⟩).isSome then 0 else 1 := by
      rw [requestsOf, hu]
      rfl
    simp only [breaksContract, hv, hcount]
    exact decide_eq_true hlt

theorem task_spec {answers : ConnId → List Answer} (hi : s.view.Inv) (hx : s.Allows config x (.task answers)) :
    Runs (Reached config x s.view) (s.Blamed (.task answers)) (sendPendingUdpData answers) s []
      Anywhere := by
  refine sendPendingUdpData_spec hi fun id hid => ⟨?_, ?_, ?_⟩
  · intro a ha hlt
    refine .inl ?_
    simp only [breaksContract, any_eq_true, decide_eq_true_eq]
    exact ⟨id, hid, a, ha, hlt⟩
  · intro hfrees
    refine hx.stale ?_
    simp only [staleReads, any_eq_true]
    exact ⟨id, hid, hfrees⟩
  · intro hfrees hneg
    simp only [Blamed, dangles, processes, Bool.false_or, any_eq_true, Bool.and_eq_true, decide_eq_true_eq]
    exact ⟨id, hid, hfrees, hneg⟩

theorem owner_spec {m : Action Unit} {F : Fault → Prop}
    (he : (s.connections.lookup id).all Connection.announced = true)
    (hgone : s.view.conn id = none → Runs (Reached config x s.view) F m s [] Anywhere)
    (hthere : ∀ c proto, s.view.conn id = some c → c.proto = some proto →
      c.state.pastRequest = true → Runs (Reached config x s.view) F m s [] Anywhere) :
    Runs (Reached config x s.view) F m s [] Anywhere := by
  cases hc : s.view.conn id with
  | none => exact hgone hc
  | some c =>
    have hl : s.connections.lookup id = some c := hc
    rw [hl, Option.all_some, Connection.announced, Bool.and_eq_true] at he
    obtain ⟨proto, hp⟩ := Option.isSome_iff_exists.mp he.1
    exact hthere c proto hc hp he.2

theorem react_spec {a : Reaction} {F : Fault → Prop} (hi : s.view.Inv)
    (he : (s.connections.lookup id).all Connection.announced = true)
    (hF : ∀ c, s.view.conn id = some c → a.completes = true → c.state ≠ .waitingConnectResult →
      c.state ≠ .failed → F .assertion) : Runs (Reached config x s.view) F (react id a) s [] Anywhere := by
  have h : Reached config x s.view [] s := Reached.start hi
  refine owner_spec he (fun hc => Runs.of_ok (react_gone hc a []) h trivial) fun c proto hc hp hs => ?_
  cases a with
  | close graceful => exact Runs.mono (closeConnection_spec h hc hp hs graceful) fun _ _ _ _ _ => trivial
  | complete result env =>
    exact Runs.mono (completeConnectRequest_spec h hc hp hs (hF c hc rfl) result env) fun _ _ _ _ _ => trivial
  | turnRead on =>
    exact Runs.mono (turnRead_spec h ⟨c, hc, hp, hs, rfl⟩ on) fun _ _ _ _ _ => trivial

theorem stopCall_spec {slot : ConnId → ConnId} (hi : s.view.Inv) (hx : s.Allows config x (.stop slot)) :
    Runs (Reached config x s.view) (s.Blamed (.stop slot)) (stop slot) s [] fun _ s' =>
      (∀ r, s'.view.relay r = none) ∧ ∀ id, s'.view.conn id = none := by
  refine stop_spec (Reached.start hi) fun id c hc hp hr => ?_
  by_cases hok : c.state.pastRequest = true ∧ slot id = id
  · exact .inr hok
  refine .inl (hx.sweep ?_)
  have hl : s.connections.lookup id = some c := hc
  have hkey : id ∈ s.connections.keys := AList.mem_keys.mp (AList.lookup_isSome.mp (by rw [hl]; rfl))
  have hnone : s.udpRelays.lookup id = none := Option.map_eq_none_iff.mp hr
  simp only [sweeps, any_eq_true]
  refine ⟨id, hkey, ?_⟩
  rw [hl, hnone]
  simpa [hp, Classical.or_iff_not_imp_left] using hok

theorem perform_spec (hi : s.view.Inv) (he : s.enabled e = true) (hx : s.Allows config x e) :
    Runs (Reached config x s.view) (s.Blamed e) (perform config e) s [] fun _ s' =>
      ∀ slot, e = .stop slot → (∀ r, s'.view.relay r = none) ∧ ∀ id, s'.view.conn id = none := by
  have h : Reached config x s.view [] s := Reached.start hi
  have hany : ∀ {m : Action Unit}, (∀ slot, e ≠ .stop slot) →
      Runs (Reached config x s.view) (s.Blamed e) m s [] Anywhere →
      Runs (Reached config x s.view) (s.Blamed e) m s [] fun _ s' =>
        ∀ slot, e = .stop slot → (∀ r, s'.view.relay r = none) ∧ ∀ id, s'.view.conn id = none :=
    fun hne hm => Runs.mono hm fun _ _ _ _ _ slot heq => absurd heq (hne slot)
  cases e with
  | accept acquired => exact hany (by simp) (onAccept_spec h acquired)
  | received id data =>
    obtain ⟨c, hc, hp⟩ := (Option.any_eq_true ..).mp he
    exact hany (by simp) (onReceived_spec h hc (by simpa using hp) data)
  | socket id what => exact hany (by simp) (sockHandler_spec hi he hx)
  | udp r what => exact hany (by simp) (udpEventHandler_spec hi he)
  | task answers => exact hany (by simp) (task_spec hi hx)
  | complete id result env =>
    refine hany (by simp) (react_spec (a := .complete result env) hi he fun c hc _ hw hf => .inl ?_)
    have hl : s.connections.lookup id = some c := hc
    rw [breaksContract, hl]
    simp [hw, hf]
  | send id data env =>
    refine hany (by simp) (owner_spec he (fun hc => ?_) fun c proto hc hp hs => ?_)
    · have hl : s.connections.lookup id = none := hc
      have hrun : sendData id data env s [] = (.ok (), s, [.returned (-1)]) := by
        rw [sendData, get_bind]
        simp only [hl]
        rfl
      exact Runs.of_ok hrun (h.silent rfl) trivial
    · refine sendData_spec h hc hp (fun hne => .inl ?_) data env
      have hl : s.connections.lookup id = some c := hc
      rw [breaksContract, hl]
      simp [hne]
  | turnRead id on =>
    exact hany (by simp) (react_spec (a := .turnRead on) hi he fun _ _ hcompletes => by cases hcompletes)
  | close id graceful =>
    exact hany (by simp) (react_spec (a := .close graceful) hi he fun _ _ hcompletes => by cases hcompletes)
  | stop slot =>
    refine Runs.mono (stopCall_spec hi hx) fun _ _ _ _ hpost slot' _ => hpost

end Call

/-! ## Runs -/

section Runs

variable {config : Config} {x : Slips}

structure Stepped (config : Config) (x : Slips) (r : Run) (e : Call) : Prop where
  reached : Reached config x r.listener.view (step config r e).2 (step config r e).1.listener
  fault : ∀ f, r.fault = none → (step config r e).1.fault = some f → r.listener.Blamed e f
  stopped : ∀ slot, e = .stop slot → (step config r e).1.fault = none →
    (∀ i, (step config r e).1.listener.view.relay i = none) ∧ ∀ i, (step config r e).1.listener.view.conn i = none

variable {r : Run} {e : Call}

theorem step_idle (config : Config) (h : ¬ (r.fault.isNone && r.listener.enabled e) = true) :
    step config r e = (r, []) := if_neg h

theorem step_perform (config : Config) (h : (r.fault.isNone && r.listener.enabled e) = true) :
    step config r e = (⟨(perform config e r.listener []).2.1, faultOf (perform config e r.listener []).1⟩,
      (perform config e r.listener []).2.2) := if_pos h

theorem step_spec (hi : r.listener.view.Inv) (hx : r.listener.Allows config x e) : Stepped config x r e := by
  by_cases henabled : (r.fault.isNone && r.listener.enabled e) = true
  · have hrun := step_perform config henabled
    rw [Bool.and_eq_true] at henabled
    have hends := perform_spec hi henabled.2 hx
    constructor
    case reached =>
      rw [hrun]
      exact hends.inv
    case fault =>
      intro f _ hf
      rw [hrun] at hf
      cases hresult : (perform config e r.listener []).1 with
      | ok _ =>
        rw [hresult] at hf
        cases hf
      | error f' =>
        rw [hresult] at hf
        cases hf
        exact hends.fault f hresult
    case stopped =>
      intro slot heq hf
      rw [hrun] at hf ⊢
      cases hresult : (perform config e r.listener []).1 with
      | ok _ => exact hends.value () hresult slot heq
      | error f' =>
        rw [hresult] at hf
        cases hf
  · have hrun := step_idle config henabled
    constructor
    case reached =>
      rw [hrun]
      exact Reached.start hi
    case fault =>
      intro f hnone hf
      rw [hrun, hnone] at hf
      cases hf
    case stopped =>
      rintro slot rfl hf
      rw [hrun] at hf
      exact absurd (by rw [hf]; rfl) henabled

theorem step_any (config : Config) (e : Call) (hi : r.listener.view.Inv) : Stepped config .any r e :=
  step_spec hi (allows_any config r.listener e)

theorem stop_faultless {slot : ConnId → ConnId} (hi : r.listener.view.Inv) (hr : r.fault = none) :
    (step config r (.stop slot)).1.fault = none := by
  have hstep := step_any config (.stop slot) hi
  cases hf : (step config r (.stop slot)).1.fault with
  | none => rfl
  | some f =>
    have hblamed := hstep.fault f hr hf
    cases f with
    | memory v =>
      obtain ⟨id, eof, env, c, heq, -⟩ := hblamed
      cases heq
    | useAfterFree => cases hblamed
    | assertion => rcases hblamed with h | h <;> cases h

theorem empty_inv : (listener config).init.listener.view.Inv where
  fresh id c h := (by cases h)
  proper id c h := (by cases h)
  related r t h := (by cases h)
  keeping id c h := (by cases h)
  listed r t k id h := (by cases h)
  owned id c h := (by cases h)
  queued id h := (by cases h)

theorem listener_inv {C : Run → Call → Prop} {K : List Out → View → Prop}
    (hx : ∀ r e, C r e → r.listener.Allows config x e) (h0 : K [] (listener config).init.listener.view)
    (hmove : ∀ l v outs v', v.Inv → K l v → Move config x v outs v' → K (l ++ outs) v')
    {es : List Call} (hmeets : (listener config).Meets C (listener config).init es) :
    ((listener config).exec (listener config).init es).listener.view.Inv ∧
      K (System.outputs ((listener config).trace (listener config).init es))
        ((listener config).exec (listener config).init es).listener.view := by
  refine (listener config).inv_run
    (J := fun h r => r.listener.view.Inv ∧ K (System.outputs h) r.listener.view) ⟨empty_inv, h0⟩ ?_ es hmeets
  intro h r e hboth hc
  rw [System.outputs_append, System.outputs_record]
  exact (step_spec hboth.1 (hx r e hc)).reached.path.inv (K := fun l v => v.Inv ∧ K l v) hboth
    fun l v outs v' hv hm => ⟨hm.keepsInv hv.1, hmove l v outs v' hv.1 hv.2 hm⟩

theorem tables_inv (config : Config) (es : List Call) :
    ((listener config).exec (listener config).init es).listener.view.Inv :=
  (listener_inv (K := fun _ _ => True) (fun r e _ => allows_any config r.listener e) trivial
    (fun _ _ _ _ _ _ _ => trivial) ((listener config).meets_true _ es)).1

/-- In every state that calls lead to: a connection keeps a relay exactly when it is an established association,
and a relay lists, under their addresses, exactly the UDP connections that belong to it; the relay of each of
these is there. Ids that were not given out are free. -/
theorem associations_agree (config : Config) (es : List Call) :
    let v := ((listener config).exec (listener config).init es).listener.view
    (∀ r, (v.relay r).isSome = true ↔ ∃ c, v.conn r = some c ∧ c.proto = none ∧ c.state = .established) ∧
    (∀ r t, v.relay r = some t → ∀ k id, t k = some id ↔
      ∃ c, v.conn id = some c ∧ c.proto = some .udp ∧ c.relay = r ∧ c.addr = k) ∧
    (∀ id c, v.conn id = some c → id < v.nextId ∧ (c.proto = some .udp → (v.relay c.relay).isSome = true)) := by
  intro v
  have h : v.Inv := tables_inv config es
  refine ⟨fun r => ⟨fun hr => ?_, fun ⟨c, hc, hp, hs⟩ => h.keeping r c hc hp hs⟩, fun r t hr k id => ?_,
    fun id c hc => ⟨h.fresh id c hc, fun hp => ?_⟩⟩
  · obtain ⟨t, ht⟩ := Option.isSome_iff_exists.mp hr
    exact h.related r t ht
  · refine ⟨h.listed r t k id hr, fun ⟨c, hc, hp, hrel, hk⟩ => ?_⟩
    subst hrel hk
    obtain ⟨t', ht', hid⟩ := h.owned id c hc hp
    cases hr.symm.trans ht'
    exact hid
  · obtain ⟨t, ht, -⟩ := h.owned id c hc hp
    simp [ht]

theorem listener_any {K : List Out → View → Prop} (h0 : K [] (listener config).init.listener.view)
    (hmove : ∀ l v outs v', v.Inv → K l v → Move config .any v outs v' → K (l ++ outs) v') (es : List Call) :
    K (System.outputs ((listener config).trace (listener config).init es))
      ((listener config).exec (listener config).init es).listener.view :=
  (listener_inv (fun r e _ => allows_any config r.listener e) h0 hmove ((listener config).meets_true _ es)).2

end Runs

def quietEnv : Env :=
  { reply := ⟨1080, noError⟩, remote := .empty, udpSocket := none, boundSize := by simp,
    onRequest := [], onRead := [] }

def noCredentials : Config := ⟨[], []⟩

def greetedWith (request : Bytes) : List Call :=
  [.accept true, .received 1 [5, 1, 0], .socket 1 (.readable false quietEnv), .received 1 request]

end TrustTunnel.Socks5
