import TrustTunnel.Lib.Map
import TrustTunnel.Tunnel.Route
import TrustTunnel.Vpn.KillSwitch

/-!
# Tunnel.Leak

The client as a whole: the session and the tunnel it completes connect requests on, driven by the
calls of the session, the requests and the closing of connections, and the results of the resolver,
in any order.

With the kill switch on, nothing but a decision about a connection takes it past the endpoint: the final
action of a request, or the action the tunnel gives to the connections it does not ask about.
-/

namespace TrustTunnel.Tunnel

open Lib List

/-! ## The client -/

structure Client where
  vpn : Vpn
  connections : Map ConnId VpnConnection

structure ClientConnectRequest where
  id : ConnId
  dst : TunnelAddress
  appName : Bytes
  dnsHandlerBypass : Bool

inductive ClientCall where
  | session (call : Call)
  | connectRequest (listener : Listener) (request : ClientConnectRequest)
  | resolved (id : ConnId) (result : Option (List SocketAddress))
  | completeConnectRequestTask (id : ConnId)
  | connectionClosed (id : ConnId)

inductive ClientOut where
  | session (o : Out)
  /-- the action with which a request of the connection is to be completed -/
  | decided (id : ConnId) (action : Option VpnConnectAction)
  | connectRequest (id : ConnId)
  | tunnel (id : ConnId) (e : Effect)
  deriving DecidableEq

def onConnection (f : VpnConnection → VpnConnection × List Effect) (id : ConnId) (c : Client) :
    Client × List ClientOut :=
  match c.connections.lookup id with
  | none => (c, [])
  | some conn =>
    ({ c with connections := c.connections.insert id (f conn).1 }, (f conn).2.map (.tunnel id))

/-! ## Requests -/

variable (es : List (ClientCall × TunnelEnv)) (env : TunnelEnv)

/-- The destination of a request, a numeric host name being an address. -/
def requestDst : TunnelAddress → TunnelAddress
  | .sock a => .sock a
  | .name n port =>
    match env.numericHost n with
    | some addr => .sock ⟨addr, port.toUInt16⟩
    | none => .name n port

def isLoopbackDst : TunnelAddress → Bool
  | .sock a => env.isLoopback a
  | .name _ _ => false

/-- The action the tunnel gives to a connection without asking the application. -/
def directAction (listener : Listener) (r : ClientConnectRequest) (conn : VpnConnection)
    : Option (Option VpnConnectAction) :=
  match listener with
  | .dnsResolver => some none
  | .dnsProxy => some (some .forceRedirect)
  | .dnsHandler => some (some (if r.dnsHandlerBypass then .forceBypass else .forceRedirect))
  | .client =>
    if !conn.plainDns && isLoopbackDst env r.dst then some (some .forceBypass) else none

/-- `listener_handler` for `CLIENT_EVENT_CONNECT_REQUEST`. -/
def connectRequest (listener : Listener) (r : ClientConnectRequest) (c : Client) : Client × List ClientOut :=
  let conn := VpnConnection.make (requestDst env r.dst) listener r.appName
  let c := { c with connections := c.connections.insert r.id conn }
  match directAction env listener r conn with
  | some action =>
    andDo (c, [.decided r.id action]) (onConnection (completeConnectRequest env action) r.id)
  | none => (c, [.connectRequest r.id])

/-! ## The session -/

/-- The connections after `finalize_connect_action`, if the call runs the task of a request. -/
def finalized (c : Client) (call : Call) : Map ConnId VpnConnection :=
  match c.vpn.taskOf call with
  | some (.completeConnectRequest r) => c.connections.modify r.id (finalizeConnectAction env r)
  | _ => c.connections

def answered (connections : Map ConnId VpnConnection) : Call → Call
  | .runTask e =>
    .runTask { e with
      finalizeConnectAction := fun r => (connections.lookup r.id).bind VpnConnection.action
      shouldCompleteImmediately := fun id =>
        (connections.lookup id).any (shouldCompleteImmediately env) }
  | call => call

/-- What the session tells the tunnel. A request it rejects is rejected by the listener. -/
def handleOut (o : Out) (c : Client) : Client × List ClientOut :=
  andDo (c, [.session o]) fun c =>
    match o with
    | .completed id action => onConnection (completeConnectRequest env action) id c
    | .resetConnection id => onConnection (VpnConnection.close · false) id c
    | _ => (c, [])

def sessionCall (call : Call) (c : Client) : Client × List ClientOut :=
  let connections := finalized env c call
  let call := answered env connections call
  andDo ({ vpn := (c.vpn.step call).1, connections := connections },
      (c.vpn.decisions call).map fun d => .decided d.1 d.2)
    (forEach (handleOut env) (c.vpn.step call).2)

/-! ## The system -/

def clientStep (c : Client) : ClientCall × TunnelEnv → Client × List ClientOut
  | (.session call, env) => sessionCall env call c
  | (.connectRequest listener r, env) => connectRequest env listener r c
  | (.resolved id result, env) => onConnection (onDestinationResolveResult env result) id c
  | (.completeConnectRequestTask id, _) =>
    onConnection (fun conn => (conn.completeConnectRequestTask, [])) id c
  | (.connectionClosed id, _) => ({ c with connections := c.connections.erase id }, [])

def client (killswitchEnabled : Bool) : System Client (ClientCall × TunnelEnv) ClientOut :=
  ⟨⟨.opened killswitchEnabled 0, ∅⟩, clientStep⟩

/-! ## With the kill switch on -/

def Decided (h : List ClientOut) (id : ConnId) (a : Option VpnConnectAction) : Prop :=
  .decided id a ∈ h

open Vpn

structure Guarded (h : List ClientOut) (c : Client) : Prop where
  killSwitchOn : c.vpn.killSwitchOn = true
  ordered : c.vpn.Ordered
  postponed : ∀ d ∈ decisionsOf c.vpn.postponedRequests, Decided h d.1 d.2
  justified : ∀ id conn, c.connections.lookup id = some conn → Justified (Decided h id) conn

/-- The outputs of a call are allowed by the decisions up to and in the call. -/
structure Harmless (env : TunnelEnv) (h outs : List ClientOut) : Prop where
  completed : ∀ id a, .session (.completed id a) ∈ outs → Decided h id a
  opened : ∀ id u dst, .tunnel id (.openConnection u dst) ∈ outs → Allowed (Decided h id) env u dst

variable {h : List ClientOut} {env : TunnelEnv} {c : Client}

theorem Decided.append {id : ConnId} {a : Option VpnConnectAction} (hd : Decided h id a) (l : List ClientOut) :
    Decided (h ++ l) id a :=
  mem_append.mpr (.inl hd)

theorem Allowed.mono {D D' : Option VpnConnectAction → Prop} {u : Upstream} {dst : TunnelAddress}
    (h : Allowed D env u dst) (hD : ∀ a, D a → D' a) : Allowed D' env u dst := by
  rcases h with hu | hb | ⟨a, ha, hdefault, hroute⟩
  · exact .inl hu
  · exact .inr (.inl (hD _ hb))
  · exact .inr (.inr ⟨a, hD a ha, hdefault, hroute⟩)

theorem Guarded.append (hg : Guarded h c) (l : List ClientOut) : Guarded (h ++ l) c where
  killSwitchOn := hg.killSwitchOn
  ordered := hg.ordered
  postponed d hd := (hg.postponed d hd).append l
  justified id conn hconn := (hg.justified id conn hconn).mono fun _ ha => ha.append l

/-- `l` was raised by a part of a call that was started with the outputs `h`. -/
def Part (env : TunnelEnv) (h : List ClientOut) (r : Client × List ClientOut) : Prop :=
  Guarded h r.1 ∧ Harmless env h r.2

theorem onConnection_part (hg : Guarded h c) {id : ConnId} {f : VpnConnection → VpnConnection × List Effect}
    (hf : ∀ conn, Justified (Decided h id) conn → Follows (Decided h id) env (f conn)) :
    Part env h (onConnection f id c) := by
  unfold onConnection
  split
  · exact ⟨hg, ⟨by simp, by simp⟩⟩
  next conn hconn =>
  obtain ⟨hjust, hopen⟩ := hf conn (hg.justified id conn hconn)
  refine ⟨⟨hg.killSwitchOn, hg.ordered, hg.postponed, fun j w hw => ?_⟩, ⟨by simp, ?_⟩⟩
  · rw [Map.lookup_insert_eq] at hw
    split at hw
    · next hj =>
      cases hw
      rw [hj]
      exact hjust
    · exact hg.justified j w hw
  · intro j u dst hmem
    obtain ⟨e, he, heq⟩ := mem_map.mp hmem
    cases heq
    exact hopen u dst he

theorem handleOut_part (hg : Guarded h c) {o : Out} (ho : ∀ id a, o = .completed id a → Decided h id a) :
    Part env h (handleOut env o c) := by
  have hpart : ∀ r : Client × List ClientOut, Part env h r → Part env h (r.1, .session o :: r.2) := by
    rintro r ⟨hguard, hharm⟩
    refine ⟨hguard, ⟨fun id a hmem => ?_, fun id u dst hmem => ?_⟩⟩
    · rcases mem_cons.mp hmem with heq | hmem
      · cases heq
        exact ho id a rfl
      · exact hharm.completed id a hmem
    · exact hharm.opened id u dst (by simpa using hmem)
  cases o with
  | completed id a =>
    exact hpart _ (onConnection_part hg fun conn hconn => hconn.complete (ho id a rfl) env)
  | resetConnection id =>
    exact hpart _ (onConnection_part hg fun conn hconn => hconn.close env false)
  | _ => exact hpart (c, []) ⟨hg, ⟨by simp, by simp⟩⟩

theorem Harmless.append {outs : List ClientOut} (hh : Harmless env h outs) (l : List ClientOut) :
    Harmless env (h ++ l) outs where
  completed id a hmem := (hh.completed id a hmem).append l
  opened id u dst hmem := (hh.opened id u dst hmem).mono fun _ ha => ha.append l

theorem Part.after {l : List ClientOut} (hl : ∀ o ∈ l, ∃ id a, o = .decided id a)
    {r : Client × List ClientOut} (hr : Part env (h ++ l) r) : Part env (h ++ (l ++ r.2)) (r.1, l ++ r.2) := by
  rw [← append_assoc]
  have hharm := hr.2.append r.2
  refine ⟨hr.1.append r.2, ⟨fun id a hmem => ?_, fun id u dst hmem => ?_⟩⟩
  · rcases mem_append.mp hmem with hmem | hmem
    · obtain ⟨_, _, heq⟩ := hl _ hmem
      cases heq
    · exact hharm.completed id a hmem
  · rcases mem_append.mp hmem with hmem | hmem
    · obtain ⟨_, _, heq⟩ := hl _ hmem
      cases heq
    · exact hharm.opened id u dst hmem

theorem Part.nothing {r : Client × List ClientOut} (hr : Part env h r) : Part env (h ++ r.2) r :=
  ⟨hr.1.append r.2, hr.2.append r.2⟩

theorem connectRequest_part (hg : Guarded h c) (listener : Listener) (r : ClientConnectRequest) :
    Part env (h ++ (connectRequest env listener r c).2) (connectRequest env listener r c) := by
  -- the new connection
  have hadded : Guarded h ⟨c.vpn, c.connections.insert r.id (.make (requestDst env r.dst) listener r.appName)⟩ := by
    refine ⟨hg.killSwitchOn, hg.ordered, hg.postponed, fun id conn hconn => ?_⟩
    rw [Map.lookup_insert_eq] at hconn
    split at hconn
    · cases hconn
      exact .make _ _ _ _
    · exact hg.justified id conn hconn
  unfold connectRequest
  dsimp only
  split
  · next action _ =>
    refine Part.after (by simp) (onConnection_part (hadded.append _) ?_)
    exact fun conn hconn => hconn.complete (by simp [Decided]) env
  · exact Part.nothing ⟨hadded, ⟨by simp, by simp⟩⟩

theorem finalized_justified (hg : Guarded h c) (call : Call) (id : ConnId) (conn : VpnConnection)
    (hconn : (finalized env c call).lookup id = some conn) : Justified (Decided h id) conn := by
  unfold finalized at hconn
  split at hconn
  · next r _ =>
    obtain ⟨w, hw, rfl⟩ := Map.of_lookup_modify hconn
    split
    · exact (hg.justified id w hw).finalize env r
    · exact hg.justified id w hw
  · exact hg.justified id conn hconn

open ClientOut

theorem sessionCall_part (hg : Guarded h c) (call : Call) :
    Part env (h ++ (sessionCall env call c).2) (sessionCall env call c) := by
  unfold sessionCall
  dsimp only
  generalize hcall : answered env (finalized env c call) call = call'
  have hsteps := completions_step hg.killSwitchOn call'
  generalize hl : ((c.vpn.decisions call').map fun d => decided d.1 d.2) = l
  -- what the step completes or puts off was decided before or is decided now
  have hdecided : ∀ d ∈ completions (c.vpn.step call').2 ++
      decisionsOf (c.vpn.step call').1.postponedRequests, Decided (h ++ l) d.1 d.2 := by
    intro d hd
    rcases mem_append.mp (hsteps hd) with hd | hd
    · refine mem_append.mpr (.inr ?_)
      rw [← hl]
      exact mem_map.mpr ⟨d, hd, rfl⟩
    · exact (hg.postponed d hd).append l
  have hguard : Guarded (h ++ l) ⟨(c.vpn.step call').1, finalized env c call⟩ :=
    ⟨(step_killSwitchOn _ _).trans hg.killSwitchOn, ordered_step hg.ordered call',
      fun d hd => hdecided d (mem_append.mpr (.inr hd)),
      fun id conn hconn => finalized_justified (hg.append l) call id conn hconn⟩
  refine Part.after (fun o ho => ?_) ?_
  · rw [← hl] at ho
    obtain ⟨d, -, rfl⟩ := mem_map.mp ho
    exact ⟨d.1, d.2, rfl⟩
  have hloop := forEach_inv (f := handleOut env) (o := []) (l := (c.vpn.step call').2)
    (J := fun outs w => Part env (h ++ l) (w, outs)) ⟨hguard, ⟨by simp, by simp⟩⟩ ?_
  · simpa using hloop
  rintro o ho outs w ⟨hw, houts⟩
  have hpart : Part env (h ++ l) (handleOut env o w) := by
    refine handleOut_part hw fun id a heq => hdecided (id, a) (mem_append.mpr (.inl ?_))
    exact mem_filterMap.mpr ⟨o, ho, by rw [heq]; rfl⟩
  refine ⟨hpart.1, ⟨fun id a hmem => ?_, fun id u dst hmem => ?_⟩⟩
  · rcases mem_append.mp hmem with hmem | hmem
    · exact houts.completed id a hmem
    · exact hpart.2.completed id a hmem
  · rcases mem_append.mp hmem with hmem | hmem
    · exact houts.opened id u dst hmem
    · exact hpart.2.opened id u dst hmem

theorem guarded_step (hg : Guarded h c) (e : ClientCall × TunnelEnv) :
    Part e.2 (h ++ (clientStep c e).2) (clientStep c e) := by
  obtain ⟨call, env⟩ := e
  cases call with
  | session call => exact sessionCall_part hg call
  | connectRequest listener r => exact connectRequest_part hg listener r
  | resolved id result =>
    exact Part.nothing (onConnection_part hg fun conn hconn => hconn.resolved env result)
  | completeConnectRequestTask id =>
    exact Part.nothing (onConnection_part hg fun conn hconn => ⟨hconn.completeTask, by simp⟩)
  | connectionClosed id =>
    refine Part.nothing ⟨⟨hg.killSwitchOn, hg.ordered, hg.postponed, fun j conn hconn => ?_⟩,
      ⟨by simp [clientStep], by simp [clientStep]⟩⟩
    refine hg.justified j conn ?_
    rw [clientStep, Map.lookup_erase_eq] at hconn
    split at hconn
    · cases hconn
    · exact hconn

open System

theorem guarded_exec : Guarded (outputs ((client true).trace (client true).init es))
      ((client true).exec (client true).init es) := by
  refine (client true).inv_run (J := fun h c => Guarded (outputs h) c) ?_ ?_ es ((client true).meets_true _ _)
  · refine ⟨rfl, ordered_opened true 0, nofun, fun id conn hconn => ?_⟩
    simp [client] at hconn
  · intro h c e hg _
    rw [outputs_append, outputs_record]
    exact (guarded_step hg e).1

/-! ## What becomes of the requests of the application -/

def ClientOut.sessionOut : ClientOut → Option Out
  | .session o => some o
  | _ => none

def ClientOut.decidedId : ClientOut → Option ConnId
  | .decided id _ => some id
  | _ => none

theorem onConnection_outs (f : VpnConnection → VpnConnection × List Effect) (id : ConnId) (c : Client) :
    (onConnection f id c).1.vpn = c.vpn ∧ (onConnection f id c).2.filterMap sessionOut = [] ∧
      (onConnection f id c).2.filterMap decidedId = [] := by
  unfold onConnection
  split
  · simp
  · refine ⟨rfl, ?_, ?_⟩ <;> simp [sessionOut, decidedId]

theorem handleOut_outs (env : TunnelEnv) (o : Out) (c : Client) : (handleOut env o c).1.vpn = c.vpn ∧
      (handleOut env o c).2.filterMap sessionOut = [o] ∧ (handleOut env o c).2.filterMap decidedId = [] := by
  cases o with
  | completed id a =>
    obtain ⟨hvpn, hout, hid⟩ := onConnection_outs (completeConnectRequest env a) id c
    exact ⟨hvpn, congrArg (Out.completed id a :: ·) hout, hid⟩
  | resetConnection id =>
    obtain ⟨hvpn, hout, hid⟩ := onConnection_outs (VpnConnection.close · false) id c
    exact ⟨hvpn, congrArg (Out.resetConnection id :: ·) hout, hid⟩
  | _ => exact ⟨rfl, rfl, rfl⟩

theorem forEach_handleOut (env : TunnelEnv) (l : List Out) (c : Client) :
    (forEach (handleOut env) l c).1.vpn = c.vpn ∧ (forEach (handleOut env) l c).2.filterMap sessionOut = l ∧
      (forEach (handleOut env) l c).2.filterMap decidedId = [] := by
  induction l generalizing c with
  | nil => simp [forEach]
  | cons o l ih =>
    obtain ⟨hvpn, hout, hid⟩ := handleOut_outs env o c
    obtain ⟨hvpn', hout', hid'⟩ := ih (handleOut env o c).1
    simp [forEach, hvpn, hout, hid, hvpn', hout', hid']

def resolvedRequests (outs : List ClientOut) : List ConnId :=
  resolvedIds (outs.filterMap sessionOut)

theorem sessionCall_conserves (hord : c.vpn.Ordered) (env : TunnelEnv) {call : Call} (hcall : call ≠ .stopped)
    (id : ConnId) : (resolvedRequests (sessionCall env call c).2).count id +
        (sessionCall env call c).1.vpn.postponedIds.count id =
      ((sessionCall env call c).2.filterMap decidedId).count id + c.vpn.postponedIds.count id := by
  have hanswered : answered env (finalized env c call) call ≠ .stopped := by
    cases call <;> simp_all [answered]
  have hstep := requests_step hord _ hanswered id
  unfold sessionCall resolvedRequests
  dsimp only
  generalize answered env (finalized env c call) call = call' at hstep ⊢
  obtain ⟨hvpn, hout, hid⟩ := forEach_handleOut env (c.vpn.step call').2 ⟨(c.vpn.step call').1,
    finalized env c call⟩
  have hdecided : ((c.vpn.decisions call').map fun d => decided d.1 d.2).filterMap sessionOut = [] := by
    simp [sessionOut]
  have hraised : ((c.vpn.decisions call').map fun d => decided d.1 d.2).filterMap
      decidedId = c.vpn.raisedIds call' := by
    rw [filterMap_map, ← decisions_fst, ← filterMap_eq_map]
    rfl
  simp only [andDo, filterMap_append, hdecided, hraised, hvpn, hout, hid, append_nil]
  exact hstep

/-! ## Every run -/

def reached (es : List (ClientCall × TunnelEnv)) : Client := (client true).exec (client true).init es

def raisedBy (es : List (ClientCall × TunnelEnv)) : List ClientOut :=
  outputs ((client true).trace (client true).init es)

theorem raisedBy_snoc (e : ClientCall × TunnelEnv) :
    raisedBy (es ++ [e]) = raisedBy es ++ (clientStep (reached es) e).2 := by
  rw [raisedBy, trace_append, outputs_append]
  exact congrArg (raisedBy es ++ ·) (outputs_record (client true) (reached es) e)

/-- With the kill switch on, after any calls: a request is completed only with an action that was decided
for it; a connection for which only `FORCE_REDIRECT` or `REJECT` was decided is opened on the endpoint or
not at all; one that goes past it was decided to be bypassed, or to be routed by default in selective mode
or to an excluded address; and a request that is raised is completed, rejected or put off. -/
theorem killSwitch_guards (es : List (ClientCall × TunnelEnv)) (e : ClientCall × TunnelEnv) (id : ConnId) :
    (∀ a, .session (.completed id a) ∈ (clientStep (reached es) e).2 → .decided id a ∈ raisedBy (es ++ [e])) ∧
    (∀ u dst, .tunnel id (.openConnection u dst) ∈ (clientStep (reached es) e).2 →
      (∀ a, .decided id a ∈ raisedBy (es ++ [e]) → a = some .forceRedirect ∨ a = some .reject) →
      u = .endpoint) ∧ (∀ dst, .tunnel id (.openConnection .bypass dst) ∈ (clientStep (reached es) e).2 →
      .decided id (some .forceBypass) ∈ raisedBy (es ++ [e]) ∨ ((.decided id none ∈ raisedBy (es ++ [e]) ∨
            .decided id (some .default) ∈ raisedBy (es ++ [e])) ∧
          (e.2.filter.mode = .selective ∨ ∃ a, dst = .sock a ∧
            (e.2.filter.matchTag e.2.net ⟨a, []⟩).status = .exclusion))) ∧
    ∀ call, e.1 = .session call → call ≠ .stopped → (resolvedRequests (clientStep (reached es) e).2).count id +
          (clientStep (reached es) e).1.vpn.postponedIds.count id =
        ((clientStep (reached es) e).2.filterMap decidedId).count id + (reached es).vpn.postponedIds.count id := by
  have hg : Guarded (raisedBy es) (reached es) := guarded_exec es
  have hharm := (guarded_step hg e).2
  rw [← raisedBy_snoc] at hharm
  refine ⟨fun a hmem => hharm.completed id a hmem, fun u dst hmem honly => ?_, fun dst hmem => ?_,
    fun call hcall hstop => ?_⟩
  · rcases hharm.opened id u dst hmem with hu | hb | ⟨a, ha, hdefault, -⟩
    · exact hu
    · exact absurd (honly _ hb) (by decide)
    · rcases honly a ha with rfl | rfl <;> cases hdefault
  · rcases hharm.opened id .bypass dst hmem with hu | hb | ⟨a, ha, hdefault, hroute⟩
    · cases hu
    · exact .inl hb
    refine .inr ⟨?_, hroute rfl⟩
    cases a with
    | none => exact .inl ha
    | some a =>
      cases hdefault
      exact .inr ha
  · obtain ⟨_, env⟩ := e
    cases hcall
    exact sessionCall_conserves hg.ordered env hstop id

def openTunnel (mode : VpnMode) : TunnelEnv where
  net := Filter.Ipv4.ops
  filter := { Filter.DomainFilter.init with mode := mode }
  exclusionsMode := mode
  isDomainScannablePort := fun port => port == 443
  tcpEarlyAckEnabled := false
  dnsProxyListener := false
  present := fun _ => true
  ipVersionAvailability := fun _ _ => true
  endpointUpstreamConnected := true
  openConnection := fun _ _ => some 1
  resolve := fun _ => true
  isLoopback := fun _ => false
  numericHost := fun _ => none

def defaultInSelective : List (ClientCall × TunnelEnv) :=
  ([.session (.connect ⟨someConfig, .severalAttempts 1⟩), .session (.runTask (goodEnv 1)),
    .session (.pingerResult pinged (goodEnv 2)), .session (.clientConnected (goodEnv 3)),
    .connectRequest .client ⟨7, .sock ⟨[198, 51, 100, 7], 443⟩, [], false⟩,
    .session (.completeConnectRequest ⟨7, some .default, [], 0⟩)] : List ClientCall).map (·, openTunnel .selective)

/-- With the kill switch on and the session connected, the request goes past the endpoint. -/
theorem selective_default_bypassed : (reached defaultInSelective).vpn.state = .connected ∧
    .decided 7 (some .forceBypass) ∉ raisedBy
      (defaultInSelective ++ [(.session (.runTask (goodEnv 4)), openTunnel .selective)]) ∧
    .session (.completed 7 (some .default)) ∈ (clientStep (reached defaultInSelective)
      (.session (.runTask (goodEnv 4)), openTunnel .selective)).2 ∧
    .tunnel 7 (.openConnection .bypass (.sock ⟨[198, 51, 100, 7], 443⟩)) ∈
      (clientStep (reached defaultInSelective) (.session (.runTask (goodEnv 4)), openTunnel .selective)).2 := by
  decide +kernel

end TrustTunnel.Tunnel
