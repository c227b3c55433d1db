import TrustTunnel.Filter.Filter
import TrustTunnel.Vpn.Manager

/-!
# Tunnel.Route

How the tunnel (`tunnel.cpp`) routes a connection of the client: from its request over the final
action and the name resolution to the upstream on which it is opened.

A connection is followed until an upstream is asked to open it. What the tunnel reads meanwhile is
free to change between any two steps (`TunnelEnv`): the filter and the mode, which upstreams there
are and what they answer, whether the endpoint is connected.
-/

namespace TrustTunnel.Tunnel

open Filter

/-! ## Data -/

inductive Upstream where
  | endpoint
  | bypass
  | fake
  | dnsHandler
  deriving DecidableEq

inductive Listener where
  | client
  | dnsResolver
  | dnsProxy
  | dnsHandler
  deriving DecidableEq

inductive IpVersion where
  | ipv4
  | ipv6

def getIpVersion (a : SocketAddress) : Option IpVersion :=
  match a.family with
  | .inet => some .ipv4
  | .inet6 => some .ipv6
  | .unspec | .unknown => none

inductive ConnectionState where
  | waitingAction
  | waitingResolve
  | waitingResponse
  | rejected
  deriving DecidableEq

structure VpnConnection where
  dst : TunnelAddress
  listener : Listener
  appName : Bytes
  uid : Int
  serverId : Option ConnId
  upstream : Option Upstream
  state : ConnectionState
  action : Option VpnConnectAction
  forciblyBypassed : Bool
  forciblyRedirected : Bool
  lookingUpDomain : Bool
  suspectExclusion : Bool
  fakeConnection : Bool
  plainDns : Bool
  /-- `complete_connect_request_task` is submitted -/
  closing : Bool

/-- What the tunnel reads and what it is answered during one step. -/
structure TunnelEnv where
  net : NetOps
  filter : DomainFilter
  exclusionsMode : VpnMode
  isDomainScannablePort : UInt16 → Bool
  tcpEarlyAckEnabled : Bool
  dnsProxyListener : Bool
  present : Upstream → Bool
  ipVersionAvailability : Upstream → IpVersion → Bool
  endpointUpstreamConnected : Bool
  openConnection : Upstream → VpnConnection → Option ConnId
  /-- `dns_resolver->resolve` gives an id -/
  resolve : Bytes → Bool
  isLoopback : SocketAddress → Bool
  /-- the address bytes of a numeric host name -/
  numericHost : Bytes → Option Bytes

variable (env : TunnelEnv) (conn : VpnConnection)

def TunnelEnv.pointer (u : Upstream) : Option Upstream :=
  if env.present u then some u else none

inductive Effect where
  | openConnection (u : Upstream) (dst : TunnelAddress)
  | resolving (name : Bytes)
  | closed
  deriving DecidableEq

def plainDnsPort : UInt16 := 53

def isSocketAddress : TunnelAddress → Bool
  | .sock _ => true
  | .name _ _ => false

def dstport : TunnelAddress → UInt16
  | .sock a => a.port
  | .name _ p => p.toUInt16

namespace VpnConnection

def make (dst : TunnelAddress) (listener : Listener) (appName : Bytes) : VpnConnection where
  dst := dst
  listener := listener
  appName := appName
  uid := 0
  serverId := none
  upstream := none
  state := .waitingAction
  action := none
  forciblyBypassed := false
  forciblyRedirected := false
  lookingUpDomain := false
  suspectExclusion := false
  fakeConnection := false
  plainDns := isSocketAddress dst && dstport dst == plainDnsPort
  closing := false

def makeTag : SockAddrTag :=
  match conn.dst with
  | .sock a => ⟨a, conn.appName⟩
  | .name _ _ => ⟨.empty, conn.appName⟩

/-- `close_client_side_connection`: with `async` a connection that waits is rejected by a task. -/
def close (async : Bool) : VpnConnection × List Effect :=
  match conn.state with
  | .rejected => (conn, [.closed])
  | .waitingAction | .waitingResolve | .waitingResponse =>
    if async then
      if conn.closing then (conn, []) else ({ conn with closing := true }, [.closed])
    else ({ conn with state := .rejected }, [.closed])

def completeConnectRequestTask : VpnConnection :=
  if conn.closing then { conn with closing := false, state := .rejected } else conn

end VpnConnection

/-! ## Selecting an upstream -/

def vpnModeToAction : VpnMode → VpnConnectAction
  | .general => .forceRedirect
  | .selective => .forceBypass

def invertAction : VpnConnectAction → VpnConnectAction
  | .default => .default
  | .reject => .reject
  | .forceBypass => .forceRedirect
  | .forceRedirect => .forceBypass

/-- `select_upstream` for an action other than `VPN_CA_DEFAULT`, which does not look at the
connection. -/
def selectForced : VpnConnectAction → Option Upstream
  | .forceBypass => env.pointer .bypass
  | .forceRedirect => env.pointer .endpoint
  | .default | .reject => none

def scannable : TunnelAddress → Bool
  | .sock a => env.isDomainScannablePort a.port
  | .name _ _ => false

/-- The domain of the connection is looked up on the fake upstream first. -/
def looksUpFirst : Bool :=
  conn.lookingUpDomain && (conn.suspectExclusion || env.tcpEarlyAckEnabled) && scannable env conn.dst

def selectUpstream (action : VpnConnectAction) (conn : Option VpnConnection) : Option Upstream :=
  match action, conn with
  | .default, none => selectForced env (vpnModeToAction env.filter.mode)
  | .default, some c =>
    if c.listener = .dnsHandler then selectForced env .forceRedirect
    else if c.plainDns then env.pointer .dnsHandler
    else if looksUpFirst env c then env.pointer .fake
    else selectForced env (vpnModeToAction env.filter.mode)
  | action, _ => selectForced env action

/-! ## The final action -/

/-- The last component of a path of the operating system this client is for. -/
def processName (appName : Bytes) : Bytes :=
  (appName.reverse.takeWhile (· ≠ chr '\\')).reverse

def finalizeConnectAction (r : ConnectRequestResult) (conn : VpnConnection) : VpnConnection :=
  let appName := processName (if r.appname = [] then conn.appName else r.appname)
  let conn := { conn with appName := appName, uid := r.uid }
  if (r.action.isSome && r.action ≠ some .default) || conn.plainDns then
    { conn with action := r.action }
  else
    match conn.dst with
    | .sock dst =>
      match (env.filter.matchTag env.net conn.makeTag).status with
      | .default => { conn with action := r.action }
      | .defaultOverride => { conn with action := some (vpnModeToAction env.filter.mode) }
      | .exclusion => { conn with action := some (invertAction (vpnModeToAction env.filter.mode)) }
      | .suspectExclusion =>
        if env.isDomainScannablePort dst.port then { conn with suspectExclusion := true }
        else { conn with action := some .forceRedirect }
    | .name name _ =>
      match env.filter.matchDomain name with
      | .suspectExclusion | .default => { conn with action := r.action }
      | .defaultOverride => { conn with action := some (vpnModeToAction env.filter.mode) }
      | .exclusion => { conn with action := some (invertAction (vpnModeToAction env.filter.mode)) }

def shouldCompleteImmediately : Bool :=
  conn.suspectExclusion == (env.exclusionsMode == .general) || dstport conn.dst == plainDnsPort

/-! ## Completing a request -/

def isDestinationReachable (upstream : Option Upstream) : Bool :=
  match conn.dst with
  | .name _ _ => true
  | .sock dst =>
    match getIpVersion dst with
    | none => false
    | some ipv =>
      let lacks u := env.present u && !env.ipVersionAvailability u ipv
      if conn.suspectExclusion && (lacks .endpoint || lacks .bypass) then false
      else upstream.all fun u => env.ipVersionAvailability u ipv

/-- `need_resolve_hostname`, for an action other than `VPN_CA_REJECT`. -/
def needResolveHostname (action : VpnConnectAction) (conn : VpnConnection) : Bool :=
  match conn.dst with
  | .sock _ => false
  | .name name _ =>
    if conn.listener = .dnsProxy then false
    else
      let effective :=
        if action = .default then
          match env.filter.matchDomain name with
          | .default | .defaultOverride => vpnModeToAction env.filter.mode
          | .exclusion | .suspectExclusion => invertAction (vpnModeToAction env.filter.mode)
        else action
      match effective with
      | .forceBypass => true
      | .forceRedirect => env.dnsProxyListener
      | .default | .reject => false

def openOn (upstream : Option Upstream) (conn : VpnConnection) (async : Bool) : VpnConnection × List Effect :=
  let serverId := upstream.elim conn.serverId fun u => env.openConnection u conn
  let asked := upstream.toList.map fun u => Effect.openConnection u conn.dst
  let conn := { conn with serverId := serverId }
  if serverId.isSome then ({ conn with state := .waitingResponse }, asked)
  else ((conn.close async).1, asked ++ (conn.close async).2)

/-- `complete_connect_request` once the flags for the action are set. -/
def routeConnection (action : VpnConnectAction) (conn : VpnConnection) : VpnConnection × List Effect :=
  let upstream := selectUpstream env action (some conn)
  if !isDestinationReachable env conn upstream then conn.close true
  else if needResolveHostname env action conn then
    match conn.dst with
    | .name name _ =>
      if env.resolve name then ({ conn with state := .waitingResolve }, [.resolving name])
      else conn.close true
    | .sock _ => conn.close true
  else if !env.endpointUpstreamConnected && upstream == env.pointer .endpoint then
    { conn with upstream := none }.close true
  else
    openOn env upstream
      { conn with
        upstream := upstream
        fakeConnection := if upstream.isSome then upstream == some .fake else conn.fakeConnection }
      true

def completeConnectRequest (action : Option VpnConnectAction) (conn : VpnConnection) : VpnConnection × List Effect :=
  match action.getD .default with
  | .forceBypass => routeConnection env .forceBypass { conn with forciblyBypassed := true }
  | .forceRedirect => routeConnection env .forceRedirect { conn with forciblyRedirected := true }
  | .default =>
    routeConnection env .default { conn with lookingUpDomain := isSocketAddress conn.dst && !conn.plainDns }
  | .reject => conn.close true

/-! ## Resolved names -/

/-- The action for a resolved address, when none was forced. -/
def resolvedAction (a : SocketAddress) : VpnConnectAction :=
  match (env.filter.matchTag env.net ⟨a, []⟩).status with
  | .default | .suspectExclusion => .default
  | .exclusion => invertAction (vpnModeToAction env.filter.mode)
  | .defaultOverride => vpnModeToAction env.filter.mode

def selectResolvedDestinationAddress (env : TunnelEnv) (conn : VpnConnection) (port : UInt16) :
    List SocketAddress → Option SocketAddress
  | [] => none
  | a :: rest =>
    let address := a.setPort port
    let action :=
      if !conn.forciblyBypassed && !conn.forciblyRedirected then resolvedAction env address
      else .default
    let usable := (selectUpstream env action none).any fun u =>
      (getIpVersion address).any (env.ipVersionAvailability u)
    if usable then some address else selectResolvedDestinationAddress env conn port rest

/-- `on_destination_resolve_result` for the connection of the waiter; no result is a failure. -/
def onDestinationResolveResult (result : Option (List SocketAddress)) (conn : VpnConnection)
    : VpnConnection × List Effect :=
  if conn.state ≠ .waitingResolve then conn.close false
  else
    match result with
    | none => conn.close false
    | some addresses =>
      match selectResolvedDestinationAddress env conn (dstport conn.dst) addresses with
      | none => conn.close false
      | some address =>
        let action :=
          if conn.forciblyBypassed then .forceBypass
          else if conn.forciblyRedirected then .forceRedirect
          else resolvedAction env address
        let upstream := selectUpstream env action none
        openOn env upstream { conn with action := some action, upstream := upstream, dst := .sock address } false

/-! ## The selected upstream -/

variable {env : TunnelEnv}

theorem pointer_eq {u w : Upstream} (h : w ∈ env.pointer u) : w = u := by
  unfold TunnelEnv.pointer at h
  split at h
  · simpa using h.symm
  · simp at h

theorem selectUpstream_forceRedirect {conn : Option VpnConnection} {u : Upstream}
    (h : u ∈ selectUpstream env .forceRedirect conn) : u = .endpoint :=
  pointer_eq h

theorem selectForced_mode (h : .bypass ∈ selectForced env (vpnModeToAction env.filter.mode)) :
    env.filter.mode = .selective := by
  cases hm : env.filter.mode with
  | selective => rfl
  | general =>
    rw [hm] at h
    exact absurd (pointer_eq h) (by decide)

theorem selectUpstream_default {conn : Option VpnConnection} (h : .bypass ∈ selectUpstream env .default conn) :
    env.filter.mode = .selective := by
  cases conn with
  | none => exact selectForced_mode h
  | some c =>
    simp only [selectUpstream] at h
    split at h
    · exact absurd (pointer_eq h) (by decide)
    split at h
    · exact absurd (pointer_eq h) (by decide)
    · split at h
      · exact absurd (pointer_eq h) (by decide)
      · exact selectForced_mode h

theorem selectUpstream_resolved {a : SocketAddress} (h : .bypass ∈ selectUpstream env (resolvedAction env a) none) :
    env.filter.mode = .selective ∨ (env.filter.matchTag env.net ⟨a, []⟩).status = .exclusion := by
  unfold resolvedAction at h
  cases hs : (env.filter.matchTag env.net ⟨a, []⟩).status with
  | exclusion => exact .inr rfl
  | default | suspectExclusion =>
    rw [hs] at h
    exact .inl (selectUpstream_default h)
  | defaultOverride =>
    rw [hs] at h
    cases hm : env.filter.mode with
    | selective => exact .inl rfl
    | general =>
      rw [hm] at h
      exact absurd (selectUpstream_forceRedirect h) (by decide)

/-! ## What was decided about a connection

`D` are the actions that were decided for the requests of a connection, up to now. -/

/-- The default action may take a connection to `u`: past the endpoint only in selective mode, or to
an address that is an exclusion. -/
def DefaultRoute (env : TunnelEnv) (u : Upstream) (dst : TunnelAddress) : Prop :=
  u = .bypass → env.filter.mode = .selective ∨
    ∃ a, dst = .sock a ∧ (env.filter.matchTag env.net ⟨a, []⟩).status = .exclusion

/-- Opening the connection on `u` follows from a decision. -/
def Allowed (D : Option VpnConnectAction → Prop) (env : TunnelEnv) (u : Upstream) (dst : TunnelAddress) : Prop :=
  u = .endpoint ∨ D (some .forceBypass) ∨ ∃ a, D a ∧ a.getD .default = .default ∧ DefaultRoute env u dst

/-- The flags of a connection, and that its name is being resolved, follow from decisions. -/
structure Justified (D : Option VpnConnectAction → Prop) (conn : VpnConnection) : Prop where
  bypassed : conn.forciblyBypassed = true → D (some .forceBypass)
  resolving : conn.state = .waitingResolve → conn.forciblyBypassed = true ∨
    conn.forciblyRedirected = true ∨ ∃ a, D a ∧ a.getD .default = .default

/-- A step has left the connection justified, and has opened it only where that is allowed. -/
def Follows (D : Option VpnConnectAction → Prop) (env : TunnelEnv) (r : VpnConnection × List Effect) : Prop :=
  Justified D r.1 ∧ ∀ u dst, .openConnection u dst ∈ r.2 → Allowed D env u dst

section

variable {D : Option VpnConnectAction → Prop} {conn : VpnConnection}

theorem Justified.mono {D' : Option VpnConnectAction → Prop} (h : Justified D conn)
    (hD : ∀ a, D a → D' a) : Justified D' conn := by
  refine ⟨fun hb => hD _ (h.bypassed hb), fun hs => ?_⟩
  rcases h.resolving hs with hb | hr | ⟨a, ha, hdefault⟩
  · exact .inl hb
  · exact .inr (.inl hr)
  · exact .inr (.inr ⟨a, hD a ha, hdefault⟩)

theorem Justified.congr (h : Justified D conn) {w : VpnConnection}
    (hb : w.forciblyBypassed = conn.forciblyBypassed) (hr : w.forciblyRedirected = conn.forciblyRedirected)
    (hs : w.state = .waitingResolve → conn.state = .waitingResolve) : Justified D w := by
  refine ⟨fun hw => h.bypassed (hb ▸ hw), fun hw => ?_⟩
  rw [hb, hr]
  exact h.resolving (hs hw)

theorem Justified.make (D : Option VpnConnectAction → Prop) (dst : TunnelAddress)
    (listener : Listener) (appName : Bytes) : Justified D (.make dst listener appName) :=
  ⟨nofun, nofun⟩

section

variable (h : Justified D conn)
include h

theorem Justified.finalize (env : TunnelEnv) (r : ConnectRequestResult) :
    Justified D (finalizeConnectAction env r conn) := by
  refine h.congr ?_ ?_ ?_
  all_goals
    unfold finalizeConnectAction
    dsimp only
    split
    · simp
    split
    · split
      · simp
      · simp
      · simp
      · split <;> simp
    · split <;> simp

theorem Justified.close (env : TunnelEnv) (async : Bool) : Follows D env (conn.close async) := by
  unfold VpnConnection.close
  split
  · exact ⟨h, by simp⟩
  all_goals
    split
    · split
      · exact ⟨h, by simp⟩
      · exact ⟨h.congr rfl rfl id, by simp⟩
    · exact ⟨h.congr rfl rfl nofun, by simp⟩

theorem Justified.completeTask : Justified D conn.completeConnectRequestTask := by
  unfold VpnConnection.completeConnectRequestTask
  split
  · exact h.congr rfl rfl nofun
  · exact h

theorem Justified.openOn {env : TunnelEnv} {upstream : Option Upstream}
    (hu : ∀ u ∈ upstream, Allowed D env u conn.dst) (async : Bool) :
    Follows D env (openOn env upstream conn async) := by
  have hasked : ∀ u dst, Effect.openConnection u dst ∈
      (upstream.toList.map fun u => Effect.openConnection u conn.dst) → Allowed D env u dst := by
    intro u dst hmem
    obtain ⟨w, hw, he⟩ := List.mem_map.mp hmem
    cases he
    exact hu u (by simpa using hw)
  unfold Tunnel.openOn
  dsimp only
  split
  · exact ⟨h.congr rfl rfl nofun, hasked⟩
  refine ⟨(Justified.close ?_ env async).1, fun u dst hmem => ?_⟩
  · exact h.congr rfl rfl id
  rcases List.mem_append.mp hmem with hmem | hmem
  · exact hasked u dst hmem
  · refine (Justified.close ?_ env async).2 u dst hmem
    exact h.congr rfl rfl id

theorem Justified.route {env : TunnelEnv} {action : VpnConnectAction}
    (hu : ∀ u ∈ selectUpstream env action (some conn), Allowed D env u conn.dst)
    (hwhy : conn.forciblyBypassed = true ∨ conn.forciblyRedirected = true ∨
      ∃ a, D a ∧ a.getD .default = .default) : Follows D env (routeConnection env action conn) := by
  unfold routeConnection
  dsimp only
  split
  · exact h.close env true
  split
  · split
    · split
      · exact ⟨⟨h.bypassed, fun _ => hwhy⟩, by simp⟩
      · exact h.close env true
    · exact h.close env true
  · split
    · refine Justified.close ?_ env true
      exact h.congr rfl rfl id
    · refine Justified.openOn ?_ ?_ true
      · exact h.congr rfl rfl id
      · exact hu

theorem Justified.complete {a : Option VpnConnectAction} (ha : D a)
    (env : TunnelEnv) : Follows D env (completeConnectRequest env a conn) := by
  unfold completeConnectRequest
  split
  · next hbypass =>
    have hD : D (some .forceBypass) := by
      cases a with
      | none => cases hbypass
      | some a =>
        cases hbypass
        exact ha
    exact Justified.route ⟨fun _ => hD, fun _ => .inl rfl⟩ (fun _ _ => .inr (.inl hD)) (.inl rfl)
  · refine Justified.route ?_ (fun u hu => .inl (selectUpstream_forceRedirect hu)) (.inr (.inl rfl))
    exact ⟨h.bypassed, fun _ => .inr (.inl rfl)⟩
  · next hdefault =>
    refine Justified.route ?_ (fun u hu => .inr (.inr ⟨a, ha, hdefault, ?_⟩)) (.inr (.inr ⟨a, ha, hdefault⟩))
    · exact h.congr rfl rfl id
    · rintro rfl
      exact .inl (selectUpstream_default hu)
  · exact h.close env true

theorem Justified.resolved (env : TunnelEnv) (result : Option (List SocketAddress)) :
    Follows D env (onDestinationResolveResult env result conn) := by
  unfold onDestinationResolveResult
  split
  · exact h.close env false
  next hstate =>
  have hwhy := h.resolving (not_not.mp hstate)
  split
  · exact h.close env false
  split
  · exact h.close env false
  next address _ =>
  refine Justified.openOn ?_ (fun u hu => ?_) false
  · exact h.congr rfl rfl id
  split at hu
  · next hb => exact .inr (.inl (h.bypassed hb))
  next hb =>
  split at hu
  · exact .inl (selectUpstream_forceRedirect hu)
  next hr =>
  -- nothing was forced, so the default action was decided
  rcases hwhy with hw | hw | ⟨a, ha, hdefault⟩
  · exact absurd hw hb
  · exact absurd hw hr
  refine .inr (.inr ⟨a, ha, hdefault, ?_⟩)
  rintro rfl
  rcases selectUpstream_resolved hu with hmode | hex
  · exact .inl hmode
  · exact .inr ⟨address, rfl, hex⟩

end

end

end TrustTunnel.Tunnel
