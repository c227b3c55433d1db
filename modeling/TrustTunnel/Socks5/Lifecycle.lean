import TrustTunnel.Socks5.Listener

/-!
# Socks5.Lifecycle

The life of connections and relays, without the code that drives it. A `View` is the listener's two
tables as functions; a `Move` is one thing that happens to them, together with what is raised.

`Slips` are the three things that an owner who relies on the events cannot account for: a connection
that fails before it was announced, data for a connection that is gone, and a closed event under a
wrong identifier. Moves with a slip are only there if the slip is allowed.
-/

namespace TrustTunnel.Socks5

open Lib

/-- `queue` are the UDP connections whose packets wait to be handed over. -/
structure View where
  conn : ConnId → Option Connection
  relay : ConnId → Option (AddressPair → Option ConnId)
  queue : List ConnId
  nextId : ConnId

variable (v : View)

namespace View

def set (id : ConnId) (c : Connection) : View :=
  { v with conn := Function.update v.conn id (some c) }

def erase (id : ConnId) : View := { v with conn := Function.update v.conn id none }

def setRelay (r : ConnId) (t : AddressPair → Option ConnId) : View :=
  { v with relay := Function.update v.relay r (some t) }

def eraseRelay (r : ConnId) : View := { v with relay := Function.update v.relay r none }

def advance : View := { v with nextId := v.nextId + 1 }

section Simp

variable (v : View) (id j r : ConnId) (c : Connection) (t : AddressPair → Option ConnId)

@[simp] theorem set_conn : (v.set id c).conn j = if j = id then some c else v.conn j :=
  Function.update_apply ..

@[simp] theorem erase_conn : (v.erase id).conn j = if j = id then none else v.conn j :=
  Function.update_apply ..

@[simp] theorem setRelay_relay : (v.setRelay r t).relay j = if j = r then some t else v.relay j :=
  Function.update_apply ..

@[simp] theorem eraseRelay_relay : (v.eraseRelay r).relay j = if j = r then none else v.relay j :=
  Function.update_apply ..

@[simp] theorem set_relay : (v.set id c).relay = v.relay := rfl
@[simp] theorem erase_relay : (v.erase id).relay = v.relay := rfl
@[simp] theorem setRelay_conn : (v.setRelay r t).conn = v.conn := rfl
@[simp] theorem eraseRelay_conn : (v.eraseRelay r).conn = v.conn := rfl
@[simp] theorem advance_conn : v.advance.conn = v.conn := rfl
@[simp] theorem advance_relay : v.advance.relay = v.relay := rfl

theorem set_eq_self {v : View} {id : ConnId} {c : Connection} (h : v.conn id = some c) : v.set id c = v := by
  rw [set, ← h, Function.update_eq_self]

@[simp] theorem set_set (d : Connection) : (v.set id c).set id d = v.set id d := by
  simp [set]

@[simp] theorem erase_set : (v.set id c).erase id = v.erase id := by
  simp [set, erase]

@[simp] theorem eraseRelay_setRelay : (v.setRelay r t).eraseRelay r = v.eraseRelay r := by
  simp [setRelay, eraseRelay]

end Simp

section Inversion

variable {v : View} {id j r : ConnId} {c d : Connection} {t u : AddressPair → Option ConnId}

theorem of_set (h : (v.set id c).conn j = some d) : j = id ∧ d = c ∨ j ≠ id ∧ v.conn j = some d := by
  rw [set_conn] at h
  split at h
  · exact .inl ⟨‹_›, (Option.some.inj h).symm⟩
  · exact .inr ⟨‹_›, h⟩

theorem of_erase (h : (v.erase id).conn j = some d) : j ≠ id ∧ v.conn j = some d := by
  rw [erase_conn] at h
  split at h
  · cases h
  · exact ⟨‹_›, h⟩

theorem of_setRelay (h : (v.setRelay r t).relay j = some u) : j = r ∧ u = t ∨ j ≠ r ∧ v.relay j = some u := by
  rw [setRelay_relay] at h
  split at h
  · exact .inl ⟨‹_›, (Option.some.inj h).symm⟩
  · exact .inr ⟨‹_›, h⟩

theorem of_eraseRelay (h : (v.eraseRelay r).relay j = some u) : j ≠ r ∧ v.relay j = some u := by
  rw [eraseRelay_relay] at h
  split at h
  · cases h
  · exact ⟨‹_›, h⟩

theorem set_other (hj : j ≠ id) (h : v.conn j = some d) : (v.set id c).conn j = some d := by
  rw [set_conn, if_neg hj]
  exact h

theorem isSome_setRelay (h : v.relay r = some u) : ((v.setRelay r t).relay j).isSome = (v.relay j).isSome := by
  rw [setRelay_relay]
  split_ifs with heq
  · rw [heq, h]
    rfl
  · rfl

theorem set_self : (v.set id c).conn id = some c := by rw [set_conn, if_pos rfl]

theorem erase_other (hj : j ≠ id) (h : v.conn j = some d) : (v.erase id).conn j = some d := by
  rw [erase_conn, if_neg hj]
  exact h

theorem ne_of_proto (hc : v.conn id = some c) (hd : v.conn j = some d) (h : d.proto ≠ c.proto) : j ≠ id := by
  rintro rfl
  rw [hc] at hd
  cases hd
  exact h rfl

end Inversion

end View

def Socks5Listener.view (s : Socks5Listener) : View where
  conn id := s.connections.lookup id
  relay r := (s.udpRelays.lookup r).map fun relay k => relay.connectionsByAddr.lookup k
  queue := s.connsWithPendingUdp
  nextId := s.nextId

structure Slips where
  refuse : Prop
  stale : Prop
  sweep : Prop

def Out.silent : Out → Bool
  | .write _ _ => true
  | .sendTo _ _ => true
  | .setRst _ => true
  | .returned _ => true
  | _ => false

def Config.credentials (config : Config) : Bytes :=
  (UsernamePasswordRequest.mk usernamePasswordVer config.username config.password).bytes

def ConnectionAddress.IsIp (a : ConnectionAddress) : Prop :=
  ∃ ip, a = .sockaddr ip ∧ (ip.addr.length = Wire.ipv4AddrSize ∨ ip.addr.length = Wire.ipv6AddrSize)

/-! ## Moves -/

inductive Next (config : Config) (x : Slips) (id : ConnId) :
    Connection → List Out → Connection → Prop where
  | received {c : Connection} (data : Bytes) (hp : c.proto ≠ some .udp) :
      Next config x id c [.received id data] { c with unread := c.unread ++ data }
  | greeted {c : Connection} {st : ConnectionState} {methods rest : Bytes} (hs : c.state = .idle)
      (hu : c.unread = authRequest methods ++ rest)
      (hst : st = .waitingUsernamePassword ∨ st = .waitingRequest ∧ config.username = []) :
      Next config x id c [] { c with state := st, unread := rest }
  | matched {c : Connection} {rest : Bytes} (hs : c.state = .waitingUsernamePassword)
      (hu : c.unread = config.credentials ++ rest) :
      Next config x id c [] { c with state := .waitingRequest, unread := rest }
  | asked {c : Connection} (hs : c.state = .waitingRequest) (hu : c.unread[1]? = some cmdConnect) :
      Next config x id c [] { c with proto := some .tcp }
  | refused {c c' : Connection} (hx : x.refuse) (hp : c.proto ≠ some .udp)
      (hs : c.state.pastRequest = false) (hp' : c'.proto ≠ some .udp) (hs' : c'.state = .failed) :
      Next config x id c [] c'
  | requested {c c' : Connection} (hs : c.state = .waitingRequest) (hp' : c'.proto = some .tcp)
      (hs' : c'.state = .waitingConnectResult) (hdst : c'.addr.dst.WellFormed) :
      Next config x id c [.connectRequest id (some .tcp) c'.addr.src c'.addr.dst c'.appName] c'
  | succeeded {c : Connection} (hp : c.proto = some .tcp) (hs : c.state = .waitingConnectResult) :
      Next config x id c [] { c with state := .waitingAccept }
  | failed {c : Connection} (hp : c.proto = some .tcp) (hs : c.state = .waitingConnectResult) :
      Next config x id c [] { c with state := .failed }
  | accepted {c : Connection}
      (hs : c.proto = some .tcp ∧ c.state = .waitingAccept ∨ c.proto = some .udp ∧
        c.state = .waitingConnectResult) :
      Next config x id c [.connectionAccepted id] { c with state := .established }
  | read {c : Connection} (data : Bytes) (ha : c.announced = true) :
      Next config x id c [.read id data] c
  | dataSent {c : Connection} (n : Nat) (ha : c.announced = true) :
      Next config x id c [.dataSent id n] c
  | quiet {c c' : Connection} (hs : c'.state = c.state) (hp : c'.proto = c.proto)
      (ha : c.state ≠ .waitingRequest → c'.addr = c.addr) (hr : c'.relay = c.relay)
      (hu : c.state.pastRequest = false → c'.unread = c.unread) :
      Next config x id c [] c'

inductive Move (config : Config) (x : Slips) : View → List Out → View → Prop where
  | silent {v : View} {outs : List Out} (h : ∀ o ∈ outs, o.silent = true) : Move config x v outs v
  | opened {v : View} :
      Move config x v [.created v.nextId] (v.set v.nextId { readEnabled := true }).advance
  | abandoned {v : View} : Move config x v [.created v.nextId, .freed v.nextId] v.advance
  | next {v : View} {id : ConnId} {c c' : Connection} {outs : List Out} (hc : v.conn id = some c)
      (hn : Next config x id c outs c') : Move config x v outs (v.set id c')
  | openedUdp {v : View} {r : ConnId} {t : AddressPair → Option ConnId} {c : Connection}
      (hr : v.relay r = some t) (hk : t c.addr = none) (hp : c.proto = some .udp)
      (hs : c.state = .waitingConnectResult) (hcr : c.relay = r) (hip : c.addr.dst.IsIp) :
      Move config x v [.createdUdp v.nextId r, .connectRequest v.nextId (some .udp) c.addr.src c.addr.dst c.appName]
        ((v.set v.nextId c).setRelay r (Function.update t c.addr (some v.nextId))).advance
  | related {v : View} {id : ConnId} {c c' : Connection} (hc : v.conn id = some c)
      (hs : c.state = .waitingRequest) (hp : c.proto = none) (hp' : c'.proto = none)
      (hs' : c'.state = .established) :
      Move config x v [.createdRelay id] ((v.set id c').setRelay id fun _ => none)
  | closed {v : View} {id : ConnId} {c : Connection} (e : VpnError) (hc : v.conn id = some c)
      (hp : c.proto ≠ some .udp) (hs : c.state.pastRequest = true) (hr : v.relay id = none) :
      Move config x v [.connectionClosed id e, .freed id] (v.erase id)
  | dropped {v : View} {id : ConnId} {c : Connection} (hc : v.conn id = some c)
      (hp : c.proto ≠ some .udp) (hs : c.state.pastRequest = false) :
      Move config x v [.freed id] (v.erase id)
  | closedUdp {v : View} {id : ConnId} {c : Connection} {t : AddressPair → Option ConnId}
      (e : VpnError) (hc : v.conn id = some c) (hp : c.proto = some .udp)
      (hr : v.relay c.relay = some t) :
      Move config x v [.connectionClosed id e, .freed id]
        ((v.erase id).setRelay c.relay (Function.update t c.addr none))
  | unrelated {v : View} {r : ConnId} {t : AddressPair → Option ConnId} (hr : v.relay r = some t)
      (ht : ∀ k, t k = none) :
      Move config x v [.freed r, .freedRelay r] ((v.erase r).eraseRelay r)
  | swept {v : View} {id slot : ConnId} {c : Connection} (e : VpnError) (hc : v.conn id = some c)
      (hp : c.proto ≠ some .udp) (hr : v.relay id = none)
      (hx : x.sweep ∨ c.state.pastRequest = true ∧ slot = id) :
      Move config x v [.freed id, .connectionClosed slot e] (v.erase id)
  | queued {v : View} {id : ConnId} {c : Connection} (hc : v.conn id = some c)
      (hp : c.proto = some .udp) : Move config x v [] { v with queue := v.queue ++ [id] }
  | dequeued {v : View} : Move config x v [] { v with queue := [] }
  | stale {v : View} {id : ConnId} (data : Bytes) (hx : x.stale) (hc : v.conn id = none) :
      Move config x v [.read id data] v

inductive Path (config : Config) (x : Slips) (v₀ : View) : List Out → View → Prop where
  | refl : Path config x v₀ [] v₀
  | snoc {l outs : List Out} {v v' : View} (h : Path config x v₀ l v) (hm : Move config x v outs v') :
      Path config x v₀ (l ++ outs) v'

theorem Path.inv {config : Config} {x : Slips} {v₀ v : View} {l h : List Out}
    {K : List Out → View → Prop} (hp : Path config x v₀ l v) (h0 : K h v₀)
    (hstep : ∀ l v outs v', K l v → Move config x v outs v' → K (l ++ outs) v') : K (h ++ l) v := by
  induction hp with
  | refl => simpa using h0
  | snoc _ hm ih =>
    rw [← List.append_assoc]
    exact hstep _ _ _ _ ih hm

/-! ## The invariant -/

structure Connection.Proper (c : Connection) : Prop where
  udp : c.proto = some .udp → (c.state = .waitingConnectResult ∨ c.state = .established) ∧ c.addr.dst.IsIp
  asking : c.proto = some .tcp → c.state.pastRequest = false →
    c.state = .waitingRequest ∧ c.unread[1]? = some cmdConnect
  addressed : c.proto = some .tcp → c.state = .waitingConnectResult → c.addr.dst.WellFormed

structure View.Inv (v : View) : Prop where
  fresh : ∀ id c, v.conn id = some c → id < v.nextId
  proper : ∀ id c, v.conn id = some c → c.Proper
  related : ∀ r t, v.relay r = some t → ∃ c, v.conn r = some c ∧ c.proto = none ∧ c.state = .established
  keeping : ∀ id c, v.conn id = some c → c.proto = none → c.state = .established → (v.relay id).isSome = true
  listed : ∀ r t k id, v.relay r = some t → t k = some id →
    ∃ c, v.conn id = some c ∧ c.proto = some .udp ∧ c.relay = r ∧ c.addr = k
  owned : ∀ id c, v.conn id = some c → c.proto = some .udp → ∃ t, v.relay c.relay = some t ∧
    t c.addr = some id
  queued : ∀ id ∈ v.queue, id < v.nextId ∧ ∀ c, v.conn id = some c → c.proto = some .udp

namespace View.Inv

variable {v : View} (h : v.Inv)
include h

theorem conn_nextId : v.conn v.nextId = none := by
  cases hc : v.conn v.nextId with
  | none => rfl
  | some c => exact absurd (h.fresh _ c hc) (Nat.lt_irrefl _)

theorem relay_eq_none {id : ConnId} {c : Connection} (hc : v.conn id = some c)
    (hne : ¬ (c.proto = none ∧ c.state = .established)) : v.relay id = none := by
  cases hr : v.relay id with
  | none => rfl
  | some t =>
    obtain ⟨c', hc', hp, hs⟩ := h.related id t hr
    rw [hc] at hc'
    cases hc'
    exact absurd ⟨hp, hs⟩ hne

end View.Inv

section Preservation

variable {config : Config} {x : Slips}

variable {id : ConnId} {c c' : Connection} {outs : List Out} {v : View} {t : AddressPair → Option ConnId}

theorem Next.proper (h : Next config x id c outs c') (hc : c.Proper) : c'.Proper := by
  cases h with
  | received data hp =>
    refine ⟨fun h => absurd h hp, fun h hs => ?_, hc.addressed⟩
    obtain ⟨hst, hu⟩ := hc.asking h hs
    obtain ⟨hlt, -⟩ := List.getElem?_eq_some_iff.mp hu
    exact ⟨hst, (List.getElem?_append_left hlt).trans hu⟩
  | greeted hs hu hst =>
    have hpast : c.state.pastRequest = false := by rw [hs]; rfl
    refine ⟨fun h => ?_, fun h => ?_, fun _ h => ?_⟩
    · rcases (hc.udp h).1 with h' | h' <;> rw [hs] at h' <;> cases h'
    · have := (hc.asking h hpast).1
      rw [hs] at this
      cases this
    · rcases hst with rfl | ⟨rfl, -⟩ <;> cases h
  | matched hs hu =>
    have hpast : c.state.pastRequest = false := by rw [hs]; rfl
    refine ⟨fun h => ?_, fun h => ?_, fun _ h => by cases h⟩
    · rcases (hc.udp h).1 with h' | h' <;> rw [hs] at h' <;> cases h'
    · have := (hc.asking h hpast).1
      rw [hs] at this
      cases this
  | asked hs hu =>
    refine ⟨fun h => (by cases h), fun _ _ => ⟨hs, hu⟩, fun _ h => ?_⟩
    rw [hs] at h
    cases h
  | refused hx hp hs hp' hs' =>
    refine ⟨fun h => absurd h hp', fun _ h => ?_, fun _ h => ?_⟩
    all_goals
      rw [hs'] at h
      cases h
  | requested hs hp' hs' hdst =>
    refine ⟨fun h => ?_, fun _ h => ?_, fun _ _ => hdst⟩
    · rw [hp'] at h
      cases h
    · rw [hs'] at h
      cases h
  | succeeded hp hs | failed hp hs =>
    refine ⟨fun h => ?_, fun _ h => (by cases h), fun _ h => by cases h⟩
    rw [hp] at h
    cases h
  | accepted hs =>
    refine ⟨fun h => ⟨.inr rfl, ?_⟩, fun _ h => (by cases h), fun _ h => by cases h⟩
    exact (hc.udp h).2
  | read data ha | dataSent n ha => exact hc
  | quiet hs hp ha hr hu =>
    refine ⟨fun h => ?_, fun h hpast => ?_, fun h h' => ?_⟩
    · have hudp := hc.udp (hp ▸ h)
      rw [hs, ha (by rcases hudp.1 with h' | h' <;> rw [h'] <;> simp)]
      exact hudp
    · rw [hs] at hpast ⊢
      rw [hu hpast]
      exact hc.asking (hp ▸ h) hpast
    · rw [hs] at h'
      rw [ha (by rw [h']; simp)]
      exact hc.addressed (hp ▸ h) h'

theorem Next.udp_iff (h : Next config x id c outs c') (hc : c.Proper) :
    (c'.proto = some .udp ↔ c.proto = some .udp) ∧
      (c.proto = some .udp → c'.relay = c.relay ∧ c'.addr = c.addr) := by
  have hnot : c.state = .waitingRequest → c.proto ≠ some .udp := by
    intro hs h
    rcases (hc.udp h).1 with h' | h' <;> rw [hs] at h' <;> cases h'
  cases h with
  | received data hp | greeted hs hu hst | matched hs hu | succeeded hp hs | failed hp hs
  | accepted hs | read data ha | dataSent n ha => exact ⟨Iff.rfl, fun _ => ⟨rfl, rfl⟩⟩
  | asked hs hu => exact ⟨⟨fun h => (by cases h), fun h => absurd h (hnot hs)⟩, fun _ => ⟨rfl, rfl⟩⟩
  | refused hx hp hs hp' hs' =>
    exact ⟨⟨fun h => absurd h hp', fun h => absurd h hp⟩, fun h => absurd h hp⟩
  | requested hs hp' hs' hdst =>
    refine ⟨⟨fun h => ?_, fun h => absurd h (hnot hs)⟩, fun h => absurd h (hnot hs)⟩
    rw [hp'] at h
    cases h
  | quiet hs hp ha hr hu => exact ⟨by rw [hp], fun h => ⟨hr, ha fun hs' => hnot hs' h⟩⟩

theorem Next.related_iff (h : Next config x id c outs c') :
    c'.proto = none ∧ c'.state = .established ↔ c.proto = none ∧ c.state = .established := by
  cases h with
  | received data _ | read data ha | dataSent n ha => exact Iff.rfl
  | greeted hs hu hst =>
    refine ⟨fun h => ?_, fun h => ?_⟩
    · rcases hst with rfl | ⟨rfl, -⟩ <;> cases h.2
    · rw [hs] at h
      cases h.2
  | matched hs hu | succeeded hp hs | failed hp hs =>
    refine ⟨fun h => (by cases h.2), fun h => ?_⟩
    rw [hs] at h
    cases h.2
  | asked hs hu =>
    refine ⟨fun h => (by cases h.1), fun h => ?_⟩
    rw [hs] at h
    cases h.2
  | refused hx _ hs hp' hs' =>
    refine ⟨fun h => ?_, fun h => ?_⟩
    · rw [hs'] at h
      cases h.2
    · rw [h.2] at hs
      cases hs
  | requested hs hp' hs' hdst =>
    refine ⟨fun h => ?_, fun h => ?_⟩
    · rw [hs'] at h
      cases h.2
    · rw [hs] at h
      cases h.2
  | accepted hs =>
    have hp : c.proto ≠ none := by rcases hs with ⟨h, -⟩ | ⟨h, -⟩ <;> rw [h] <;> simp
    exact ⟨fun h => absurd h.1 hp, fun h => absurd h.1 hp⟩
  | quiet hs hp ha hr hu => rw [hs, hp]

section

variable (h : v.Inv)
include h

theorem View.Inv.next (hc : v.conn id = some c) (hn : Next config x id c outs c') : (v.set id c').Inv := by
  obtain ⟨hudp, hsame⟩ := hn.udp_iff (h.proper id c hc)
  constructor
  · intro j d hd
    rcases View.of_set hd with ⟨rfl, -⟩ | ⟨-, hd⟩
    · exact h.fresh j c hc
    · exact h.fresh j d hd
  · intro j d hd
    rcases View.of_set hd with ⟨-, rfl⟩ | ⟨-, hd⟩
    · exact hn.proper (h.proper id c hc)
    · exact h.proper j d hd
  · intro r t hr
    obtain ⟨d, hd, hp, hs⟩ := h.related r t hr
    by_cases hj : r = id
    · rw [hj, hc] at hd
      cases hd
      exact ⟨c', hj ▸ View.set_self, hn.related_iff.mpr ⟨hp, hs⟩⟩
    · exact ⟨d, View.set_other hj hd, hp, hs⟩
  · intro j d hd hp hs
    rcases View.of_set hd with ⟨rfl, rfl⟩ | ⟨-, hd⟩
    · obtain ⟨hp₀, hs₀⟩ := hn.related_iff.mp ⟨hp, hs⟩
      exact h.keeping j c hc hp₀ hs₀
    · exact h.keeping j d hd hp hs
  · intro r t k j hr hk
    obtain ⟨d, hd, hp, hdr, hda⟩ := h.listed r t k j hr hk
    by_cases hj : j = id
    · rw [hj, hc] at hd
      cases hd
      obtain ⟨hr', ha'⟩ := hsame hp
      exact ⟨c', hj ▸ View.set_self, hudp.mpr hp, hr'.trans hdr, ha'.trans hda⟩
    · exact ⟨d, View.set_other hj hd, hp, hdr, hda⟩
  · intro j d hd hp
    rcases View.of_set hd with ⟨rfl, rfl⟩ | ⟨-, hd⟩
    · obtain ⟨hr', ha'⟩ := hsame (hudp.mp hp)
      rw [hr', ha']
      exact h.owned j c hc (hudp.mp hp)
    · exact h.owned j d hd hp
  · intro j hj
    obtain ⟨hlt, hq⟩ := h.queued j hj
    refine ⟨hlt, fun d hd => ?_⟩
    rcases View.of_set hd with ⟨rfl, rfl⟩ | ⟨-, hd⟩
    · exact hudp.mpr (hq c hc)
    · exact hq d hd

theorem View.Inv.erase (hc : v.conn id = some c) (hp : c.proto ≠ some .udp)
    (hr : v.relay id = none) : (v.erase id).Inv := by
  refine ⟨fun j d hd => h.fresh j d (View.of_erase hd).2, fun j d hd => h.proper j d (View.of_erase hd).2,
    ?_, fun j d hd => h.keeping j d (View.of_erase hd).2, ?_, fun j d hd => h.owned j d (View.of_erase hd).2,
    fun j hj => ⟨(h.queued j hj).1, fun d hd => (h.queued j hj).2 d (View.of_erase hd).2⟩⟩
  · intro r t hrt
    obtain ⟨d, hd, hpd, hs⟩ := h.related r t hrt
    have hj : r ≠ id := by
      rintro rfl
      cases hr.symm.trans hrt
    exact ⟨d, View.erase_other hj hd, hpd, hs⟩
  · intro r t k j hrt hk
    obtain ⟨d, hd, hpd, hdr, hda⟩ := h.listed r t k j hrt hk
    have hj := View.ne_of_proto hc hd fun heq => hp (heq ▸ hpd)
    exact ⟨d, View.erase_other hj hd, hpd, hdr, hda⟩

theorem View.Inv.add {v' : View} (hc : c.Proper) (hconn : v'.conn = (v.set v.nextId c).conn)
    (hqueue : v'.queue = v.queue) (hnext : v'.nextId = v.nextId + 1)
    (hrelay : ∀ r t, v'.relay r = some t → ∃ t₀, v.relay r = some t₀ ∧
      ∀ k id, t k = some id → t₀ k = some id ∨ id = v.nextId ∧ c.proto = some .udp ∧
        c.relay = r ∧ c.addr = k)
    (hrelays : ∀ r, (v.relay r).isSome = true → (v'.relay r).isSome = true)
    (hkept : ∀ r t k id, v.relay r = some t → t k = some id → ∃ t', v'.relay r = some t' ∧ t' k = some id)
    (hstate : ¬ (c.proto = none ∧ c.state = .established))
    (howned : c.proto = some .udp → ∃ t, v'.relay c.relay = some t ∧ t c.addr = some v.nextId) : v'.Inv := by
  have hfree := h.conn_nextId
  have hold : ∀ {j d}, v.conn j = some d → v'.conn j = some d := by
    intro j d hd
    have hj : j ≠ v.nextId := fun hj => by cases hfree.symm.trans (hj ▸ hd)
    exact hconn ▸ View.set_other hj hd
  have hnew : v'.conn v.nextId = some c := hconn ▸ View.set_self
  have hcases : ∀ {j d}, v'.conn j = some d → j = v.nextId ∧ d = c ∨ v.conn j = some d :=
    fun hd => (View.of_set (hconn ▸ hd)).imp_right And.right
  constructor
  · intro j d hd
    rw [hnext]
    rcases hcases hd with ⟨rfl, -⟩ | hd
    · exact Nat.lt_succ_self _
    · exact Nat.lt_succ_of_lt (h.fresh j d hd)
  · intro j d hd
    rcases hcases hd with ⟨-, rfl⟩ | hd
    · exact hc
    · exact h.proper j d hd
  · intro r t hr
    obtain ⟨t₀, hr₀, -⟩ := hrelay r t hr
    obtain ⟨d, hd, hp⟩ := h.related r t₀ hr₀
    exact ⟨d, hold hd, hp⟩
  · intro j d hd hp hs
    rcases hcases hd with ⟨-, rfl⟩ | hd
    · exact absurd ⟨hp, hs⟩ hstate
    · exact hrelays j (h.keeping j d hd hp hs)
  · intro r t k j hr hk
    obtain ⟨t₀, hr₀, hfrom⟩ := hrelay r t hr
    rcases hfrom k j hk with hk₀ | ⟨rfl, hp⟩
    · obtain ⟨d, hd, hp⟩ := h.listed r t₀ k j hr₀ hk₀
      exact ⟨d, hold hd, hp⟩
    · exact ⟨c, hnew, hp⟩
  · intro j d hd hp
    rcases hcases hd with ⟨rfl, rfl⟩ | hd
    · exact howned hp
    · obtain ⟨t, hr, hk⟩ := h.owned j d hd hp
      exact hkept _ t _ j hr hk
  · intro j hj
    rw [hqueue] at hj
    obtain ⟨hlt, hq⟩ := h.queued j hj
    refine ⟨hnext ▸ Nat.lt_succ_of_lt hlt, fun d hd => ?_⟩
    rcases hcases hd with ⟨rfl, -⟩ | hd
    · exact absurd hlt (Nat.lt_irrefl _)
    · exact hq d hd

theorem View.Inv.opened : (v.set v.nextId { readEnabled := true }).advance.Inv :=
  h.add ⟨fun hp => (by cases hp), fun hp => (by cases hp), fun hp => by cases hp⟩ rfl rfl rfl
    (fun _ t hr => ⟨t, hr, fun _ _ hk => .inl hk⟩) (fun _ hr => hr)
    (fun _ t _ _ hr hk => ⟨t, hr, hk⟩) (fun hboth => (by cases hboth.2)) fun hp => by cases hp

theorem View.Inv.openedUdp {r : ConnId} (hr : v.relay r = some t) (hk : t c.addr = none)
    (hp : c.proto = some .udp) (hs : c.state = .waitingConnectResult) (hcr : c.relay = r) (hip : c.addr.dst.IsIp) :
    ((v.set v.nextId c).setRelay r (Function.update t c.addr (some v.nextId))).advance.Inv := by
  have hproper : c.Proper := by
    refine ⟨fun _ => ⟨.inl hs, hip⟩, fun h => ?_, fun h => ?_⟩
    · rw [hp] at h
      cases h
    · rw [hp] at h
      cases h
  refine h.add hproper rfl rfl rfl ?_ ?_ ?_ (fun hboth => ?_) fun _ => ?_
  · intro r' t' hr'
    rcases View.of_setRelay hr' with ⟨rfl, rfl⟩ | ⟨-, hr'⟩
    · refine ⟨t, hr, fun k id hid => ?_⟩
      rw [Function.update_apply] at hid
      split_ifs at hid with hkey
      · cases hid
        exact .inr ⟨rfl, hp, hcr, hkey.symm⟩
      · exact .inl hid
    · exact ⟨t', hr', fun _ _ hid => .inl hid⟩
  · intro r' hr'
    simp only [View.advance_relay, View.setRelay_relay]
    split
    · rfl
    · exact hr'
  · intro r' t' k id hr' hid
    simp only [View.advance_relay, View.setRelay_relay]
    split_ifs with heq
    · rw [heq, hr] at hr'
      cases hr'
      refine ⟨_, rfl, ?_⟩
      rw [Function.update_apply, if_neg]
      · exact hid
      · rintro rfl
        cases hk.symm.trans hid
    · exact ⟨t', hr', hid⟩
  · cases hs.symm.trans hboth.2
  · refine ⟨Function.update t c.addr (some v.nextId), ?_, Function.update_self ..⟩
    simp [hcr]

theorem View.Inv.addRelay (hc : v.conn id = some c) (hs : c.state = .waitingRequest)
    (hp : c.proto = none) (hp' : c'.proto = none) (hs' : c'.state = .established) :
    ((v.set id c').setRelay id fun _ => none).Inv := by
  have hnone : v.relay id = none := h.relay_eq_none hc fun hboth => by cases hs.symm.trans hboth.2
  have hcases : ∀ {j d}, ((v.set id c').setRelay id fun _ => none).conn j = some d →
      j = id ∧ d = c' ∨ j ≠ id ∧ v.conn j = some d := View.of_set
  constructor
  · intro j d hd
    rcases hcases hd with ⟨rfl, -⟩ | ⟨-, hd⟩
    · exact h.fresh j c hc
    · exact h.fresh j d hd
  · intro j d hd
    rcases hcases hd with ⟨-, rfl⟩ | ⟨-, hd⟩
    · refine ⟨fun h => ?_, fun h => ?_, fun h => ?_⟩ <;> cases hp'.symm.trans h
    · exact h.proper j d hd
  · intro r t hr
    rcases View.of_setRelay hr with ⟨rfl, -⟩ | ⟨hj, hr⟩
    · exact ⟨c', View.set_self, hp', hs'⟩
    · obtain ⟨d, hd, hrest⟩ := h.related r t hr
      exact ⟨d, View.set_other hj hd, hrest⟩
  · intro j d hd hpd hsd
    simp only [View.setRelay_relay]
    split_ifs with hj
    · rfl
    · exact h.keeping j d ((hcases hd).resolve_left fun heq => hj heq.1).2 hpd hsd
  · intro r t k j hr hk
    rcases View.of_setRelay hr with ⟨-, rfl⟩ | ⟨-, hr⟩
    · cases hk
    · obtain ⟨d, hd, hpd, hrest⟩ := h.listed r t k j hr hk
      have hj := View.ne_of_proto hc hd (by rw [hpd, hp]; simp)
      exact ⟨d, View.set_other hj hd, hpd, hrest⟩
  · intro j d hd hpd
    rcases hcases hd with ⟨-, rfl⟩ | ⟨-, hd⟩
    · cases hp'.symm.trans hpd
    obtain ⟨t, ht, hk⟩ := h.owned j d hd hpd
    refine ⟨t, ?_, hk⟩
    rw [View.setRelay_relay, if_neg]
    · exact ht
    · intro heq
      cases hnone.symm.trans (heq ▸ ht)
  · intro j hj
    obtain ⟨hlt, hq⟩ := h.queued j hj
    refine ⟨hlt, fun d hd => ?_⟩
    rcases hcases hd with ⟨rfl, -⟩ | ⟨-, hd⟩
    · cases hp.symm.trans (hq c hc)
    · exact hq d hd

theorem View.Inv.closedUdp (hc : v.conn id = some c) (hp : c.proto = some .udp) (hr : v.relay c.relay = some t) :
    ((v.erase id).setRelay c.relay (Function.update t c.addr none)).Inv := by
  have hentry : t c.addr = some id := by
    obtain ⟨t', hr', hk⟩ := h.owned id c hc hp
    rw [hr] at hr'
    cases hr'
    exact hk
  -- a table after the move lists what one before it lists, without `c`
  have hlists : ∀ {r t' k j}, ((v.erase id).setRelay c.relay (Function.update t c.addr none)).relay r =
      some t' → t' k = some j → ∃ t₀, v.relay r = some t₀ ∧ t₀ k = some j ∧
        (r = c.relay → k ≠ c.addr) := by
    intro r t' k j hr' hk
    rcases View.of_setRelay hr' with ⟨rfl, rfl⟩ | ⟨hne, hr'⟩
    · rw [Function.update_apply] at hk
      split at hk
      · cases hk
      · rename_i hkey
        exact ⟨t, hr, hk, fun _ => hkey⟩
    · exact ⟨t', hr', hk, fun heq => absurd heq hne⟩
  constructor
  · intro j d hd
    exact h.fresh j d (View.of_erase hd).2
  · intro j d hd
    exact h.proper j d (View.of_erase hd).2
  · intro r t' hr'
    obtain ⟨t₀, hr₀⟩ : ∃ t₀, v.relay r = some t₀ := by
      rcases View.of_setRelay hr' with ⟨rfl, -⟩ | ⟨-, hr'⟩
      · exact ⟨t, hr⟩
      · exact ⟨t', hr'⟩
    obtain ⟨d, hd, hpd, hs⟩ := h.related r t₀ hr₀
    have hj := View.ne_of_proto hc hd (by rw [hpd, hp]; simp)
    exact ⟨d, View.erase_other hj hd, hpd, hs⟩
  · intro j d hd hpd hsd
    simp only [View.setRelay_relay]
    split
    · rfl
    · exact h.keeping j d (View.of_erase hd).2 hpd hsd
  · intro r t' k j hr' hk
    obtain ⟨t₀, hr₀, hk₀, hkey⟩ := hlists hr' hk
    obtain ⟨d, hd, hpd, hdr, hda⟩ := h.listed r t₀ k j hr₀ hk₀
    have hj : j ≠ id := by
      rintro rfl
      rw [hc] at hd
      cases hd
      exact hkey hdr.symm hda.symm
    exact ⟨d, View.erase_other hj hd, hpd, hdr, hda⟩
  · intro j d hd hpd
    obtain ⟨hj, hd⟩ := View.of_erase hd
    obtain ⟨t₀, hr₀, hk⟩ := h.owned j d hd hpd
    simp only [View.setRelay_relay]
    split_ifs with heq
    · rw [heq, hr] at hr₀
      cases hr₀
      refine ⟨_, rfl, ?_⟩
      rw [Function.update_apply, if_neg]
      · exact hk
      intro hkey
      rw [hkey, hentry] at hk
      cases hk
      exact hj rfl
    · exact ⟨t₀, hr₀, hk⟩
  · intro j hj
    exact ⟨(h.queued j hj).1, fun d hd => (h.queued j hj).2 d (View.of_erase hd).2⟩

theorem View.Inv.eraseRelay {r : ConnId} (hr : v.relay r = some t) (ht : ∀ k, t k = none) :
    ((v.erase r).eraseRelay r).Inv := by
  obtain ⟨c, hc, hp, -⟩ := h.related r t hr
  constructor
  · intro j d hd
    exact h.fresh j d (View.of_erase hd).2
  · intro j d hd
    exact h.proper j d (View.of_erase hd).2
  · intro r' t' hr'
    obtain ⟨hne, hr'⟩ := View.of_eraseRelay hr'
    obtain ⟨d, hd, hrest⟩ := h.related r' t' hr'
    exact ⟨d, View.erase_other hne hd, hrest⟩
  · intro j d hd hpd hsd
    obtain ⟨hj, hd⟩ := View.of_erase hd
    rw [View.eraseRelay_relay, if_neg hj]
    exact h.keeping j d hd hpd hsd
  · intro r' t' k j hr' hk
    obtain ⟨-, hr'⟩ := View.of_eraseRelay hr'
    obtain ⟨d, hd, hpd, hrest⟩ := h.listed r' t' k j hr' hk
    have hj := View.ne_of_proto hc hd (by rw [hpd, hp]; simp)
    exact ⟨d, View.erase_other hj hd, hpd, hrest⟩
  · intro j d hd hpd
    obtain ⟨t', hr', hk⟩ := h.owned j d (View.of_erase hd).2 hpd
    refine ⟨t', ?_, hk⟩
    rw [View.eraseRelay_relay, if_neg]
    · exact hr'
    intro heq
    rw [heq, hr] at hr'
    cases hr'
    cases (ht _).symm.trans hk
  · intro j hj
    exact ⟨(h.queued j hj).1, fun d hd => (h.queued j hj).2 d (View.of_erase hd).2⟩

theorem Move.keepsInv {v' : View} (hm : Move config x v outs v') : v'.Inv := by
  cases hm with
  | silent _ | stale data hx hc => exact h
  | opened => exact h.opened
  | abandoned =>
    exact ⟨fun j d hd => Nat.lt_succ_of_lt (h.fresh j d hd), h.proper, h.related, h.keeping, h.listed,
      h.owned, fun j hj => ⟨Nat.lt_succ_of_lt (h.queued j hj).1, (h.queued j hj).2⟩⟩
  | next hc hn => exact h.next hc hn
  | openedUdp hr hk hp hs hcr hip => exact h.openedUdp hr hk hp hs hcr hip
  | related hc hs hp hp' hs' => exact h.addRelay hc hs hp hp' hs'
  | closed e hc hp hs hr | swept e hc hp hr hx => exact h.erase hc hp hr
  | dropped hc hp hs =>
    refine h.erase hc hp (h.relay_eq_none hc fun hboth => ?_)
    rw [hboth.2] at hs
    cases hs
  | closedUdp e hc hp hr => exact h.closedUdp hc hp hr
  | unrelated hr ht => exact h.eraseRelay hr ht
  | queued hc hp =>
    refine ⟨h.fresh, h.proper, h.related, h.keeping, h.listed, h.owned, fun j hj => ?_⟩
    rcases List.mem_append.mp hj with hj | hj
    · exact h.queued j hj
    rw [List.mem_singleton.mp hj]
    refine ⟨h.fresh _ _ hc, fun d hd => ?_⟩
    rw [hc] at hd
    cases hd
    exact hp
  | dequeued =>
    exact ⟨h.fresh, h.proper, h.related, h.keeping, h.listed, h.owned, fun j hj => by cases hj⟩

end

theorem Path.udp_of_old {v₀ : View} {l : List Out} (hp : Path config x v₀ l v) (h₀ : v₀.Inv)
    (hid : id < v₀.nextId) (hold : ∀ c, v₀.conn id = some c → c.proto = some .udp) (hc : v.conn id = some c) :
    c.proto = some .udp := by
  have hall := hp.inv (h := []) (K := fun _ v => v.Inv ∧ v₀.nextId ≤ v.nextId ∧
    ∀ c, v.conn id = some c → c.proto = some .udp) ⟨h₀, Nat.le_refl _, hold⟩ ?_
  · exact hall.2.2 c hc
  rintro - v outs v' ⟨hi, hle, hudp⟩ hm
  have hne : id ≠ v.nextId := Nat.ne_of_lt (Nat.lt_of_lt_of_le hid hle)
  refine ⟨hm.keepsInv hi, ?_, ?_⟩
  · cases hm <;> first | exact hle | exact Nat.le_succ_of_le hle
  intro d hd
  cases hm with
  | silent _ | abandoned | queued | dequeued | stale => exact hudp d hd
  | opened | openedUdp => exact hudp d ((View.of_set hd).resolve_left fun heq => hne heq.1).2
  | next hc' hn =>
    rcases View.of_set hd with ⟨rfl, rfl⟩ | ⟨-, hd⟩
    · exact (hn.udp_iff (hi.proper _ _ hc')).1.mpr (hudp _ hc')
    · exact hudp d hd
  | related hc' hs hp =>
    rcases View.of_set hd with ⟨rfl, -⟩ | ⟨-, hd⟩
    · cases hp.symm.trans (hudp _ hc')
    · exact hudp d hd
  | closed | dropped | closedUdp | unrelated | swept => exact hudp d (View.of_erase hd).2

end Preservation

end TrustTunnel.Socks5
