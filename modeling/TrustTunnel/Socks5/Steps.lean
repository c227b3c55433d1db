import TrustTunnel.Socks5.Lifecycle

/-!
# Socks5.Steps

The code follows the moves.
-/

namespace TrustTunnel.Socks5

open Lib Lib.Act List

/-! ## Views of changed states -/

section Views

variable {s : Socks5Listener} {id r : ConnId} {c : Connection}

theorem lookup_of_conn (hc : s.view.conn id = some c) : s.connections.lookup id = some c := hc

theorem lookup_of_none (hc : s.view.conn id = none) : s.connections.lookup id = none := hc

theorem view_eq {v : View} (hconn : ∀ j, s.view.conn j = v.conn j) (hrelay : ∀ j, s.view.relay j = v.relay j)
    (hrest : s.connsWithPendingUdp = v.queue ∧ s.nextId = v.nextId) : s.view = v := by
  obtain ⟨conn, relay, queue, nextId⟩ := v
  obtain ⟨rfl, rfl⟩ := hrest
  obtain rfl : s.view.conn = conn := funext hconn
  obtain rfl : s.view.relay = relay := funext hrelay
  rfl

theorem view_setConn (hc : s.view.conn id = some c) (f : Connection → Connection) :
    (s.setConn id f).view = s.view.set id (f c) := by
  refine view_eq (fun j => (Map.lookup_modify_eq ..).trans ?_) (fun _ => rfl) ⟨rfl, rfl⟩
  rw [View.set_conn, lookup_of_conn hc]
  rfl

theorem conn_setConn (hc : s.view.conn id = some c) (f : Connection → Connection) :
    (s.setConn id f).view.conn id = some (f c) := by
  rw [view_setConn hc, View.set_conn, if_pos rfl]

theorem view_setConn_setConn (hc : s.view.conn id = some c) (f g : Connection → Connection) :
    ((s.setConn id f).setConn id g).view = s.view.set id (g (f c)) := by
  rw [view_setConn (conn_setConn hc f), view_setConn hc, View.set_set]

theorem view_eraseConn (s : Socks5Listener) (id : ConnId) : (s.eraseConn id).view = s.view.erase id :=
  view_eq (fun j => (Map.lookup_erase_eq ..).trans (View.erase_conn s.view id j).symm) (fun _ => rfl) ⟨rfl, rfl⟩

variable {t : AddressPair → Option ConnId}

theorem view_setRelay {f : UdpRelay → UdpRelay}
    {g : (AddressPair → Option ConnId) → AddressPair → Option ConnId} (hr : s.view.relay r = some t)
    (hf : ∀ u : UdpRelay, (fun k => (f u).connectionsByAddr.lookup k) =
      g fun k => u.connectionsByAddr.lookup k) : (s.setRelay r f).view = s.view.setRelay r (g t) := by
  refine view_eq (fun _ => rfl) (fun j => Eq.trans ?_ (View.setRelay_relay ..).symm) ⟨rfl, rfl⟩
  show ((s.udpRelays.modify r f).lookup j).map _ = _
  rw [Map.lookup_modify_eq]
  split
  · obtain ⟨u, hu, rfl⟩ := Option.map_eq_some_iff.mp hr
    rw [hu, Option.map_some, Option.map_some, hf]
  · rfl

theorem view_eraseEntry (hr : s.view.relay r = some t) (k : AddressPair) :
    (s.setRelay r fun u => { u with connectionsByAddr := u.connectionsByAddr.erase k }).view =
      s.view.setRelay r (Function.update t k none) := by
  refine view_setRelay (g := fun t => Function.update t k none) hr fun u => ?_
  funext j
  rw [Function.update_apply]
  exact Map.lookup_erase_eq _ _ _

theorem view_insertEntry (hr : s.view.relay r = some t) (k : AddressPair) (id : ConnId) :
    (s.setRelay r fun u => { u with connectionsByAddr := u.connectionsByAddr.insert k id }).view =
      s.view.setRelay r (Function.update t k (some id)) := by
  refine view_setRelay (g := fun t => Function.update t k (some id)) hr fun u => ?_
  funext j
  rw [Function.update_apply]
  exact Map.lookup_insert_eq _ _ _ _

section

variable (s : Socks5Listener) (id : ConnId)

theorem view_insertConn (c : Connection) :
    ({ s with connections := s.connections.insert id c } : Socks5Listener).view = s.view.set id c :=
  view_eq (fun j => (Map.lookup_insert_eq ..).trans (View.set_conn s.view id j c).symm) (fun _ => rfl) ⟨rfl, rfl⟩

theorem view_insertRelay : ({ s with udpRelays := s.udpRelays.insert id ⟨∅⟩ } : Socks5Listener).view =
      s.view.setRelay id fun _ => none := by
  refine view_eq (fun _ => rfl) (fun j => Eq.trans ?_ (View.setRelay_relay ..).symm) ⟨rfl, rfl⟩
  show ((s.udpRelays.insert id ⟨∅⟩).lookup j).map _ = _
  rw [Map.lookup_insert_eq]
  split <;> rfl

theorem view_eraseRelay :
    ({ s with udpRelays := s.udpRelays.erase id } : Socks5Listener).view = s.view.eraseRelay id := by
  refine view_eq (fun _ => rfl) (fun j => Eq.trans ?_ (View.eraseRelay_relay ..).symm) ⟨rfl, rfl⟩
  show ((s.udpRelays.erase id).lookup j).map _ = _
  rw [Map.lookup_erase_eq]
  split <;> rfl

end

theorem isUdpAssociation_iff (hc : s.view.conn id = some c) (hi : s.view.Inv) :
    s.isUdpAssociation id c = true ↔ (s.view.relay id).isSome := by
  have hrelay : (s.view.relay id).isSome = (s.udpRelays.lookup id).isSome := Option.isSome_map
  rw [Socks5Listener.isUdpAssociation, Bool.and_eq_true, hrelay]
  refine ⟨fun h => h.2, fun h => ⟨?_, h⟩⟩
  rw [← hrelay] at h
  obtain ⟨t, ht⟩ := Option.isSome_iff_exists.mp h
  obtain ⟨c', hc', hp, -⟩ := hi.related id t ht
  rw [hc] at hc'
  cases hc'
  rw [hp]
  rfl

end Views

/-! ## Actions with a known result -/

section Known

variable {s : Socks5Listener} {l : List Out} {id : ConnId} {c : Connection}

theorem deref_none (hc : s.view.conn id = none) (l : List Out) : deref id s l = (.error .useAfterFree, s, l) := by
  rw [deref, get_bind]
  simp only [lookup_of_none hc]
  rfl

theorem derefRelay_ok {r : ConnId} {u : UdpRelay} (hr : s.udpRelays.lookup r = some u) (l : List Out) :
    derefRelay r s l = (.ok u, s, l) := by
  rw [derefRelay, get_bind]
  simp only [hr]
  rfl

theorem access_ok {α : Type} {x : Except Violation α} {a : α} (h : x = .ok a) (s : Socks5Listener)
    (l : List Out) : access x s l = (.ok a, s, l) := by
  rw [h]
  rfl

def closing (id : ConnId) (c : Connection) (e : VpnError) : List Out :=
  if c.state.pastRequest then [.connectionClosed id e, .freed id] else [.freed id]

variable (hc : s.view.conn id = some c)
include hc

theorem deref_ok (l : List Out) : deref id s l = (.ok c, s, l) := by
  rw [deref, get_bind]
  simp only [lookup_of_conn hc]
  rfl

theorem update_ok (f : Connection → Connection) (l : List Out) :
    update id f s l = (.ok (), s.setConn id f, l) := by
  rw [update, bind_ok (deref_ok hc l)]
  rfl

theorem destroyConnection_ok (hp : c.proto ≠ some .udp) (l : List Out) :
    destroyConnection id s l = (.ok (), s.eraseConn id, l ++ [.freed id]) := by
  rw [destroyConnection, bind_ok (deref_ok hc l)]
  rw [if_neg hp]
  rfl

theorem destroyConnection_udp (hp : c.proto = some .udp)
    {t : AddressPair → Option ConnId} (hr : s.view.relay c.relay = some t) (l : List Out) :
    destroyConnection id s l = (.ok (), (s.eraseConn id).setRelay c.relay
      (fun u => { u with connectionsByAddr := u.connectionsByAddr.erase c.addr }), l ++ [.freed id]) := by
  obtain ⟨u, hu, -⟩ := Option.map_eq_some_iff.mp hr
  have hu' : (s.eraseConn id).udpRelays.lookup c.relay = some u := hu
  rw [destroyConnection, bind_ok (deref_ok hc l)]
  show (if c.proto = some .udp then _ else _ : Action Unit) (s.eraseConn id) l = _
  rw [if_pos hp, bind_ok (derefRelay_ok hu' l)]
  rfl

theorem closeAndReport_ok (hp : c.proto ≠ some .udp) (e : VpnError)
    (l : List Out) : closeAndReport id e s l = (.ok (), s.eraseConn id, l ++ closing id c e) := by
  rw [closeAndReport, bind_ok (deref_ok hc l)]
  cases hs : c.state.pastRequest with
  | false =>
    rw [closing, hs]
    exact destroyConnection_ok hc hp l
  | true =>
    have hl : (s.connections.lookup id).isSome = true := Option.isSome_iff_exists.mpr ⟨c, hc⟩
    show (if (s.connections.lookup id).isSome = true then destroyConnection id else pure ()) s
      (l ++ [.connectionClosed id e]) = _
    rw [if_pos hl, destroyConnection_ok hc hp, closing, hs, append_assoc]
    rfl

end Known


/-! ## States along a path -/

/-- The listener has come to `s` by moves from `v₀`, raising `l`. -/
structure Reached (config : Config) (x : Slips) (v₀ : View) (l : List Out) (s : Socks5Listener) :
    Prop where
  path : Path config x v₀ l s.view
  inv : s.view.Inv

abbrev Anywhere : Unit → Socks5Listener → Prop := fun _ _ => True

section Specs

variable {config : Config} {x : Slips} {v₀ : View} {F : Fault → Prop} {s : Socks5Listener}
  {l : List Out} {id : ConnId} {c : Connection}

namespace Reached

section

variable (h : Reached config x v₀ l s)
include h

theorem move {s' : Socks5Listener} {v' : View} {outs : List Out}
    (hm : Move config x s.view outs v') (hv : s'.view = v') : Reached config x v₀ (l ++ outs) s' :=
  ⟨hv ▸ h.path.snoc hm, hv ▸ hm.keepsInv h.inv⟩

theorem silent {o : Out} (ho : o.silent = true) : Reached config x v₀ (l ++ [o]) s :=
  h.move (.silent fun p hp => by rw [mem_singleton.mp hp]; exact ho) rfl

theorem next {f : Connection → Connection} {outs : List Out}
    (hc : s.view.conn id = some c) (hn : Next config x id c outs (f c)) :
    Reached config x v₀ (l ++ outs) (s.setConn id f) :=
  h.move (.next hc hn) (view_setConn hc f)

theorem quiet {f : Connection → Connection} (hc : s.view.conn id = some c) (hn : Next config x id c [] (f c)) :
    Reached config x v₀ l (s.setConn id f) := by
  have := h.next hc hn
  rwa [append_nil] at this

theorem event {o : Out} (hc : s.view.conn id = some c)
    (hn : Next config x id c [o] c) : Reached config x v₀ (l ++ [o]) s :=
  h.move (.next hc hn) (View.set_eq_self hc).symm

theorem congr {s' : Socks5Listener} (hv : s'.view = s.view) : Reached config x v₀ l s' :=
  ⟨hv ▸ h.path, hv ▸ h.inv⟩

theorem closed (hc : s.view.conn id = some c) (hp : c.proto ≠ some .udp)
    (hs : c.state.pastRequest = true) (hr : s.view.relay id = none) (e : VpnError) :
    Reached config x v₀ (l ++ [.connectionClosed id e, .freed id]) (s.eraseConn id) :=
  h.move (.closed e hc hp hs hr) (view_eraseConn s id)

theorem close (hc : s.view.conn id = some c) (hp : c.proto ≠ some .udp) (hr : s.view.relay id = none) (e : VpnError) :
    Reached config x v₀ (l ++ closing id c e) (s.eraseConn id) := by
  unfold closing
  split_ifs with hs
  · exact h.closed hc hp ‹_› hr e
  · exact h.move (.dropped hc hp (by simpa using hs)) (view_eraseConn s id)

end

end Reached

variable {α : Type} {P : α → Socks5Listener → Prop} {R : List Out → Socks5Listener → Prop} {data : Bytes}
  {n : Nat} {env : Env} {r : ConnId} {t : AddressPair → Option ConnId} {proto : IpProto} {as : List Reaction}
  {answers : List Answer} {eof : Bool}

theorem Runs.deref {f : Connection → Action α} (hc : s.view.conn id = some c) (h : Runs R F (f c) s l P) :
    Runs R F (deref id >>= f) s l P :=
  Runs.of_ok_bind (deref_ok hc l) h

theorem Runs.update {g : Connection → Connection} {f : Unit → Action α} (hc : s.view.conn id = some c)
    (h : Runs R F (f ()) (s.setConn id g) l P) : Runs R F (update id g >>= f) s l P :=
  Runs.of_ok_bind (update_ok hc g l) h

/-! ## Closing -/

theorem respond_spec (hc : s.view.conn id = some c) (hp : c.proto ≠ some .udp)
    (hdone : R (l ++ [.write id data]) (s.setConn id fun c => { c with unread := c.unread.drop n }))
    (hgone : ∀ e, R (l ++ [.write id data] ++ closing id c e) (s.eraseConn id)) :
    Runs R F (respond id data n env) s l Anywhere := by
  refine Runs.deref hc (Runs.raise ?_)
  split
  · exact Runs.of_ok (update_ok hc _ _) hdone trivial
  · exact Runs.of_ok (closeAndReport_ok hc hp _ _) (hgone _) trivial

theorem Next.same {c' : Connection}
    (h : (c'.state, c'.proto, c'.addr, c'.relay, c'.unread) = (c.state, c.proto, c.addr, c.relay, c.unread)) :
    Next config x id c [] c' := by
  simp only [Prod.mk.injEq] at h
  obtain ⟨hs, hp, ha, hr, hu⟩ := h
  exact .quiet hs hp (fun _ => ha) hr fun _ => hu

theorem Next.drained (hs : c.state.pastRequest = true) (n : Nat) :
    Next config x id c [] { c with unread := c.unread.drop n } :=
  .quiet rfl rfl (fun _ => rfl) rfl fun hs' => by
    rw [hs] at hs'
    cases hs'

section

variable (h : Reached config x v₀ l s)
include h

section

variable (hc : s.view.conn id = some c)
include hc

theorem association_cases :
    s.isUdpAssociation id c = true ∧ (∃ t, s.view.relay id = some t) ∨
      s.isUdpAssociation id c = false ∧ s.view.relay id = none := by
  have hiff := isUdpAssociation_iff hc h.inv
  cases hr : s.view.relay id with
  | some t => exact .inl ⟨hiff.mpr (by rw [hr]; rfl), t, rfl⟩
  | none =>
    refine .inr ⟨?_, rfl⟩
    cases ha : s.isUdpAssociation id c with
    | false => rfl
    | true =>
      have := hiff.mp ha
      rw [hr] at this
      cases this

theorem closeAndReport_spec
    (hp : c.proto ≠ some .udp) (hr : s.view.relay id = none) (e : VpnError) :
    Runs (Reached config x v₀) F (closeAndReport id e) s l Anywhere :=
  Runs.of_ok (closeAndReport_ok hc hp e l) (h.close hc hp hr e) trivial

theorem drain_zero_spec :
    Runs (Reached config x v₀) F (drain id 0) s l Anywhere :=
  Runs.of_ok (update_ok hc _ l) (h.quiet hc (.same rfl)) trivial

theorem drain_past_spec (hs : c.state.pastRequest = true) (n : Nat) :
    Runs (Reached config x v₀) F (drain id n) s l Anywhere :=
  Runs.of_ok (update_ok hc _ l) (h.quiet hc (.drained hs n)) trivial

/-- What is left of the relays when the UDP connection `id` is gone. -/
def Unlisted (id : ConnId) (v v' : View) : Prop :=
  (∀ r, (v'.relay r).isSome = (v.relay r).isSome) ∧ ∀ r t', v'.relay r = some t' → ∃ t, v.relay r = some t ∧
      ∀ k j, t' k = some j → t k = some j ∧ j ≠ id

theorem Reached.closeUdp (hp : c.proto = some .udp) (e : VpnError) :
    ∃ s', destroyConnection id s (l ++ [.connectionClosed id e]) =
        (.ok (), s', l ++ [.connectionClosed id e, .freed id]) ∧
      Reached config x v₀ (l ++ [.connectionClosed id e, .freed id]) s' ∧
      s'.view.conn = (s.view.erase id).conn ∧ Unlisted id s.view s'.view := by
  obtain ⟨t, hr, hk⟩ := h.inv.owned id c hc hp
  have hrun := destroyConnection_udp hc hp hr (l ++ [.connectionClosed id e])
  rw [append_assoc] at hrun
  have hr' : (s.eraseConn id).view.relay c.relay = some t := hr
  have hview := view_eraseEntry hr' c.addr
  rw [view_eraseConn] at hview
  refine ⟨_, hrun, h.move (.closedUdp e hc hp hr) hview, by rw [hview]; rfl, ?_⟩
  rw [hview]
  refine ⟨fun r => ?_, fun r t' hr' => ?_⟩
  · exact View.isSome_setRelay hr
  -- an entry with this identifier has the connection's addresses
  have honly : ∀ {t₀ k}, s.view.relay r = some t₀ → t₀ k = some id → r = c.relay ∧ k = c.addr := by
    intro t₀ k hr₀ hk₀
    obtain ⟨d, hd, -, hdr, hda⟩ := h.inv.listed r t₀ k id hr₀ hk₀
    rw [hc] at hd
    cases hd
    exact ⟨hdr.symm, hda.symm⟩
  rcases View.of_setRelay hr' with ⟨rfl, rfl⟩ | ⟨hne, hr'⟩
  · refine ⟨t, hr, fun k j hj => ?_⟩
    rw [Function.update_apply] at hj
    split at hj
    · cases hj
    · exact ⟨hj, fun hid => absurd (honly hr (hid ▸ hj)).2 ‹_›⟩
  · exact ⟨t', hr', fun k j hj => ⟨hj, fun hid => hne (honly hr' (hid ▸ hj)).1⟩⟩

theorem closeRelayed_spec (hp : c.proto = some .udp) (e : VpnError) :
    Runs (Reached config x v₀) F (closeRelayed e id) s l fun _ s' =>
      s'.view.conn = (s.view.erase id).conn ∧ Unlisted id s.view s'.view := by
  obtain ⟨s', hrun, hreached, hconn, hrelay⟩ := h.closeUdp hc hp e
  exact Runs.deref hc (Runs.raise (Runs.of_ok hrun hreached ⟨hconn, hrelay⟩))

end

theorem closeAll_spec {as : List ConnId} (hr : s.view.relay r = some t)
    (hnodup : as.Nodup) (hudp : ∀ a ∈ as, ∃ c, s.view.conn a = some c ∧ c.proto = some .udp)
    (hlist : ∀ k a, t k = some a → a ∈ as) (e : VpnError) :
    Runs (Reached config x v₀) F (Act.forEach (closeRelayed e) as) s l fun _ s' =>
      (∃ t', s'.view.relay r = some t' ∧ ∀ k, t' k = none) ∧
        (∀ r', (s'.view.relay r').isSome = (s.view.relay r').isSome) ∧
        ∀ j d, s'.view.conn j = some d → s.view.conn j = some d := by
  induction as generalizing s l t with
  | nil =>
    refine Runs.pure h ⟨⟨t, hr, fun k => ?_⟩, fun _ => rfl, fun _ _ hd => hd⟩
    cases hk : t k with
    | none => rfl
    | some a => exact absurd (hlist k a hk) (by simp)
  | cons a as ih =>
    obtain ⟨hnot, hnodup⟩ := nodup_cons.mp hnodup
    obtain ⟨c, hc, hp⟩ := hudp a (by simp)
    refine Runs.bind (closeRelayed_spec h hc hp e) fun _ s' l' h' hpost => ?_
    obtain ⟨hconn, hsame, hfrom⟩ := hpost
    obtain ⟨t', hr'⟩ : ∃ t', s'.view.relay r = some t' := by
      rw [← Option.isSome_iff_exists, hsame, hr]
      rfl
    obtain ⟨t₀, hr₀, hentries⟩ := hfrom r t' hr'
    rw [hr] at hr₀
    cases hr₀
    refine Runs.mono (ih h' hr' hnodup ?_ ?_) fun _ s'' _ _ hp' =>
      ⟨hp'.1, fun r' => (hp'.2.1 r').trans (hsame r'), fun j d hd => ?_⟩
    · intro b hb
      obtain ⟨d, hd, hpd⟩ := hudp b (by simp [hb])
      exact ⟨d, hconn ▸ View.erase_other (fun heq : b = a => hnot (heq ▸ hb)) hd, hpd⟩
    · intro k b hk
      obtain ⟨hk₀, hne⟩ := hentries k b hk
      exact (mem_cons.mp (hlist k b hk₀)).resolve_left hne
    · have hd' := hp'.2.2 j d hd
      rw [hconn] at hd'
      exact (View.of_erase hd').2

theorem terminateUdpAssociation_spec (hr : s.view.relay id = some t) (e : VpnError) :
    Runs (Reached config x v₀) F (terminateUdpAssociation id e) s l fun _ s' =>
      s'.view.conn id = none ∧ s'.view.relay id = none ∧
        (∀ r, r ≠ id → (s'.view.relay r).isSome = (s.view.relay r).isSome) ∧
        ∀ j d, s'.view.conn j = some d → s.view.conn j = some d := by
  obtain ⟨c, hc, -, -⟩ := h.inv.related id t hr
  have hassoc := (isUdpAssociation_iff hc h.inv).mpr (Option.isSome_iff_exists.mpr ⟨t, hr⟩)
  obtain ⟨u, hu, rfl⟩ := Option.map_eq_some_iff.mp hr
  refine Runs.deref hc (Runs.get ?_)
  rw [if_pos hassoc]
  refine Runs.of_ok_bind (derefRelay_ok hu l) ?_
  have hall := closeAll_spec (F := F) h hr (Map.nodup_values ?_) ?_ (fun k a hk => Map.mem_values.mpr ⟨k, hk⟩) e
  · refine Runs.bind hall fun _ s' l' h' hpost => ?_
    obtain ⟨⟨t', hr', ht'⟩, hsame, hconns⟩ := hpost
    obtain ⟨c', hc', hp', -⟩ := h'.inv.related id t' hr'
    refine Runs.modify ?_
    have hdestroy := destroyConnection_ok (s := { s' with udpRelays := s'.udpRelays.erase id }) hc'
      (by rw [hp']; simp) l'
    refine Runs.of_ok_bind hdestroy ?_
    have hview : (({ s' with udpRelays := s'.udpRelays.erase id }).eraseConn id).view =
        (s'.view.erase id).eraseRelay id := by
      rw [view_eraseConn, view_eraseRelay]
      rfl
    have hend := h'.move (.unrelated hr' ht') hview
    refine Runs.of_ok rfl (by rw [append_assoc]; exact hend) ?_
    rw [hview]
    refine ⟨by simp, by simp, fun r hne => ?_, fun j d hd => hconns j d ?_⟩
    · rw [View.eraseRelay_relay, if_neg hne]
      exact hsame r
    · exact (View.of_erase hd).2
  · intro j k a hj hk
    obtain ⟨d, hd, -, -, hda⟩ := h.inv.listed id _ j a hr hj
    obtain ⟨d', hd', -, -, hda'⟩ := h.inv.listed id _ k a hr hk
    rw [hd] at hd'
    cases hd'
    exact hda.symm.trans hda'
  · intro a ha
    obtain ⟨k, hk⟩ := Map.mem_values.mp ha
    obtain ⟨d, hd, hpd, -⟩ := h.inv.listed id _ k a hr hk
    exact ⟨d, hd, hpd⟩

/-! ## Calls of the owner -/

def Reaction.frees (proto : IpProto) : Reaction → Bool
  | .close _ => true
  | .complete result env =>
    match proto with
    | .tcp => !succeeded env.write
    | .udp => result != .success
  | .turnRead _ => false

def Reaction.completes : Reaction → Bool
  | .complete _ _ => true
  | _ => false

def Connection.open (c : Connection) : Nat := if c.state = .waitingConnectResult then 1 else 0

/-- The connection is there, of this protocol and announced, with `n` requests to complete. -/
def Alive (v : View) (id : ConnId) (proto : IpProto) (n : Nat) : Prop :=
  ∃ c, v.conn id = some c ∧ c.proto = some proto ∧ c.state.pastRequest = true ∧ c.open = n

theorem turnRead_spec (ha : Alive s.view id proto n) (on : Bool) :
    Runs (Reached config x v₀) F (turnRead id on) s l fun _ s' => Alive s'.view id proto n := by
  obtain ⟨c, hc, hp, hs, hn⟩ := ha
  refine Runs.get ?_
  simp only [lookup_of_conn hc]
  split
  all_goals exact Runs.of_ok (update_ok hc _ l) (h.quiet hc (.same rfl)) ⟨_, conn_setConn hc _, hp, hs, hn⟩

variable (hc : s.view.conn id = some c)
include hc

theorem relay_none_of_proto (hp : c.proto = some proto) : s.view.relay id = none :=
  h.inv.relay_eq_none hc fun hboth => by
    rw [hp] at hboth
    cases hboth.1

theorem closeTcp_spec (hp : c.proto ≠ some .udp)
    (hs : c.state.pastRequest = true) (hr : s.view.relay id = none) (e : VpnError) :
    Runs (Reached config x v₀) F (Act.raise (.connectionClosed id e) >>= fun _ => destroyConnection id) s l
      fun _ s' => s'.view.conn id = none := by
  refine Runs.raise (Runs.of_ok (destroyConnection_ok hc hp _) ?_ ?_)
  · rw [append_assoc]
    exact h.closed hc hp hs hr e
  · rw [view_eraseConn]
    simp

theorem closeConnection_spec
    (hp : c.proto = some proto) (hs : c.state.pastRequest = true) (graceful : Bool) :
    Runs (Reached config x v₀) F (closeConnection id graceful) s l fun _ s' => s'.view.conn id = none := by
  have hr := relay_none_of_proto h hc hp
  refine Runs.get ?_
  simp only [lookup_of_conn hc]
  cases proto with
  | tcp =>
    have hne : c.proto ≠ some .udp := by rw [hp]; simp
    split
    · exact Runs.raise (closeTcp_spec (h.silent rfl) hc hne hs hr noError)
    · exact closeTcp_spec h hc hne hs hr noError
  | udp =>
    obtain ⟨s', hrun, hreached, hconn, -⟩ := h.closeUdp hc hp noError
    rw [if_neg (by simp [hp])]
    refine Runs.raise (Runs.of_ok hrun hreached ?_)
    rw [hconn]
    simp

theorem completeTcpConnection_spec
    (hp : c.proto = some .tcp) (hs : c.state.pastRequest = true) (hopen : c.open = 0)
    (hdst : c.addr.dst.WellFormed) (result : ConnectResult) (env : ReplyEnv) :
    Runs (Reached config x v₀) F (completeTcpConnection id result env) s l fun _ s' =>
      s'.view.conn id = none ∧ succeeded env.write = false ∨ Alive s'.view id .tcp 0 := by
  have hne : c.proto ≠ some .udp := by rw [hp]; simp
  obtain ⟨reply, hreply⟩ := tcpReply_ok hdst result env.localPort
  have h' := h.silent (o := .write id reply) rfl
  refine Runs.deref hc (Runs.of_ok_bind (access_ok hreply s l) (Runs.raise ?_))
  cases hw : succeeded env.write with
  | true => exact Runs.pure h' (.inr ⟨c, hc, hp, hs, hopen⟩)
  | false =>
    exact Runs.mono (closeTcp_spec h' hc hne hs (relay_none_of_proto h hc hp) env.write) fun _ _ _ _ hgone =>
      .inl ⟨hgone, rfl⟩

theorem completeUdpConnection_spec {st : ConnectionState}
    (hp : c.proto = some .udp) (hs : c.state = .waitingConnectResult)
    (result : ConnectResult) : Runs (Reached config x v₀) F (completeUdpConnection id result)
      (s.setConn id fun c => { c with state := st }) l fun _ s' =>
        s'.view.conn id = none ∧ result ≠ .success ∨ Alive s'.view id .udp 0 := by
  have hview := view_setConn hc fun c => { c with state := st }
  have hc' := conn_setConn hc fun c => { c with state := st }
  unfold completeUdpConnection
  split_ifs with hresult
  · have hview₂ := view_setConn_setConn hc (fun c => { c with state := st }) fun c =>
      { c with state := .established }
    have h₂ : Reached config x v₀ (l ++ [.connectionAccepted id])
        ((s.setConn id fun c => { c with state := st }).setConn id fun c => { c with state := .established }) :=
      (h.next hc (.accepted (.inr ⟨hp, hs⟩))).congr
        (hview₂.trans (view_setConn hc fun c => { c with state := .established }).symm)
    have hc₂ := conn_setConn hc' fun c => { c with state := .established }
    refine Runs.raise (Runs.update hc' (Runs.of_ok rfl ?_ (.inr ⟨_, hc₂, hp, rfl, rfl⟩)))
    rw [← append_nil (l ++ _)]
    exact h₂.move (.queued hc₂ hp) rfl
  · obtain ⟨t, hr, -⟩ := h.inv.owned id c hc hp
    have hr' : (s.setConn id fun c => { c with state := st }).view.relay c.relay = some t := hr
    have hrun := destroyConnection_udp hc' hp hr' (l ++ [.connectionClosed id noError])
    have hr'' : ((s.setConn id fun c => { c with state := st }).eraseConn id).view.relay c.relay = some t := hr
    have hend := view_eraseEntry hr'' c.addr
    rw [view_eraseConn, hview, View.erase_set] at hend
    refine Runs.raise (Runs.of_ok hrun ?_ (.inl ⟨?_, hresult⟩))
    · have := h.move (.closedUdp noError hc hp hr) hend
      simpa using this
    · show ((s.setConn id fun c => { c with state := st }).eraseConn id).view.conn id = none
      rw [view_eraseConn]
      simp

theorem completeConnectRequest_spec
    (hp : c.proto = some proto) (hs : c.state.pastRequest = true)
    (hF : c.state ≠ .waitingConnectResult → c.state ≠ .failed → F .assertion) (result : ConnectResult)
    (env : ReplyEnv) : Runs (Reached config x v₀) F (completeConnectRequest id result env) s l fun _ s' =>
      s'.view.conn id = none ∧ (Reaction.complete result env).frees proto = true ∨ Alive s'.view id proto 0 := by
  refine Runs.get ?_
  simp only [lookup_of_conn hc]
  split
  · rename_i hfailed
    refine Runs.pure h (.inr ⟨c, hc, hp, hs, ?_⟩)
    rw [Connection.open, hfailed]
    rfl
  · rename_i hfailed
    split
    · rename_i hwaiting
      refine Runs.update hc ?_
      cases proto with
      | tcp =>
        have hnext : Next config x id c []
            { c with state := if result = .success then .waitingAccept else .failed } := by
          split
          · exact .succeeded hp hwaiting
          · exact .failed hp hwaiting
        have h' := h.quiet (f := fun c => { c with
          state := if result = .success then .waitingAccept else .failed }) hc hnext
        have hc' := conn_setConn hc fun c => { c with
          state := if result = .success then .waitingAccept else .failed }
        rw [if_pos hp]
        refine Runs.mono (completeTcpConnection_spec h' hc' hp ?_ ?_
          ((h.inv.proper id c hc).addressed hp hwaiting) result env) fun _ s' _ _ hpost => ?_
        · split <;> rfl
        · split <;> rfl
        · refine hpost.imp (fun hgone => ⟨hgone.1, ?_⟩) fun ha => ha
          rw [Reaction.frees, hgone.2]
          rfl
      | udp =>
        rw [if_neg (by rw [hp]; simp)]
        refine Runs.mono (completeUdpConnection_spec h hc hp hwaiting result) fun _ s' _ _ hpost => ?_
        refine hpost.imp (fun hgone => ⟨hgone.1, ?_⟩) fun ha => ha
        exact bne_iff_ne.mpr hgone.2
    · rename_i hwaiting
      exact Runs.fail h (hF hwaiting hfailed)

end

/-! ## Reactions -/

theorem react_gone (hc : s.view.conn id = none) (a : Reaction) (l : List Out) : react id a s l = (.ok (), s, l) := by
  cases a with
  | close graceful =>
    rw [react, closeConnection, get_bind]
    simp only [lookup_of_none hc]
    rfl
  | complete result env =>
    rw [react, completeConnectRequest, get_bind]
    simp only [lookup_of_none hc]
    rfl
  | turnRead on =>
    rw [react, turnRead, get_bind]
    simp only [lookup_of_none hc]
    rfl

theorem reactions_gone (h : Reached config x v₀ l s) (hc : s.view.conn id = none) (as : List Reaction) :
    Runs (Reached config x v₀) F (Act.forEach (react id) as) s l fun _ s' => s'.view.conn id = none :=
  Runs.forEach h hc fun a _ _ l' h' hc' => Runs.of_ok (react_gone hc' a l') h' hc'

/-- What the owner does from inside an event. The connection stays, unless one of the reactions frees
it; an assertion fails only if more requests are completed than there are. -/
theorem reactions_spec (h : Reached config x v₀ l s) (ha : Alive s.view id proto n)
    (hF : n < as.countP Reaction.completes → F .assertion) :
    Runs (Reached config x v₀) F (Act.forEach (react id) as) s l fun _ s' =>
      s'.view.conn id = none ∧ (∃ a ∈ as, a.frees proto = true) ∨ ∃ m, Alive s'.view id proto m := by
  induction as generalizing s l n with
  | nil => exact Runs.pure h (.inr ⟨n, ha⟩)
  | cons a as ih =>
    have hgone : ∀ {s' : Socks5Listener} {l' : List Out}, Reached config x v₀ l' s' →
        s'.view.conn id = none → a.frees proto = true →
        Runs (Reached config x v₀) F (Act.forEach (react id) as) s' l' fun _ s' =>
          s'.view.conn id = none ∧ (∃ b ∈ a :: as, b.frees proto = true) ∨
            ∃ m, Alive s'.view id proto m := fun h' hc' hfrees =>
      Runs.mono (reactions_gone h' hc' as) fun _ _ _ _ hend => .inl ⟨hend, a, by simp, hfrees⟩
    have hstays : ∀ {s' : Socks5Listener} {l' : List Out} {m : Nat}, Reached config x v₀ l' s' →
        Alive s'.view id proto m → (m < as.countP Reaction.completes → F .assertion) →
        Runs (Reached config x v₀) F (Act.forEach (react id) as) s' l' fun _ s' =>
          s'.view.conn id = none ∧ (∃ b ∈ a :: as, b.frees proto = true) ∨
            ∃ m, Alive s'.view id proto m := fun h' ha' hF' =>
      Runs.mono (ih h' ha' hF') fun _ _ _ _ hend =>
        hend.imp_left fun ⟨hnone, b, hb, hfrees⟩ => ⟨hnone, b, by simp [hb], hfrees⟩
    cases a with
    | close graceful =>
      obtain ⟨c, hc, hp, hs, -⟩ := ha
      exact Runs.bind (closeConnection_spec h hc hp hs graceful) fun _ _ _ h' hc' => hgone h' hc' rfl
    | turnRead on =>
      exact Runs.bind (turnRead_spec h ha on) fun _ _ _ h' ha' => hstays h' ha' hF
    | complete result env =>
      obtain ⟨c, hc, hp, hs, hn⟩ := ha
      have hcount : (Reaction.complete result env :: as).countP Reaction.completes =
          as.countP Reaction.completes + 1 := countP_cons_of_pos rfl
      rw [hcount] at hF
      refine Runs.bind (completeConnectRequest_spec h hc hp hs ?_ result env) fun _ s' l' h' hpost => ?_
      · intro hne _
        refine hF ?_
        rw [← hn, Connection.open, if_neg hne]
        exact Nat.succ_pos _
      · rcases hpost with ⟨hnone, hfrees⟩ | ha'
        · exact hgone h' hnone hfrees
        refine hstays h' ha' fun hlt => hF ?_
        have hle : n ≤ 1 := by
          rw [← hn, Connection.open]
          split <;> decide
        omega

/-! ## The handshake -/

theorem authState {m : UInt8} (hm : m = config.supportedMethod ∨ m = config.supportedMethod + appNameMethod) :
    (if m = usernamePassword ∨ m = usernamePassword + appNameMethod then
        ConnectionState.waitingUsernamePassword else .waitingRequest) = .waitingUsernamePassword ∨
      (if m = usernamePassword ∨ m = usernamePassword + appNameMethod then
        ConnectionState.waitingUsernamePassword else .waitingRequest) = .waitingRequest ∧ config.username = [] := by
  cases hu : config.username with
  | nil =>
    have hsupported : config.supportedMethod = noAuthenticationRequired := by
      rw [Config.supportedMethod, hu]
      rfl
    rw [hsupported] at hm
    rw [if_neg]
    · exact .inr ⟨rfl, rfl⟩
    · rcases hm with rfl | rfl <;> decide
  | cons b rest =>
    have hsupported : config.supportedMethod = usernamePassword := by
      rw [Config.supportedMethod, hu]
      rfl
    rw [hsupported] at hm
    exact .inl (if_pos hm)

section

variable (h : Reached config x v₀ l s) (hc : s.view.conn id = some c)
include h hc

theorem refuse_spec (hx : x.refuse)
    (hp : c.proto ≠ some .udp) (hs : c.state.pastRequest = false) : Runs (Reached config x v₀) F (do
        update id fun c => { c with state := .failed }
        respond id data n env) s l Anywhere := by
  have h' := h.quiet (f := fun c => { c with state := .failed }) hc (.refused hx hp hs hp rfl)
  have hc' := conn_setConn hc fun c => { c with state := .failed }
  have hr' := h'.inv.relay_eq_none hc' fun hboth => by cases hboth.2
  have hw := h'.silent (o := .write id data) rfl
  exact Runs.update hc (respond_spec hc' hp (hw.quiet hc' (.drained rfl n)) fun e => hw.close hc' hp hr' e)

theorem advance_spec {st : ConnectionState}
    (hp : c.proto ≠ some .udp) (hs : c.state.pastRequest = false) (hst : st.pastRequest = false)
    (hn : Next config x id c [] { c with state := st, unread := c.unread.drop n }) :
    Runs (Reached config x v₀) F (do
        update id fun c => { c with state := st }
        respond id data n env) s l Anywhere := by
  have hc' := conn_setConn hc fun c => { c with state := st }
  have hw := h.silent (o := .write id data) rfl
  refine Runs.update hc (respond_spec hc' hp ?_ fun e => ?_)
  · refine (hw.quiet (f := fun c => { c with state := st, unread := c.unread.drop n }) hc hn).congr ?_
    rw [view_setConn_setConn hc, view_setConn hc]
  · rw [closing, hst]
    refine hw.move (.dropped hc hp hs) ?_
    rw [view_eraseConn, view_setConn hc, View.erase_set]

theorem onIdle_spec (hs : c.state = .idle)
    (hp : c.proto ≠ some .udp) (hx : processAuthRequest config c.unread = .ok .failed → x.refuse) :
    Runs (Reached config x v₀) F (onIdle config id c.unread env) s l Anywhere := by
  obtain ⟨verdict, hverdict, hchosen⟩ := processAuthRequest_spec config c.unread
  have hpast : c.state.pastRequest = false := by rw [hs]; rfl
  refine Runs.of_ok_bind (access_ok hverdict s l) ?_
  cases verdict with
  | wait => exact drain_zero_spec h hc
  | failed => exact refuse_spec h hc (hx hverdict) hp hpast
  | chosen m n =>
    obtain ⟨hm, methods, hu⟩ := hchosen m n rfl
    have hst := authState hm
    refine advance_spec h hc hp hpast ?_ (.greeted hs hu hst)
    rcases hst with hst | ⟨hst, -⟩ <;> rw [hst] <;> rfl

theorem onUsernamePassword_spec
    (hs : c.state = .waitingUsernamePassword) (hp : c.proto ≠ some .udp)
    (hx : processUsernamePassword config c.unread = .ok .failed → x.refuse) :
    Runs (Reached config x v₀) F (onUsernamePassword config id c.unread env) s l Anywhere := by
  obtain ⟨verdict, hverdict, hmatched⟩ := processUsernamePassword_spec config c.unread
  have hpast : c.state.pastRequest = false := by rw [hs]; rfl
  refine Runs.of_ok_bind (access_ok hverdict s l) ?_
  cases verdict with
  | wait => exact drain_zero_spec h hc
  | failed => exact refuse_spec h hc (hx hverdict) hp hpast
  | matched n => exact advance_spec h hc hp hpast rfl (.matched hs (hmatched n rfl))

end

/-! ## Requests -/

theorem raiseConnectRequest_spec (hc : s.view.conn id = some c)
    (h : Reached config x v₀ (l ++ [.connectRequest id c.proto c.addr.src c.addr.dst c.appName]) s)
    (hp : c.proto = some proto) (hs : c.state = .waitingConnectResult)
    (hF : 1 < as.countP Reaction.completes → F .assertion) :
    Runs (Reached config x v₀) F (raiseConnectRequest id as) s l fun _ s' =>
      s'.view.conn id = none ∧ (∃ a ∈ as, a.frees proto = true) ∨ ∃ m, Alive s'.view id proto m := by
  refine Runs.deref hc (Runs.raise (reactions_spec h ⟨c, hc, hp, ?_, rfl⟩ ?_))
  · rw [hs]
    rfl
  · rw [Connection.open, if_pos hs]
    exact hF

theorem terminateUdpAssociation_fresh (hc : s.view.conn id = some c) (hp : c.proto = none)
    (hu : s.udpRelays.lookup id = some ⟨∅⟩) (e : VpnError) (l : List Out) : terminateUdpAssociation id e s l =
      (.ok (), ({ s with udpRelays := s.udpRelays.erase id } : Socks5Listener).eraseConn id,
        l ++ [.freed id] ++ [.freedRelay id]) := by
  have hassoc : s.isUdpAssociation id c = true := by
    rw [Socks5Listener.isUdpAssociation, hp, hu]
    rfl
  have hdestroy := destroyConnection_ok (s := { s with udpRelays := s.udpRelays.erase id }) hc (by rw [hp]; simp) l
  rw [terminateUdpAssociation, bind_ok (deref_ok hc l), bind_ok rfl, if_pos hassoc,
    bind_ok (derefRelay_ok hu l), bind_ok rfl, bind_ok rfl, bind_ok hdestroy]
  rfl

/-- The association cannot be set up: without a socket for it, or with a reply that does not go out. -/
structure AssociationFaults (F : Fault → Prop) (c : Connection) (env : Env) : Prop where
  name : associationAtyp c.addr.dst (env.udpSocket.getD .empty) = .domainName → F .assertion
  unrelated : env.udpSocket = none → succeeded env.reply.write = false → F .assertion
  freed : env.udpSocket.isSome → succeeded env.reply.write = false → F .useAfterFree

theorem associationReply_bound (env : Env) (v4 : Bool) (result : ConnectResult) :
    ∃ reply, associationReply v4 result (env.udpSocket.getD .empty) = .ok reply := by
  refine associationReply_ok v4 result ?_
  cases hsock : env.udpSocket with
  | none => exact Nat.zero_le _
  | some a => exact env.boundSize a hsock

/-- What can go wrong with the request in `chunk`, and whether it is refused. -/
structure RequestFaults (F : Fault → Prop) (x : Slips) (c : Connection) (env : Env) : Prop where
  invalid : InvalidBeforeAddress c.unread → ∀ v, F (.memory v)
  refused : ∀ reply, processRequest env.reply.localPort c.unread = .ok (.invalid reply) → x.refuse
  connect : ∀ dst appName n, processRequest env.reply.localPort c.unread = .ok (.request cmdConnect dst appName n) →
    (1 < env.onRequest.countP Reaction.completes → F .assertion) ∧
      ((∃ a ∈ env.onRequest, a.frees .tcp = true) → F .useAfterFree)
  associate : ∀ dst appName n,
    processRequest env.reply.localPort c.unread = .ok (.request cmdUdpAssociate dst appName n) →
    (env.udpSocket = none → x.refuse) ∧
      AssociationFaults F { c with addr := { c.addr with dst := dst }, appName := appName } env

theorem getElem?_of_asksToConnect {chunk : Bytes} (h : asksToConnect chunk = true) : chunk[1]? = some cmdConnect := by
  rcases chunk with _ | ⟨ver, _ | ⟨cmd, _ | ⟨rsv, _ | ⟨atyp, rest⟩⟩⟩⟩
  · cases h
  · cases h
  · cases h
  · cases h
  · rw [asksToConnect, Bool.and_eq_true] at h
    rw [← eq_of_beq h.2]
    rfl

section

variable (h : Reached config x v₀ l s) (hc : s.view.conn id = some c)
include h hc

theorem onConnect_spec (hp : c.proto = some .tcp)
    (hs : c.state = .waitingRequest) (hdst : c.addr.dst.WellFormed)
    (hF : 1 < env.onRequest.countP Reaction.completes → F .assertion)
    (hU : (∃ a ∈ env.onRequest, a.frees .tcp = true) → F .useAfterFree) :
    Runs (Reached config x v₀) F (onValidRequest id cmdConnect n env) s l Anywhere := by
  have hreached := h.next (f := fun c => { c with
    state := .waitingConnectResult
    addr := { c.addr with src := env.remote } }) hc (.requested hs hp rfl hdst)
  have hc' := conn_setConn hc fun c => { c with
    state := .waitingConnectResult
    addr := { c.addr with src := env.remote } }
  rw [hp] at hc'
  refine Runs.update hc (Runs.bind (raiseConnectRequest_spec hc' hreached rfl rfl hF)
    fun _ s' l' h' hpost => Runs.get ?_)
  rcases hpost with ⟨hnone, hfrees⟩ | ⟨m, d, hd, hpd, hsd, -⟩
  · rw [lookup_of_none hnone]
    exact Runs.of_error_bind (deref_none hnone l') h' (hU hfrees)
  · rw [lookup_of_conn hd]
    have h'' := h'.quiet (f := fun c => { c with readEnabled := false }) hd (.same rfl)
    exact Runs.update hd (drain_past_spec h'' (conn_setConn hd _) hsd n)

theorem terminateUdpAssociation_unrelated
    (hr : s.view.relay id = none) (hF : F .assertion) (e : VpnError) {P : Unit → Socks5Listener → Prop} :
    Runs (Reached config x v₀) F (terminateUdpAssociation id e) s l P := by
  rcases association_cases h hc with ⟨-, t, hr'⟩ | ⟨hassoc, -⟩
  · rw [hr] at hr'
    cases hr'
  · refine Runs.deref hc (Runs.get ?_)
    rw [hassoc]
    exact Runs.fail h hF

theorem startUdpAssociation_none {reply : Bytes} {write : VpnError} (hr : s.view.relay id = none)
    (hF : succeeded write = false → F .assertion) :
    Runs (Reached config x v₀) F (startUdpAssociation id reply false write) s l fun associated s' =>
      associated = false ∧ s' = s := by
  have h' := h.silent (o := .write id reply) rfl
  refine Runs.of_ok_bind rfl (Runs.raise ?_)
  cases hw : succeeded write with
  | true => exact Runs.pure h' ⟨rfl, rfl⟩
  | false =>
    exact Runs.bind (P := fun _ _ => False) (terminateUdpAssociation_unrelated h' hc hr (hF hw) _)
      fun _ _ _ _ hp => hp.elim

theorem startUdpAssociation_some
    (hp : c.proto = none) (hs : c.state = .waitingRequest) (reply : Bytes) (write : VpnError) :
    ∃ associated s' l', startUdpAssociation id reply true write s l = (.ok associated, s', l') ∧
      (associated = true ∧ Reached config x v₀ l' (s'.setConn id fun c => { c with state := .established }) ∧
          (∃ c', s'.view.conn id = some c') ∨
        associated = false ∧ succeeded write = false ∧ Reached config x v₀ l' s' ∧ s'.view.conn id = none) := by
  have hr : s.view.relay id = none := h.inv.relay_eq_none hc fun hboth => by
    rw [hs] at hboth
    cases hboth.2
  have hu : (s.udpRelays.lookup id).isSome = false := by
    rw [Option.map_eq_none_iff.mp hr]
    rfl
  let s₁ : Socks5Listener := { s with udpRelays := s.udpRelays.insert id ⟨∅⟩ }
  have hview₁ : s₁.view = s.view.setRelay id fun _ => none := view_insertRelay s id
  have hc₁ : s₁.view.conn id = some c := hc
  have hcreate : createRelay id true s l = (.ok (), s₁, l ++ [.createdRelay id]) := by
    show (if (s.udpRelays.lookup id).isSome = true then Act.fail .assertion else _ : Action Unit) s l = _
    rw [hu]
    rfl
  have hrelated : ∀ f : Connection → Connection, (f c).proto = none →
      Reached config x v₀ (l ++ [.createdRelay id] ++ [.write id reply])
        ((s₁.setConn id f).setConn id fun c => { c with state := .established }) := by
    intro f hf
    have hmove : Move config x s.view [.createdRelay id]
        ((s.view.set id { f c with state := .established }).setRelay id fun _ => none) :=
      .related hc hs hp hf rfl
    refine (h.move hmove ?_).silent rfl
    rw [view_setConn_setConn hc₁, hview₁]
    rfl
  cases hw : succeeded write with
  | true =>
    refine ⟨true, s₁.setConn id fun c => { c with readEnabled := true },
      l ++ [.createdRelay id] ++ [.write id reply], ?_, .inl ⟨rfl, hrelated _ hp, ?_⟩⟩
    · rw [startUdpAssociation, bind_ok hcreate, bind_ok rfl, if_pos hw, if_pos rfl, bind_ok (update_ok hc₁ _ _)]
      rfl
    · exact ⟨_, conn_setConn hc₁ _⟩
  | false =>
    have hu₁ : s₁.udpRelays.lookup id = some ⟨∅⟩ := AList.lookup_insert _
    have hterminate := terminateUdpAssociation_fresh hc₁ hp hu₁ write (l ++ [.createdRelay id] ++ [.write id reply])
    refine ⟨false, ({ s₁ with udpRelays := s₁.udpRelays.erase id }).eraseConn id,
      l ++ [.createdRelay id] ++ [.write id reply] ++ [.freed id] ++ [.freedRelay id], ?_,
        .inr ⟨rfl, rfl, ?_, ?_⟩⟩
    · rw [startUdpAssociation, bind_ok hcreate, bind_ok rfl, hw, if_neg (by simp), bind_ok hterminate]
      rfl
    · have hends := hrelated (fun c => c) hp
      have hview := view_setConn_setConn hc₁ (fun c => c) fun c => { c with state := .established }
      rw [append_assoc _ [Out.freed id]]
      refine hends.move (.unrelated ?_ fun _ => rfl) ?_
      · rw [hview, hview₁]
        simp
      · rw [view_eraseConn, view_eraseRelay, hview, hview₁, View.eraseRelay_setRelay, View.erase_set]
        exact (congrArg (View.erase · id) (View.eraseRelay_setRelay s.view id fun _ => none)).symm
    · rw [view_eraseConn]
      simp

theorem onAssociate_spec {cmd : UInt8}
    (hp : c.proto = none) (hs : c.state = .waitingRequest) (hcmd : cmd ≠ cmdConnect)
    (hx : env.udpSocket = none → x.refuse) (hF : AssociationFaults F c env) :
    Runs (Reached config x v₀) F (onValidRequest id cmd n env) s l Anywhere := by
  obtain ⟨reply, hreply⟩ := associationReply_bound env
    (associationAtyp c.addr.dst (env.udpSocket.getD .empty) == .ipv4) (associationResult env.udpSocket.isSome)
  have hnotUdp : c.proto ≠ some .udp := by rw [hp]; simp
  have hpast : c.state.pastRequest = false := by rw [hs]; rfl
  by_cases hname : associationAtyp c.addr.dst (env.udpSocket.getD .empty) = .domainName
  · have hfail : completeUdpAssociation id env s l = (.error .assertion, s, l) := by
      rw [completeUdpAssociation, bind_ok (deref_ok hc l), if_pos hname]
      rfl
    unfold onValidRequest
    rw [if_neg hcmd]
    exact Runs.of_error_bind hfail h (hF.name hname)
  · have hstart : completeUdpAssociation id env s l =
        startUdpAssociation id reply env.udpSocket.isSome env.reply.write s l := by
      rw [completeUdpAssociation, bind_ok (deref_ok hc l), if_neg hname, bind_ok (access_ok hreply s l)]
    unfold onValidRequest
    rw [if_neg hcmd]
    cases hsock : env.udpSocket.isSome with
    | false =>
      have hnone : env.udpSocket = none := Option.isNone_iff_eq_none.mp (by
        rw [← Option.not_isSome, hsock]
        rfl)
      have hr : s.view.relay id = none := h.inv.relay_eq_none hc fun hboth => by
        rw [hs] at hboth
        cases hboth.2
      have hrun : Runs (Reached config x v₀) F (completeUdpAssociation id env) s l fun associated s' =>
          associated = false ∧ s' = s := by
        show Ends _ _ _ (completeUdpAssociation id env s l)
        rw [hstart, hsock]
        exact startUdpAssociation_none h hc hr (hF.unrelated hnone)
      refine Runs.bind hrun fun associated s' l' h' hpost => ?_
      obtain ⟨rfl, rfl⟩ := hpost
      have hfailed := h'.quiet (f := fun c => { c with state := .failed }) hc
        (.refused (hx hnone) hnotUdp hpast hnotUdp rfl)
      exact Runs.update hc (drain_past_spec hfailed (conn_setConn hc _) rfl n)
    | true =>
      obtain ⟨associated, s', l', hrun, hend⟩ := startUdpAssociation_some h hc hp hs reply env.reply.write
      rw [hsock] at hstart
      refine Runs.of_ok_bind (hstart.trans hrun) ?_
      rcases hend with ⟨rfl, hreached, c', hc'⟩ | ⟨rfl, hw, hreached, hnone⟩
      · exact Runs.update hc' (drain_past_spec hreached (conn_setConn hc' _) rfl n)
      have hgone : update id (fun c => { c with state := if false = true then .established else .failed })
          s' l' = (.error .useAfterFree, s', l') := by
        rw [update, bind_error (deref_none hnone l')]
      exact Runs.of_error_bind hgone hreached (hF.freed hsock hw)

theorem onRequest_spec
    (hs : c.state = .waitingRequest) (hp : c.proto ≠ some .udp) (hF : RequestFaults F x c env) :
    Runs (Reached config x v₀) F (onRequest id c.unread env) s l Anywhere := by
  have hpast : c.state.pastRequest = false := by rw [hs]; rfl
  have hasking := (h.inv.proper id c hc).asking
  unfold onRequest
  cases hverdict : processRequest env.reply.localPort c.unread with
  | error v =>
    have hbad : InvalidBeforeAddress c.unread := by
      refine Classical.byContradiction fun hnot => ?_
      obtain ⟨verdict, hok⟩ := (processRequest_ok_iff env.reply.localPort c.unread).mpr hnot
      rw [hverdict] at hok
      cases hok
    exact Runs.of_error_bind rfl h (hF.invalid hbad v)
  | ok verdict =>
    refine Runs.of_ok_bind rfl (Runs.update hc ?_)
    -- the protocol is set as soon as the command is known
    have h₁ : Reached config x v₀ l (s.setConn id fun c' => { c' with
        proto := if asksToConnect c.unread then some .tcp else c'.proto }) := by
      refine h.quiet hc ?_
      split_ifs with hask
      · exact .asked hs (getElem?_of_asksToConnect hask)
      · exact .same rfl
    have hc₁ := conn_setConn hc fun c' => { c' with
      proto := if asksToConnect c.unread then some .tcp else c'.proto }
    have hp₁ : (if asksToConnect c.unread then some .tcp else c.proto) ≠ some .udp := by
      split
      · simp
      · exact hp
    cases verdict with
    | wait => exact drain_zero_spec h₁ hc₁
    | invalid reply => exact refuse_spec h₁ hc₁ (hF.refused reply hverdict) hp₁ hpast
    | request cmd dst appName n =>
      obtain ⟨hwf, hbyte, hcmd, hask⟩ := processRequest_request hverdict
      refine Runs.update hc₁ ?_
      have h₂ := h₁.quiet (f := fun c => { c with addr := { c.addr with dst := dst }, appName := appName })
        hc₁ (.quiet rfl rfl (fun hne => absurd hs hne) rfl fun _ => rfl)
      have hc₂ := conn_setConn hc₁ fun c => { c with addr := { c.addr with dst := dst }, appName := appName }
      rcases hcmd with rfl | rfl
      · obtain ⟨hA, hU⟩ := hF.connect dst appName n hverdict
        exact onConnect_spec h₂ hc₂ (if_pos hask) hs hwf hA hU
      obtain ⟨hx, hfaults⟩ := hF.associate dst appName n hverdict
      have hnot : asksToConnect c.unread = false := hask
      have hnone : c.proto = none := by
        cases hproto : c.proto with
        | none => rfl
        | some proto =>
          cases proto with
          | udp => exact absurd hproto hp
          | tcp =>
            have := (hasking hproto hpast).2
            rw [hbyte] at this
            exact absurd this (by decide)
      refine onAssociate_spec h₂ hc₂ ?_ hs (by decide) hx ?_
      · rw [hnot]
        exact hnone
      · exact ⟨hfaults.name, hfaults.unrelated, hfaults.freed⟩

end

/-! ## Streams -/

structure ReadFaults (F : Fault → Prop) (proto : IpProto) (answer : Answer) : Prop where
  completes : 0 < answer.reactions.countP Reaction.completes → F .assertion
  frees : (∃ a ∈ answer.reactions, a.frees proto = true) → F .useAfterFree

theorem ReadFaults.getD (h : ∀ a ∈ answers, ReadFaults F proto a) (j : Nat) :
    ReadFaults F proto (answers.getD j {}) := by
  rw [getD_eq_getElem?_getD]
  cases ha : answers[j]? with
  | none => exact ⟨fun hlt => absurd hlt (by decide), fun ⟨a, hmem, _⟩ => by cases hmem⟩
  | some a => exact h a (mem_of_getElem? ha)

section

variable (h : Reached config x v₀ l s) (hc : s.view.conn id = some c)
include h hc

theorem read_spec {k : Unit → Action α} (hp : c.proto = some proto) (hs : c.state.pastRequest = true)
    (hF : 0 < as.countP Reaction.completes → F .assertion) (hk : ∀ s' l', Reached config x v₀ l' s' →
      s'.view.conn id = none ∧ (∃ a ∈ as, a.frees proto = true) ∨ (∃ m, Alive s'.view id proto m) →
      Runs (Reached config x v₀) F (k ()) s' l' P) :
    Runs (Reached config x v₀) F (Act.raise (.read id data) >>= fun _ => Act.forEach (react id) as >>= k) s l P := by
  have hannounced : c.announced = true := by
    rw [Connection.announced, hp, hs]
    rfl
  refine Runs.raise (Runs.bind (reactions_spec (h.event hc (.read data hannounced))
    ⟨c, hc, hp, hs, rfl⟩ fun hlt => hF (by omega)) fun _ s' l' h' hpost => hk s' l' h' hpost)

theorem readStream_spec {budget j : Nat}
    (hp : c.proto = some .tcp) (hs : c.state.pastRequest = true) (hF : ∀ a ∈ env.onRead, ReadFaults F .tcp a) :
    Runs (Reached config x v₀) F (readStream id eof env budget j) s l Anywhere := by
  -- every pass leaves the connection announced, or ends the loop
  induction budget generalizing s l c j with
  | zero => exact drain_zero_spec h hc
  | succ budget ih =>
    have hanswer := ReadFaults.getD hF j
    refine Runs.deref hc ?_
    split
    · refine read_spec h hc hp hs hanswer.completes fun s' l' h' hpost => ?_
      rcases hpost with ⟨hnone, hfrees⟩ | ⟨m, d, hd, hpd, hsd, -⟩
      · have hU := hanswer.frees hfrees
        split
        · exact Runs.of_error_bind (deref_none hnone l') h' hU
        split
        · exact Runs.of_error_bind (deref_none hnone l') h' hU
        · have hgone : drain id (env.onRead.getD j {}).result.toNat s' l' = (.error .useAfterFree, s', l') := by
            rw [drain, update, bind_error (deref_none hnone l')]
          exact Runs.of_error_bind hgone h' hU
      · have hned : d.proto ≠ some .udp := by rw [hpd]; simp
        have hrd := relay_none_of_proto h' hd hpd
        split
        · exact closeAndReport_spec h' hd hned hrd _
        split
        · exact drain_zero_spec h' hd
        have h'' := h'.quiet (f := fun c =>
          { c with unread := c.unread.drop (env.onRead.getD j {}).result.toNat }) hd (.drained hsd _)
        have hd' := conn_setConn hd fun c =>
          { c with unread := c.unread.drop (env.onRead.getD j {}).result.toNat }
        refine Runs.of_ok_bind (update_ok hd _ l') (Runs.deref hd' ?_)
        split
        · split
          · exact closeAndReport_spec h'' hd' hned (relay_none_of_proto h'' hd' hpd) _
          · exact drain_zero_spec h'' hd'
        · exact ih h'' hd' hpd hsd
    · exact drain_zero_spec h hc

/-! ## Events of TCP sockets -/

structure ChunkFaults (config : Config) (F : Fault → Prop) (x : Slips) (c : Connection) (env : Env) :
    Prop where
  auth : c.state = .idle → processAuthRequest config c.unread = .ok .failed → x.refuse
  credentials : c.state = .waitingUsernamePassword →
    processUsernamePassword config c.unread = .ok .failed → x.refuse
  request : c.state = .waitingRequest → RequestFaults F x c env
  read : c.state = .established → ∀ a ∈ env.onRead, ReadFaults F .tcp a

theorem onChunk_spec (hp : c.proto ≠ some .udp) (hr : s.view.relay id = none) (hF : ChunkFaults config F x c env) :
    Runs (Reached config x v₀) F (onChunk config id c eof env) s l Anywhere := by
  have hest : c.state = .established → c.proto = some .tcp := by
    intro hs
    cases hproto : c.proto with
    | none =>
      have hkept := h.inv.keeping id c hc hproto hs
      rw [hr] at hkept
      cases hkept
    | some proto =>
      cases proto with
      | tcp => rfl
      | udp => exact absurd hproto hp
  unfold onChunk
  split
  · rename_i hs
    exact onIdle_spec h hc hs hp (hF.auth hs)
  · rename_i hs
    exact onUsernamePassword_spec h hc hs hp (hF.credentials hs)
  · rename_i hs
    exact onRequest_spec h hc hs hp (hF.request hs)
  · exact closeAndReport_spec h hc hp hr _
  · exact closeAndReport_spec h hc hp hr _
  · rename_i hs
    exact readStream_spec h hc (hest hs) (by rw [hs]; rfl) (hF.read hs)
  · rename_i hs
    exact drain_past_spec h hc (by rw [hs]; rfl) _

end

theorem terminate_anywhere (h : Reached config x v₀ l s) (hr : s.view.relay id = some t) (e : VpnError) :
    Runs (Reached config x v₀) F (terminateUdpAssociation id e) s l Anywhere :=
  Runs.mono (terminateUdpAssociation_spec h hr e) fun _ _ _ _ _ => trivial

section

variable (h : Reached config x v₀ l s) (hc : s.view.conn id = some c)
include h hc

theorem onReadable_spec
    (hp : c.proto ≠ some .udp) (hF : s.view.relay id = none → c.unread ≠ [] → ChunkFaults config F x c env) :
    Runs (Reached config x v₀) F (onReadable config id eof env) s l Anywhere := by
  refine Runs.deref hc (Runs.get ?_)
  rcases association_cases h hc with ⟨ha, t, hr⟩ | ⟨ha, hr⟩
  · split
    · split
      · exact terminate_anywhere h hr _
      · exact Runs.pure h trivial
    · exact terminate_anywhere h hr _
  · rw [ha]
    split
    · split
      · exact closeAndReport_spec h hc hp hr _
      · exact Runs.pure h trivial
    · rename_i hunread
      exact onChunk_spec h hc hp hr (hF hr fun hnil => hunread (by rw [hnil]; rfl))

theorem onSocketError_spec (hp : c.proto ≠ some .udp) (e : VpnError) :
    Runs (Reached config x v₀) F (onSocketError id e) s l Anywhere := by
  refine Runs.deref hc (Runs.get ?_)
  rcases association_cases h hc with ⟨ha, t, hr⟩ | ⟨ha, hr⟩
  · rw [ha]
    exact terminate_anywhere h hr e
  · rw [ha]
    exact closeAndReport_spec h hc hp hr e

theorem announced_of_established (hr : s.view.relay id = none) (hs : c.state = .established) : c.announced = true := by
  rw [Connection.announced, hs, Bool.and_eq_true]
  refine ⟨?_, rfl⟩
  cases hp : c.proto with
  | some proto => rfl
  | none =>
    have := h.inv.keeping id c hc hp hs
    rw [hr] at this
    cases this

theorem onSent_spec (n : Nat) : Runs (Reached config x v₀) F (onSent id n) s l Anywhere := by
  refine Runs.deref hc (Runs.get ?_)
  rcases association_cases h hc with ⟨ha, t, hr⟩ | ⟨ha, hr⟩
  · rw [ha]
    exact Runs.pure h trivial
  rw [ha]
  split_ifs with hs
  · have hs' : c.state = .established := by simpa using hs
    exact Runs.of_ok rfl (h.event hc (.dataSent n (announced_of_established h hc hr hs'))) trivial
  · exact Runs.pure h trivial

theorem reportSent_spec (hp : c.proto = some .udp) : Runs (Reached config x v₀) F (reportSent id) s l fun _ s' =>
      ∃ c', c'.proto = some .udp ∧ s'.view = s.view.set id c' := by
  refine Runs.deref hc ?_
  split_ifs with hs
  · have hannounced : c.announced = true := by
      rw [Connection.announced, hp, hs.1]
      rfl
    have h' := h.event hc (.dataSent c.sentBytesSinceFlush hannounced)
    exact Runs.raise (Runs.of_ok (update_ok hc _ _) (h'.quiet hc (.same rfl))
      ⟨{ c with sentBytesSinceFlush := 0 }, hp, view_setConn hc _⟩)
  · exact Runs.pure h ⟨c, hp, (View.set_eq_self hc).symm⟩

theorem onWriteFlush_spec (hp : c.proto ≠ some .udp) :
    Runs (Reached config x v₀) F (onWriteFlush id) s l Anywhere := by
  refine Runs.deref hc (Runs.get ?_)
  rcases association_cases h hc with ⟨ha, t, hr⟩ | ⟨ha, hr⟩
  · rw [ha, if_pos rfl]
    obtain ⟨u, hu, rfl⟩ := Option.map_eq_some_iff.mp hr
    split
    · refine Runs.of_ok_bind (derefRelay_ok hu l) (Runs.mono (P := fun _ s' =>
        ∀ a ∈ u.connectionsByAddr.values, ∃ d, s'.view.conn a = some d ∧ d.proto = some .udp)
        (Runs.forEach h ?_ ?_) fun _ _ _ _ _ => trivial)
      · intro a hmem
        obtain ⟨k, hk⟩ := Map.mem_values.mp hmem
        obtain ⟨d, hd, hpd, -⟩ := h.inv.listed id _ k a hr hk
        exact ⟨d, hd, hpd⟩
      · intro a hmem s' l' h' hall
        obtain ⟨d, hd, hpd⟩ := hall a hmem
        refine Runs.mono (reportSent_spec h' hd hpd) fun _ s'' _ _ hpost b hb => ?_
        obtain ⟨d', hpd', hview⟩ := hpost
        rw [hview, View.set_conn]
        split
        · exact ⟨d', rfl, hpd'⟩
        · exact hall b hb
    · exact terminate_anywhere h hr _
    · exact Runs.pure h trivial
  · rw [ha, if_neg (by simp)]
    split_ifs with htcp
    · split
      · rename_i hs
        exact Runs.raise (Runs.of_ok (update_ok hc _ _) (h.next hc (.accepted (.inl ⟨htcp, hs⟩))) trivial)
      · exact closeAndReport_spec h hc hp hr _
      · exact Runs.pure h trivial
    · exact Runs.pure h trivial

/-! ## Datagrams -/

theorem handleUdpRead_spec (hp : c.proto = some .udp) (hF : 0 < as.countP Reaction.completes → F .assertion) :
    Runs (Reached config x v₀) F (handleUdpRead id data as) s l Anywhere := by
  refine Runs.deref hc ?_
  rcases ((h.inv.proper id c hc).udp hp).1 with hs | hs
  · simp only [hs]
    exact Runs.of_ok (update_ok hc _ l) (h.quiet hc (.same rfl)) trivial
  have hannounced : c.announced = true := by
    rw [Connection.announced, hp, hs]
    rfl
  simp only [hs]
  split
  · refine Runs.raise (Runs.mono (reactions_spec (h.event hc (.read data hannounced))
      ⟨c, hc, hp, by rw [hs]; rfl, rfl⟩ fun hlt => hF (by omega)) fun _ _ _ _ _ => trivial)
  · exact Runs.pure h trivial

end

def udpConnection (r : ConnId) (key : AddressPair) (appName : Bytes) : Connection :=
  { proto := some .udp, addr := key, relay := r, appName := appName }

theorem findUdpConnection_new {key : AddressPair} (appName : Bytes) (h : s.view.Inv)
    (hr : s.view.relay r = some t) (hk : t key = none) (l : List Out) :
    ∃ s', findUdpConnection r key appName s l = (.ok s.nextId, s', l ++ [.createdUdp s.nextId r]) ∧
      s'.view = ((s.view.set s.nextId (udpConnection r key appName)).setRelay r
        (Function.update t key (some s.nextId))).advance := by
  obtain ⟨u, hu, hut⟩ := Option.map_eq_some_iff.mp hr
  have hku : u.connectionsByAddr.lookup key = none := by
    rw [← hut] at hk
    exact hk
  let s₁ : Socks5Listener := { s with nextId := s.nextId + 1 }
  let s₂ := s₁.setRelay r fun u => { u with connectionsByAddr := u.connectionsByAddr.insert key s.nextId }
  let s₃ : Socks5Listener :=
    { s₂ with connections := s₂.connections.insert s.nextId (udpConnection r key appName) }
  have hr₁ : s₁.view.relay r = some t := hr
  have hfree : (s₂.connections.lookup s.nextId).isSome = false := by
    have hnone : s.connections.lookup s.nextId = none := h.conn_nextId
    show (s.connections.lookup s.nextId).isSome = false
    rw [hnone]
    rfl
  refine ⟨s₃, ?_, ?_⟩
  · rw [findUdpConnection, bind_ok (derefRelay_ok hu l)]
    simp only [hku]
    show (if (s₂.connections.lookup s.nextId).isSome = true then Act.fail .assertion else _ : Action
      ConnId) s₂ l = _
    rw [hfree]
    rfl
  · rw [view_insertConn, view_insertEntry hr₁]
    rfl

section

variable (h : Reached config x v₀ l s)
include h

theorem openUdp_spec {key : AddressPair} {appName : Bytes}
    (hr : s.view.relay r = some t) (hk : t key = none) (hip : key.dst.IsIp)
    (hF : 1 < as.countP Reaction.completes → F .assertion) : Runs (Reached config x v₀) F (do
        let id ← findUdpConnection r key appName
        handleUdpRead id data as) s l Anywhere := by
  obtain ⟨s', hrun, hview⟩ := findUdpConnection_new appName h.inv hr hk l
  have hc : s'.view.conn s.nextId = some (udpConnection r key appName) := by
    rw [hview]
    simp
  have hc' := conn_setConn hc fun c => { c with
    state := .waitingConnectResult
    pendingUdpPackets := c.pendingUdpPackets ++ [data] }
  have hview' : (s'.setConn s.nextId fun c => { c with
      state := .waitingConnectResult
      pendingUdpPackets := c.pendingUdpPackets ++ [data] }).view =
      ((s.view.set s.nextId { udpConnection r key appName with
        state := .waitingConnectResult
        pendingUdpPackets := [] ++ [data] }).setRelay r (Function.update t key (some s.nextId))).advance := by
    rw [view_setConn hc, hview]
    exact congrArg (fun v : View => (v.setRelay r (Function.update t key (some s.nextId))).advance)
      (View.set_set s.view s.nextId (udpConnection r key appName) _)
  refine Runs.of_ok_bind hrun ?_
  refine Runs.deref hc (Runs.update hc (Runs.mono (raiseConnectRequest_spec hc' ?_ rfl rfl hF)
    fun _ _ _ _ _ => trivial))
  rw [append_assoc]
  exact h.move (.openedUdp hr hk rfl rfl rfl hip) hview'

theorem onDatagram_spec {src : SocketAddress} (hr : s.view.relay r = some t)
    (hF : ∀ dst appName size, processUdpHeader data = .ok (.packet dst appName size) →
      (if (t ⟨src, dst⟩).isSome then 0 else 1) < as.countP Reaction.completes → F .assertion) :
    Runs (Reached config x v₀) F (onDatagram r src data as) s l Anywhere := by
  obtain ⟨verdict, hverdict, hip⟩ := processUdpHeader_spec data
  refine Runs.of_ok_bind (access_ok hverdict s l) ?_
  cases verdict with
  | ignored result => exact Runs.pure h trivial
  | packet dst appName size =>
    have hF' := hF dst appName size hverdict
    cases hk : t ⟨src, dst⟩ with
    | none =>
      rw [hk] at hF'
      exact openUdp_spec h hr hk (hip dst appName size rfl) hF'
    | some id =>
      rw [hk] at hF'
      obtain ⟨u, hu, rfl⟩ := Option.map_eq_some_iff.mp hr
      obtain ⟨d, hd, hpd, -⟩ := h.inv.listed r _ _ id hr hk
      have hfind : findUdpConnection r ⟨src, dst⟩ appName s l = (.ok id, s, l) := by
        have hku : u.connectionsByAddr.lookup ⟨src, dst⟩ = some id := hk
        rw [findUdpConnection, bind_ok (derefRelay_ok hu l)]
        simp only [hku]
        rfl
      exact Runs.of_ok_bind hfind (handleUdpRead_spec h hd hpd hF')

/-! ## Waiting packets -/

/-- What can go wrong while the packets of a connection are handed over: data is raised for a
connection that is gone, or the connection is used then. -/
structure PacketFaults (F : Fault → Prop) (x : Slips) (answers : List Answer) : Prop where
  completes : ∀ a ∈ answers, 0 < a.reactions.countP Reaction.completes → F .assertion
  stale : (∃ a ∈ answers, ∃ b ∈ a.reactions, b.frees .udp = true) → x.stale
  freed : (∃ a ∈ answers, ∃ b ∈ a.reactions, b.frees .udp = true) → (∃ a ∈ answers, a.result < 0) →
    F .useAfterFree

theorem sendPackets_gone {packets : List Bytes} (hc : s.view.conn id = none)
    (hx : x.stale) (hU : (∃ a ∈ answers, a.result < 0) → F .useAfterFree) :
    Runs (Reached config x v₀) F (sendPackets id packets answers) s l Anywhere := by
  induction packets generalizing s l answers with
  | nil => exact Runs.pure h trivial
  | cons packet rest ih =>
    refine Runs.raise (Runs.bind (reactions_gone (h.move (.stale packet hx hc) rfl) hc _) fun _ s' l' h' hc' => ?_)
    split_ifs with hneg
    · refine Runs.of_error_bind (deref_none hc' l') h' (hU ?_)
      cases answers with
      | nil => exact absurd hneg (by decide)
      | cons a as => exact ⟨a, by simp, hneg⟩
    · exact ih h' hc' fun ⟨a, ha, hneg⟩ => hU ⟨a, mem_of_mem_tail ha, hneg⟩

theorem sendPackets_spec {packets : List Bytes} (hc : s.view.conn id = some c)
    (hp : c.proto = some .udp) (hs : c.state.pastRequest = true) (hF : PacketFaults F x answers) :
    Runs (Reached config x v₀) F (sendPackets id packets answers) s l Anywhere := by
  induction packets generalizing s l c answers with
  | nil => exact Runs.pure h trivial
  | cons packet rest ih =>
    have htail : PacketFaults F x answers.tail :=
      ⟨fun a ha => hF.completes a (mem_of_mem_tail ha),
        fun ⟨a, ha, hb⟩ => hF.stale ⟨a, mem_of_mem_tail ha, hb⟩, fun ⟨a, ha, hb⟩ ⟨a', ha', hneg⟩ =>
          hF.freed ⟨a, mem_of_mem_tail ha, hb⟩ ⟨a', mem_of_mem_tail ha', hneg⟩⟩
    have hcompletes : 0 < (answers.headD {}).reactions.countP Reaction.completes → F .assertion := by
      cases answers with
      | nil => exact fun hlt => absurd hlt (by decide)
      | cons a as => exact hF.completes a (by simp)
    have hneg : (answers.headD {}).result < 0 → ∃ a ∈ answers, a.result < 0 := by
      cases answers with
      | nil => exact fun hlt => absurd hlt (by decide)
      | cons a as => exact fun hlt => ⟨a, by simp, hlt⟩
    have hfrees : (∃ b ∈ (answers.headD {}).reactions, b.frees .udp = true) →
        ∃ a ∈ answers, ∃ b ∈ a.reactions, b.frees .udp = true := by
      cases answers with
      | nil => exact fun ⟨b, hb, _⟩ => by cases hb
      | cons a as => exact fun hb => ⟨a, by simp, hb⟩
    refine read_spec h hc hp hs hcompletes fun s' l' h' hpost => ?_
    rcases hpost with ⟨hnone, hb⟩ | ⟨m, d, hd, hpd, hsd, -⟩
    · have hfreed := hfrees hb
      split_ifs with hlt
      · exact Runs.of_error_bind (deref_none hnone l') h' (hF.freed hfreed (hneg hlt))
      · refine sendPackets_gone h' hnone (hF.stale hfreed) fun ⟨a, ha, hlt⟩ => ?_
        exact hF.freed hfreed ⟨a, mem_of_mem_tail ha, hlt⟩
    · split
      · obtain ⟨s'', hrun, hreached, -, -⟩ := h'.closeUdp hd hpd ⟨.other (-1), "Read handler failed"⟩
        exact Runs.deref hd (Runs.raise (Runs.of_ok hrun hreached trivial))
      · exact ih h' hd hpd hsd htail

theorem sendPendingOf_spec {answers : ConnId → List Answer}
    (hudp : ∀ c, s.view.conn id = some c → c.proto = some .udp) (hF : PacketFaults F x (answers id)) :
    Runs (Reached config x v₀) F (sendPendingOf answers id) s l Anywhere := by
  refine Runs.get ?_
  cases hc : s.view.conn id with
  | none =>
    simp only [lookup_of_none hc]
    exact Runs.pure h trivial
  | some c =>
    have hp := hudp c hc
    have hs : c.state.pastRequest = true := by
      rcases ((h.inv.proper id c hc).udp hp).1 with hs | hs <;> rw [hs] <;> rfl
    simp only [lookup_of_conn hc]
    have h' := h.quiet (f := fun c => { c with pendingUdpPackets := [] }) hc (.same rfl)
    exact Runs.update hc (sendPackets_spec h' (conn_setConn hc _) hp hs hF)

end

theorem Reached.start (hi : s.view.Inv) : Reached config x s.view [] s := ⟨.refl, hi⟩

theorem sendPendingUdpData_spec {answers : ConnId → List Answer} (hi : s.view.Inv)
    (hF : ∀ id ∈ s.connsWithPendingUdp, PacketFaults F x (answers id)) :
    Runs (Reached config x s.view) F (sendPendingUdpData answers) s [] Anywhere := by
  have h : Reached config x s.view [] { s with asyncTask := false, connsWithPendingUdp := [] } :=
    (Reached.start hi).move .dequeued rfl
  refine Runs.get (Runs.modify (Runs.forEach h trivial ?_))
  intro id hid s' l' h' _
  obtain ⟨hlt, hq⟩ := hi.queued id hid
  exact sendPendingOf_spec h' (fun c hc => h'.path.udp_of_old hi hlt hq hc) (hF id hid)

/-! ## The other calls -/

section

variable (h : Reached config x v₀ l s)
include h

theorem onAccept_spec (acquired : Bool) : Runs (Reached config x v₀) F (onAccept acquired) s l Anywhere := by
  cases acquired with
  | true =>
    refine Runs.of_ok rfl (h.move .opened ?_) trivial
    exact view_insertConn { s with nextId := s.nextId + 1 } s.nextId { readEnabled := true }
  | false =>
    refine Runs.of_ok rfl ?_ trivial
    rw [append_assoc]
    exact h.move .abandoned rfl

theorem onReceived_spec (hc : s.view.conn id = some c) (hp : c.proto ≠ some .udp) (data : Bytes) :
    Runs (Reached config x v₀) F (onReceived id data) s l Anywhere := by
  exact Runs.update hc (Runs.of_ok rfl (h.next hc (.received data hp)) trivial)

theorem sendData_spec (hc : s.view.conn id = some c) (hp : c.proto = some proto)
    (hF : c.state ≠ .established → F .assertion) (data : Bytes) (env : SendEnv) :
    Runs (Reached config x v₀) F (sendData id data env) s l Anywhere := by
  refine Runs.get ?_
  simp only [lookup_of_conn hc]
  split
  · cases proto with
    | tcp =>
      rw [if_pos hp]
      exact Runs.raise (Runs.of_ok rfl ((h.silent rfl).silent rfl) trivial)
    | udp =>
      rw [if_neg (by rw [hp]; simp)]
      obtain ⟨ip, hdst, hip⟩ := ((h.inv.proper id c hc).udp hp).2
      obtain ⟨reply, hreply⟩ := udpReply_ok hip data
      obtain ⟨t, hr, -⟩ := h.inv.owned id c hc hp
      obtain ⟨u, hu, -⟩ := Option.map_eq_some_iff.mp hr
      simp only [hdst]
      refine Runs.of_ok_bind (access_ok hreply s l) (Runs.of_ok_bind (derefRelay_ok hu l) (Runs.raise ?_))
      have h' := h.silent (o := .sendTo c.addr.src reply) rfl
      split
      · have h'' := h'.quiet (f := fun c =>
          { c with sentBytesSinceFlush := c.sentBytesSinceFlush + data.length }) hc
          (.same rfl)
        exact Runs.update hc (Runs.of_ok rfl (h''.silent rfl) trivial)
      · exact Runs.of_ok rfl (h'.silent rfl) trivial
  · rename_i hs
    exact Runs.fail h (hF hs)

/-! ## Stopping -/

theorem terminateAll_spec {rs : List ConnId} (hnodup : rs.Nodup) (hall : ∀ r ∈ rs, (s.view.relay r).isSome = true)
    (honly : ∀ r, (s.view.relay r).isSome = true → r ∈ rs) :
    Runs (Reached config x v₀) F (Act.forEach (fun r => terminateUdpAssociation r noError) rs) s l
      fun _ s' => (∀ r, s'.view.relay r = none) ∧ ∀ j d, s'.view.conn j = some d → s.view.conn j = some d := by
  induction rs generalizing s l with
  | nil =>
    refine Runs.pure h ⟨fun r => ?_, fun _ _ hd => hd⟩
    cases hr : s.view.relay r with
    | none => rfl
    | some t => exact absurd (honly r (by rw [hr]; rfl)) (by simp)
  | cons r rs ih =>
    obtain ⟨hnot, hnodup⟩ := nodup_cons.mp hnodup
    obtain ⟨t, hr⟩ := Option.isSome_iff_exists.mp (hall r (by simp))
    refine Runs.bind (terminateUdpAssociation_spec h hr noError) fun _ s' l' h' hpost => ?_
    obtain ⟨-, hgone, hsame, hconns⟩ := hpost
    refine Runs.mono (ih h' hnodup ?_ ?_) fun _ s'' _ _ hp =>
      ⟨hp.1, fun j d hd => hconns j d (hp.2 j d hd)⟩
    · intro r' hr'
      rw [hsame r' fun heq => hnot (heq ▸ hr')]
      exact hall r' (by simp [hr'])
    intro r' hr'
    have hne : r' ≠ r := by
      intro heq
      rw [heq, hgone] at hr'
      cases hr'
    rw [hsame r' hne] at hr'
    exact (mem_cons.mp (honly r' hr')).resolve_left hne

theorem destroyAll_spec {ids : List ConnId} {slot : ConnId → ConnId}
    (hnodup : ids.Nodup) (hrelays : ∀ r, s.view.relay r = none)
    (hall : ∀ id ∈ ids, ∃ c, s.view.conn id = some c) (honly : ∀ id c, s.view.conn id = some c → id ∈ ids)
    (hx : ∀ id c, s.view.conn id = some c → x.sweep ∨ c.state.pastRequest = true ∧ slot id = id) :
    Runs (Reached config x v₀) F (Act.forEach (fun id => do
        destroyConnection id
        Act.raise (.connectionClosed (slot id) noError)) ids) s l
      fun _ s' => (∀ r, s'.view.relay r = none) ∧ ∀ id, s'.view.conn id = none := by
  induction ids generalizing s l with
  | nil =>
    refine Runs.pure h ⟨hrelays, fun id => ?_⟩
    cases hc : s.view.conn id with
    | none => rfl
    | some c => exact absurd (honly id c hc) (by simp)
  | cons id ids ih =>
    obtain ⟨hnot, hnodup⟩ := nodup_cons.mp hnodup
    obtain ⟨c, hc⟩ := hall id (by simp)
    have hp : c.proto ≠ some .udp := by
      intro hp
      obtain ⟨t, hr, -⟩ := h.inv.owned id c hc hp
      rw [hrelays] at hr
      cases hr
    have hend := h.move (.swept noError hc hp (hrelays id) (hx id c hc)) (view_eraseConn s id)
    have hbody : (do
        destroyConnection id
        Act.raise (.connectionClosed (slot id) noError)) s l =
        (.ok (), s.eraseConn id, l ++ [.freed id] ++ [.connectionClosed (slot id) noError]) := by
      rw [bind_ok (destroyConnection_ok hc hp l)]
      rfl
    refine Runs.of_ok_bind hbody ?_
    rw [append_assoc]
    have hstays : ∀ {j d}, (s.eraseConn id).view.conn j = some d → j ≠ id ∧ s.view.conn j = some d := by
      intro j d hd
      rw [view_eraseConn] at hd
      exact View.of_erase hd
    refine ih hend hnodup (fun r => hrelays r) ?_ ?_ fun j d hd => hx j d (hstays hd).2
    · intro j hj
      obtain ⟨d, hd⟩ := hall j (by simp [hj])
      exact ⟨d, view_eraseConn s id ▸ View.erase_other (fun heq : j = id => hnot (heq ▸ hj)) hd⟩
    · intro j d hd
      obtain ⟨hne, hd⟩ := hstays hd
      exact (mem_cons.mp (honly j d hd)).resolve_left hne

theorem stop_spec {slot : ConnId → ConnId}
    (hx : ∀ id c, s.view.conn id = some c → c.proto ≠ some .udp → s.view.relay id = none →
      x.sweep ∨ c.state.pastRequest = true ∧ slot id = id) :
    Runs (Reached config x v₀) F (stop slot) s l fun _ s' =>
      (∀ r, s'.view.relay r = none) ∧ ∀ id, s'.view.conn id = none := by
  refine Runs.modify ?_
  have h' : Reached config x v₀ l { s with asyncTask := false } := h.congr rfl
  refine Runs.bind (P := fun _ s' => (∀ r, s'.view.relay r = none) ∧
    ∀ j d, s'.view.conn j = some d → s.view.conn j = some d) ?_ fun _ s' l' h' hpost => ?_
  · refine Runs.get (terminateAll_spec h' (AList.keys_nodup _) ?_ ?_)
    · intro r hr
      rw [← AList.mem_keys, ← AList.lookup_isSome] at hr
      show ((s.udpRelays.lookup r).map _).isSome = true
      rw [Option.isSome_map]
      exact hr
    · intro r hr
      have hr' : ((s.udpRelays.lookup r).map _).isSome = true := hr
      rw [Option.isSome_map, AList.lookup_isSome] at hr'
      exact hr'
  · obtain ⟨hrelays, hconns⟩ := hpost
    refine Runs.get (destroyAll_spec h' (AList.keys_nodup _) hrelays ?_ ?_ ?_)
    · intro id hid
      rw [← AList.mem_keys, ← AList.lookup_isSome] at hid
      exact Option.isSome_iff_exists.mp hid
    · intro id c hc
      rw [← AList.mem_keys, ← AList.lookup_isSome]
      exact Option.isSome_iff_exists.mpr ⟨c, hc⟩
    intro id c hc
    refine hx id c (hconns id c hc) ?_ ?_
    · intro hp
      obtain ⟨t, hr, -⟩ := h'.inv.owned id c hc hp
      rw [hrelays] at hr
      cases hr
    · refine h.inv.relay_eq_none (hconns id c hc) fun hboth => ?_
      have hkept := h'.inv.keeping id c hc hboth.1 hboth.2
      rw [hrelays] at hkept
      cases hkept

end

end Specs

end TrustTunnel.Socks5
