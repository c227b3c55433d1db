import TrustTunnel.Socks5.Lifetime

/-!
# Socks5.Closing

What the owner is told about a connection, from its announcement to its end. In runs without slips
(`Orderly` of every output): a connection is announced before it is reported as closed, nothing is
reported for it afterwards, and after a stop every connection that was announced has been reported as
closed, once and under its own identifier.

`Told` is the invariant: a connection that is there was not reported as closed, and it was announced
exactly if its state says so.
-/

namespace TrustTunnel.Socks5

open Lib Lib.Act List

def Out.eventOf : Out → Option ConnId
  | .connectRequest id _ _ _ _ => some id
  | .connectionAccepted id => some id
  | .read id _ => some id
  | .dataSent id _ => some id
  | .connectionClosed id _ => some id
  | _ => none

variable (id : ConnId)

def Out.announces : Out → Bool
  | .connectRequest i _ _ _ _ => i == id
  | _ => false

def Out.closes : Out → Bool
  | .connectionClosed i _ => i == id
  | _ => false

def announced (l : List Out) : Bool := l.any (Out.announces id)

def closed (l : List Out) : Bool := l.any (Out.closes id)

/-- Nothing follows a closed event of the same connection, which itself follows an announcement. -/
def Orderly (pre : List Out) (o : Out) : Prop :=
  ∀ id, o.eventOf = some id → closed id pre = false ∧ (o.closes id = true → announced id pre = true)

theorem announced_append (l outs : List Out) :
    announced id (l ++ outs) = (announced id l || announced id outs) := any_append

theorem closed_append (l outs : List Out) : closed id (l ++ outs) = (closed id l || closed id outs) := any_append

theorem orderly_of_none {o : Out} (h : o.eventOf = none) (pre : List Out) : Orderly pre o := by
  intro id hid
  rw [h] at hid
  cases hid

structure Told (l : List Out) (v : View) : Prop where
  each : Each Orderly l
  live : ∀ id c, v.conn id = some c → closed id l = false
  told : ∀ id c, v.conn id = some c → announced id l = c.announced
  related : ∀ id c, v.conn id = some c → c.state.pastRequest = true → c.proto = none → c.state = .established
  kept : ∀ id, announced id l = true → closed id l = true ∨ (v.conn id).isSome = true
  fresh : ∀ id, v.nextId ≤ id → announced id l = false ∧ closed id l = false

def Slips.none : Slips := ⟨False, False, False⟩

section Moves

variable {config : Config} {l outs : List Out} {v v' : View} {id : ConnId} {c c' : Connection}

theorem Told.announced_of_past (h : Told l v) (hi : v.Inv) (hc : v.conn id = some c)
    (hs : c.state.pastRequest = true) (hr : v.relay id = none) : announced id l = true := by
  rw [h.told id c hc, Connection.announced, hs]
  cases hp : c.proto with
  | some proto => rfl
  | none =>
    have hkept := hi.keeping id c hc hp (h.related id c hc hs hp)
    rw [hr] at hkept
    cases hkept

structure Plain (outs : List Out) : Prop where
  announced : ∀ id, announced id outs = false
  closed : ∀ id, closed id outs = false

theorem Told.shrink (h : Told l v) (heach : Each Orderly (l ++ outs)) (hplain : Plain outs)
    (hid : v.nextId ≤ v'.nextId)
    (hold : ∀ id c', v'.conn id = some c' → ∃ c, v.conn id = some c ∧ c'.announced = c.announced ∧
      (c'.state.pastRequest = true → c'.proto = .none → c'.state = .established))
    (hgone : ∀ id c, v.conn id = some c → c.announced = true → (v'.conn id).isSome = true) :
    Told (l ++ outs) v' := by
  have ha : ∀ id, announced id (l ++ outs) = announced id l := fun id => by
    rw [announced_append, hplain.announced, Bool.or_false]
  have hcl : ∀ id, closed id (l ++ outs) = closed id l := fun id => by
    rw [closed_append, hplain.closed, Bool.or_false]
  constructor
  case each => exact heach
  case live =>
    intro id c' hc'
    obtain ⟨c, hc, -⟩ := hold id c' hc'
    rw [hcl]
    exact h.live id c hc
  case told =>
    intro id c' hc'
    obtain ⟨c, hc, hsame, -⟩ := hold id c' hc'
    rw [ha, hsame]
    exact h.told id c hc
  case related =>
    intro id c' hc'
    obtain ⟨c, -, -, hrelated⟩ := hold id c' hc'
    exact hrelated
  case kept =>
    intro id hann
    rw [ha] at hann
    rw [hcl]
    rcases h.kept id hann with hclosed | hsome
    · exact .inl hclosed
    · obtain ⟨c, hc⟩ := Option.isSome_iff_exists.mp hsome
      exact .inr (hgone id c hc ((h.told id c hc).symm.trans hann))
  case fresh =>
    intro id hlt
    rw [ha, hcl]
    exact h.fresh id (Nat.le_trans hid hlt)

theorem Told.close (h : Told l v) (hlt : id < v.nextId) (heach : Each Orderly (l ++ outs)) (hnone : ∀ j,
    announced j outs = false)
    (hclosed : ∀ j, closed j outs = (id == j)) (hid : v'.nextId = v.nextId)
    (hconn : v'.conn = (v.erase id).conn) : Told (l ++ outs) v' := by
  have ha : ∀ j, announced j (l ++ outs) = announced j l := fun j => by
    rw [announced_append, hnone, Bool.or_false]
  have hcl : ∀ j, closed j (l ++ outs) = (closed j l || id == j) := fun j => by
    rw [closed_append, hclosed]
  have hstays : ∀ {j d}, v'.conn j = some d → j ≠ id ∧ v.conn j = some d := by
    intro j d hd
    rw [hconn, View.erase_conn] at hd
    split at hd
    · cases hd
    · rename_i hne
      exact ⟨hne, hd⟩
  constructor
  case each => exact heach
  case live =>
    intro j d hd
    obtain ⟨hne, hd⟩ := hstays hd
    rw [hcl, h.live j d hd]
    exact beq_false_of_ne (Ne.symm hne)
  case told =>
    intro j d hd
    rw [ha]
    exact h.told j d (hstays hd).2
  case related => exact fun j d hd => h.related j d (hstays hd).2
  case kept =>
    intro j hj
    rw [ha] at hj
    rw [hcl, hconn, View.erase_conn]
    by_cases heq : j = id
    · exact .inl (by rw [heq, beq_self_eq_true, Bool.or_true])
    · rw [if_neg heq]
      exact (h.kept j hj).imp (fun hclosed => by rw [hclosed]; rfl) fun hsome => hsome
  case fresh =>
    intro j hj
    rw [hid] at hj
    have hne : id ≠ j := fun heq => absurd hlt (heq ▸ Nat.not_lt.mpr hj)
    rw [ha, hcl, (h.fresh j hj).2, beq_false_of_ne hne]
    exact ⟨(h.fresh j hj).1, rfl⟩

theorem each_orderly (h : Each Orderly l) (hl : closed id l = false)
    (hevents : ∀ o ∈ outs, ∀ j, o.eventOf = some j → j = id)
    (hplain : Plain outs) : Each Orderly (l ++ outs) := by
  induction outs generalizing l with
  | nil => rwa [append_nil]
  | cons o outs ih =>
    have hfirst : ∀ j, o.closes j = false ∧ closed j outs = false := fun j =>
      Bool.or_eq_false_iff.mp (hplain.closed j)
    have hsecond : ∀ j, o.announces j = false ∧ announced j outs = false := fun j =>
      Bool.or_eq_false_iff.mp (hplain.announced j)
    rw [append_cons]
    refine ih (h.snoc fun j hj => ?_) ?_ (fun o' ho' => hevents o' (by simp [ho']))
      ⟨fun j => (hsecond j).2, fun j => (hfirst j).2⟩
    · rw [hevents o (by simp) j hj]
      refine ⟨hl, fun hcloses => ?_⟩
      rw [(hfirst id).1] at hcloses
      cases hcloses
    · rw [closed_append, hl]
      simp [closed, (hfirst id).1]

theorem announced_early (h : c.state.pastRequest = false) : c.announced = false := by
  rw [Connection.announced, h, Bool.and_false]

theorem announced_past (h : c.state.pastRequest = true) : c.announced = c.proto.isSome := by
  rw [Connection.announced, h, Bool.and_true]

attribute [local simp] Out.eventOf

theorem Next.frame (hn : Next config .none id c outs c')
    (hrel : c.state.pastRequest = true → c.proto = none → c.state = .established) :
    (∃ src dst appName, outs = [.connectRequest id (some .tcp) src dst appName] ∧
        c'.proto = some .tcp ∧ c'.state.pastRequest = true) ∨
      Plain outs ∧ (∀ o ∈ outs, ∀ j, o.eventOf = some j → j = id) ∧ c'.announced = c.announced ∧
        (c'.state.pastRequest = true → c'.proto = none → c'.state = .established) := by
  have hnil : Plain [] := ⟨fun _ => rfl, fun _ => rfl⟩
  have hnever : ∀ o ∈ ([] : List Out), ∀ j, o.eventOf = some j → j = id := by simp
  cases hn with
  | received data hp | read data ha | dataSent n ha =>
    exact .inr ⟨⟨fun _ => rfl, fun _ => rfl⟩, by simp, rfl, hrel⟩
  | greeted hs hu hst =>
    refine .inr ⟨hnil, hnever, ?_, ?_⟩
    · rw [announced_early (c := c) (by rw [hs]; rfl)]
      rcases hst with rfl | ⟨rfl, -⟩ <;> exact announced_early rfl
    · rcases hst with rfl | ⟨rfl, -⟩ <;> exact fun h => by cases h
  | matched hs hu =>
    refine .inr ⟨hnil, hnever, ?_, fun h => by cases h⟩
    rw [announced_early (c := c) (by rw [hs]; rfl)]
    exact announced_early rfl
  | asked hs hu =>
    have hpast : c.state.pastRequest = false := by rw [hs]; rfl
    refine .inr ⟨hnil, hnever, ?_, fun _ h => by cases h⟩
    rw [announced_early hpast]
    exact announced_early hpast
  | refused hx hp hs hp' hs' => exact absurd hx not_false
  | requested hs hp' hs' hdst => exact .inl ⟨_, _, _, rfl, hp', by rw [hs']; rfl⟩
  | succeeded hp hs | failed hp hs =>
    refine .inr ⟨hnil, hnever, ?_, fun _ h => ?_⟩
    · rw [announced_past (c := c) (by rw [hs]; rfl)]
      exact announced_past rfl
    · cases hp.symm.trans h
  | accepted hs =>
    refine .inr ⟨⟨fun _ => rfl, fun _ => rfl⟩, by simp, ?_, fun _ _ => rfl⟩
    have hpast : c.state.pastRequest = true := by rcases hs with ⟨-, hs⟩ | ⟨-, hs⟩ <;> rw [hs] <;> rfl
    rw [announced_past hpast]
    exact announced_past rfl
  | quiet hs hp ha hr hu =>
    refine .inr ⟨hnil, hnever, ?_, ?_⟩
    · rw [Connection.announced, Connection.announced, hs, hp]
    · rw [hs, hp]
      exact hrel

attribute [local simp] Out.closes

theorem Told.announce {p : Option IpProto} {src : SocketAddress} {dst : ConnectionAddress} {appName : Bytes}
    (pre : List Out) (h : Told l v) (hpre : ∀ o ∈ pre, o.eventOf = none) (hplain : Plain pre)
    (hopen : closed id l = false) (hid : v.nextId ≤ v'.nextId) (hlt : id < v'.nextId)
    (hp : c'.proto ≠ none) (hs : c'.state.pastRequest = true)
    (hconn : ∀ j, v'.conn j = if j = id then some c' else v.conn j) :
    Told (l ++ (pre ++ [.connectRequest id p src dst appName])) v' := by
  have ha : ∀ j, announced j (l ++ (pre ++ [.connectRequest id p src dst appName])) =
      (announced j l || id == j) := fun j => by
    rw [announced_append, announced_append, hplain.announced]
    simp [announced, Out.announces]
  have hcl : ∀ j, closed j (l ++ (pre ++ [.connectRequest id p src dst appName])) = closed j l := fun j => by
    rw [closed_append, closed_append, hplain.closed]
    simp [closed]
  have hc' : c'.announced = true := by
    rw [Connection.announced, hs, Bool.and_true]
    exact Option.isSome_iff_ne_none.mpr hp
  constructor
  case each =>
    rw [← append_assoc]
    refine (h.each.append fun o ho pre => orderly_of_none (hpre o ho) pre).snoc fun j hj => ?_
    cases hj
    refine ⟨?_, fun hcloses => by cases hcloses⟩
    rw [closed_append, hplain.closed, hopen]
    rfl
  case live =>
    intro j d hd
    rw [hcl]
    rw [hconn] at hd
    split_ifs at hd with heq
    · rw [heq]
      exact hopen
    · exact h.live j d hd
  case told =>
    intro j d hd
    rw [hconn] at hd
    rw [ha]
    split_ifs at hd with heq
    · cases hd
      rw [heq, hc', beq_self_eq_true, Bool.or_true]
    · rw [h.told j d hd, beq_false_of_ne (Ne.symm heq), Bool.or_false]
  case related =>
    intro j d hd
    rw [hconn] at hd
    split at hd
    · cases hd
      exact fun _ hnone => absurd hnone hp
    · exact h.related j d hd
  case kept =>
    intro j hj
    rw [hcl, hconn]
    by_cases heq : j = id
    · rw [if_pos heq]
      exact .inr rfl
    · rw [ha, beq_false_of_ne (Ne.symm heq), Bool.or_false] at hj
      rw [if_neg heq]
      exact h.kept j hj
  case fresh =>
    intro j hj
    have hne : id ≠ j := fun heq => absurd hlt (heq ▸ Nat.not_lt.mpr hj)
    rw [ha, hcl, beq_false_of_ne hne, Bool.or_false]
    exact h.fresh j (Nat.le_trans hid hj)

theorem Told.next (h : Told l v) (hi : v.Inv) (hc : v.conn id = some c)
    (hn : Next config .none id c outs c') : Told (l ++ outs) (v.set id c') := by
  rcases hn.frame (h.related id c hc) with ⟨src, dst, appName, rfl, hp, hs⟩ | ⟨hplain, hevents, hsame, hrel⟩
  · exact h.announce [] (by simp) ⟨fun _ => rfl, fun _ => rfl⟩ (h.live id c hc) (Nat.le_refl _)
      (hi.fresh id c hc) (by rw [hp]; simp) hs fun j => View.set_conn ..
  refine h.shrink (each_orderly h.each (h.live id c hc) hevents hplain) hplain (Nat.le_refl _)
    (fun j d hd => ?_) fun j d hd _ => ?_
  · rw [View.set_conn] at hd
    split_ifs at hd with heq
    · cases hd
      exact ⟨c, heq ▸ hc, hsame, hrel⟩
    · exact ⟨d, hd, rfl, h.related j d hd⟩
  · rw [View.set_conn]
    split
    · rfl
    · rw [hd]
      rfl

theorem Told.same (h : Told l v) (hnone : ∀ o ∈ outs, o.eventOf = none) (hplain : Plain outs)
    (hid : v.nextId ≤ v'.nextId) (hconn : v'.conn = v.conn) : Told (l ++ outs) v' := by
  refine h.shrink (h.each.append fun o ho pre => orderly_of_none (hnone o ho) pre) hplain hid
    (fun j d hd => ?_) fun j d hd _ => ?_
  · rw [hconn] at hd
    exact ⟨d, hd, rfl, h.related j d hd⟩
  · rw [hconn, hd]
    rfl

theorem Told.drop (h : Told l v) (hnone : ∀ o ∈ outs, o.eventOf = none) (hplain : Plain outs)
    (hid : v'.nextId = v.nextId) (hc : v.conn id = some c) (hann : c.announced = false)
    (hconn : v'.conn = (v.erase id).conn) : Told (l ++ outs) v' := by
  refine h.shrink (h.each.append fun o ho pre => orderly_of_none (hnone o ho) pre) hplain
    (Nat.le_of_eq hid.symm) (fun j d hd => ?_) fun j d hd hd' => ?_
  · rw [hconn] at hd
    have hd := (View.of_erase hd).2
    exact ⟨d, hd, rfl, h.related j d hd⟩
  rw [hconn, View.erase_conn]
  split_ifs with heq
  · rw [heq, hc] at hd
    cases hd
    rw [hann] at hd'
    cases hd'
  · rw [hd]
    rfl

attribute [local simp] Orderly

theorem Told.open (h : Told l v) :
    Told (l ++ [.created v.nextId]) (v.set v.nextId { readEnabled := true }).advance := by
  have ha : ∀ j, announced j (l ++ [.created v.nextId]) = announced j l := fun j => by
    rw [announced_append]
    exact Bool.or_false _
  have hcl : ∀ j, closed j (l ++ [.created v.nextId]) = closed j l := fun j => by
    rw [closed_append]
    exact Bool.or_false _
  have hcases : ∀ {j d}, (v.set v.nextId { readEnabled := true }).advance.conn j = some d →
      j = v.nextId ∧ d = { readEnabled := true } ∨ v.conn j = some d := by
    intro j d hd
    rw [View.advance_conn, View.set_conn] at hd
    split_ifs at hd with heq
    · cases hd
      exact .inl ⟨heq, rfl⟩
    · exact .inr hd
  constructor
  case each => exact h.each.append (by simp)
  case live =>
    intro j d hd
    rw [hcl]
    rcases hcases hd with ⟨rfl, -⟩ | hd
    · exact (h.fresh _ (Nat.le_refl _)).2
    · exact h.live j d hd
  case told =>
    intro j d hd
    rw [ha]
    rcases hcases hd with ⟨rfl, rfl⟩ | hd
    · exact (h.fresh _ (Nat.le_refl _)).1
    · exact h.told j d hd
  case related =>
    intro j d hd
    rcases hcases hd with ⟨-, rfl⟩ | hd
    · exact fun hpast => by cases hpast
    · exact h.related j d hd
  case kept =>
    intro j hj
    rw [ha] at hj
    rw [hcl, View.advance_conn, View.set_conn]
    refine (h.kept j hj).imp (fun hclosed => hclosed) fun hsome => ?_
    split
    · rfl
    · exact hsome
  case fresh =>
    intro j hj
    rw [ha, hcl]
    exact h.fresh j (Nat.le_trans (Nat.le_succ _) hj)

theorem plain_of_silent (h : ∀ o ∈ outs, o.silent = true) : Plain outs := by
  constructor
  all_goals
    intro id
    refine any_eq_false.mpr fun o ho => ?_
    have := h o ho
    cases o <;> first | exact Bool.false_ne_true | cases this

theorem Told.each_close (h : Told l v) (hc : v.conn id = some c) (hann : announced id l = true)
    (e : VpnError) : Each Orderly (l ++ [.connectionClosed id e]) := by
  refine h.each.snoc fun j hj => ?_
  cases hj
  exact ⟨h.live id c hc, fun _ => hann⟩

theorem Move.told (hm : Move config .none v outs v') (hi : v.Inv) (h : Told l v) : Told (l ++ outs) v' := by
  have hplain : Plain [] := ⟨fun _ => rfl, fun _ => rfl⟩
  cases hm with
  | silent hall =>
    refine h.same (fun o ho => ?_) (plain_of_silent hall) (Nat.le_refl _) rfl
    have := hall o ho
    cases o <;> first | rfl | cases this
  | opened => exact h.open
  | abandoned =>
    exact h.same (by simp) ⟨fun _ => rfl, fun _ => rfl⟩ (Nat.le_succ _) rfl
  | next hc hn => exact h.next hi hc hn
  | openedUdp hr hk hp hs hcr hip =>
    rename_i r t c
    exact h.announce [.createdUdp v.nextId r] (by simp) ⟨fun _ => rfl, fun _ => rfl⟩
      (h.fresh _ (Nat.le_refl _)).2 (Nat.le_succ _) (Nat.lt_succ_self _) (by rw [hp]; simp)
      (by rw [hs]; rfl) fun j => View.set_conn ..
  | related hc hs hp hp' hs' =>
    rename_i id c c'
    have hearly : c.announced = false := announced_early (by rw [hs]; rfl)
    refine h.shrink (h.each.append (by simp)) ⟨fun _ => rfl, fun _ => rfl⟩
      (Nat.le_refl _) (fun j d hd => ?_) fun j d hd _ => ?_
    · rw [View.setRelay_conn, View.set_conn] at hd
      split_ifs at hd with heq
      · cases hd
        refine ⟨c, heq ▸ hc, ?_, fun _ _ => hs'⟩
        rw [hearly, Connection.announced, hp']
        rfl
      · exact ⟨d, hd, rfl, h.related j d hd⟩
    · rw [View.setRelay_conn, View.set_conn]
      split
      · rfl
      · rw [hd]
        rfl
  | closed e hc hp hs hr =>
    have hann := h.announced_of_past hi hc hs hr
    refine h.close (hi.fresh _ _ hc) ?_ (fun _ => rfl) (fun j => by simp [Socks5.closed]) rfl rfl
    rw [append_cons]
    exact (h.each_close hc hann e).append (by simp)
  | dropped hc hp hs =>
    exact h.drop (by simp) ⟨fun _ => rfl, fun _ => rfl⟩ rfl hc (announced_early hs) rfl
  | closedUdp e hc hp hr =>
    have hpast := ((hi.proper _ _ hc).udp hp).1
    have hann : announced _ l = true := (h.told _ _ hc).trans (by
      rcases hpast with hs | hs <;> rw [Connection.announced, hp, hs] <;> rfl)
    refine h.close (hi.fresh _ _ hc) ?_ (fun _ => rfl) (fun j => by simp [Socks5.closed]) rfl rfl
    rw [append_cons]
    exact (h.each_close hc hann e).append (by simp)
  | unrelated hr ht =>
    obtain ⟨c, hc, hp, -⟩ := hi.related _ _ hr
    refine h.drop (by simp) ⟨fun _ => rfl, fun _ => rfl⟩ rfl hc ?_ rfl
    rw [Connection.announced, hp]
    rfl
  | swept e hc hp hr hx =>
    obtain ⟨hs, rfl⟩ := hx.resolve_left not_false
    have hann := h.announced_of_past hi hc hs hr
    refine h.close (hi.fresh _ _ hc) ?_ (fun _ => rfl) (fun j => by simp [Socks5.closed]) rfl rfl
    rw [append_cons]
    refine (h.each.append (by simp)).snoc fun j hj => ?_
    cases hj
    rw [closed_append, announced_append, h.live _ _ hc, hann]
    exact ⟨rfl, fun _ => rfl⟩
  | queued hc hp | dequeued => exact h.same (by simp) hplain (Nat.le_refl _) rfl
  | stale data hx hc => exact absurd hx not_false

end Moves

/-! ## Runs -/

/-- The call has no slip: no handshake is refused, no connection whose packets wait is freed from inside
their events, and at a stop every connection outside of associations was announced and is in the place
of the table that its identifier names. -/
def calm (config : Config) (r : Run) (e : Call) : Bool :=
  !r.listener.refuses config e && !r.listener.staleReads e && !r.listener.sweeps e

theorem allows_none {config : Config} {r : Run} {e : Call} (h : calm config r e = true) :
    r.listener.Allows config .none e := by
  simp only [calm, Bool.and_eq_true, Bool.not_eq_true'] at h
  obtain ⟨⟨hrefuses, hstale⟩, hsweeps⟩ := h
  refine ⟨fun h => ?_, fun h => ?_, fun h => ?_⟩
  · rw [hrefuses] at h
    cases h
  · rw [hstale] at h
    cases h
  · rw [hsweeps] at h
    cases h

theorem told_inv {config : Config} {es : List Call}
    (h : (listener config).Meets (fun r e => calm config r e = true) (listener config).init es) :
    Told (System.outputs ((listener config).trace (listener config).init es))
      ((listener config).exec (listener config).init es).listener.view := by
  have hstart : Told [] (listener config).init.listener.view :=
    ⟨.nil, fun _ _ hc => (by cases hc), fun _ _ hc => (by cases hc), fun _ _ hc => (by cases hc),
      fun _ hann => (by cases hann), fun _ _ => ⟨rfl, rfl⟩⟩
  exact (listener_inv (fun _ _ => allows_none) hstart (fun _ _ _ _ hi ht hm => hm.told hi ht) h).2

theorem countP_closes_le {l : List Out} (h : Each Orderly l) (id : ConnId) : l.countP (Out.closes id) ≤ 1 := by
  induction l using List.reverseRecOn with
  | nil => exact Nat.zero_le _
  | append_singleton l o ih =>
    have hbefore : Each Orderly l := fun pre o' post heq => h pre o' (post ++ [o]) (by rw [heq]; simp)
    rw [countP_append]
    cases ho : o.closes id with
    | false =>
      simp only [countP_singleton, ho]
      exact ih hbefore
    | true =>
      have hevent : o.eventOf = some id := by
        cases o with
        | connectionClosed i e => exact congrArg some (eq_of_beq ho)
        | _ => cases ho
      have hnone : l.countP (Out.closes id) = 0 := by
        have hclosed := (h l o [] rfl id hevent).1
        exact countP_eq_zero.mpr fun o' ho' => any_eq_false.mp hclosed o' ho'
      simp only [countP_singleton, ho, hnone]
      exact Nat.le_refl _

/-- In every run without slips, each event is in order: nothing for a connection follows its closed
event, and closed events are for connections that were announced. When the run ends with a stop, every
connection that was announced has been reported as closed, once. -/
theorem closed_exactly_once (config : Config) (es : List Call)
    (h : (listener config).Meets (fun r e => calm config r e = true) (listener config).init es) :
    Each Orderly (System.outputs ((listener config).trace (listener config).init es)) ∧
      ∀ before slot, es = before ++ [.stop slot] →
        ((listener config).exec (listener config).init before).fault = none →
        ∀ id, announced id (System.outputs ((listener config).trace (listener config).init es)) = true →
          (System.outputs ((listener config).trace (listener config).init es)).countP (Out.closes id) = 1 := by
  have htold := told_inv h
  refine ⟨htold.each, fun before slot heq hf id hann => ?_⟩
  obtain ⟨-, hempty⟩ := stopped_empty slot hf
  rw [← heq] at hempty
  have hclosed : closed id (System.outputs ((listener config).trace (listener config).init es)) = true := by
    rcases htold.kept id hann with hclosed | hsome
    · exact hclosed
    · rw [hempty] at hsome
      cases hsome
  have hpos := countP_pos_iff.mpr (any_eq_true.mp hclosed)
  have hle := countP_closes_le htold.each id
  omega

/-- A connection, and a stop with it in the place `1`. -/
theorem closed_exactly_once_connected : (listener noCredentials).Meets (fun r e => calm noCredentials r e = true)
        (listener noCredentials).init (connectedCalls ++ [.stop fun id => id]) ∧
      (System.outputs ((listener noCredentials).trace (listener noCredentials).init
        (connectedCalls ++ [.stop fun id => id]))).countP (Out.closes 1) = 1 :=
  have h : (listener noCredentials).Meets (fun r e => calm noCredentials r e = true)
      (listener noCredentials).init (connectedCalls ++ [.stop fun id => id]) := by decide
  ⟨h, (closed_exactly_once noCredentials _ h).2 connectedCalls (fun id => id) rfl (by decide) 1 (by decide)⟩

/-- Three clients whose sockets cannot be set up, and one that asks for `1.1.1.1`, port 80. -/
def fourthCalls : List Call :=
  [.accept false, .accept false, .accept false, .accept true, .received 4 [5, 1, 0],
    .socket 4 (.readable false quietEnv), .received 4 [5, 1, 0, 1, 1, 1, 1, 1, 0, 80],
    .socket 4 (.readable false quietEnv)]

def raised (es : List Call) : List Out :=
  System.outputs ((listener noCredentials).trace (listener noCredentials).init es)

def refusedCalls : List Call :=
  [.accept true, .received 1 [5, 1, 9], .socket 1 (.readable false quietEnv), .socket 1 (.readable true quietEnv)]

/-- A UDP connection with two waiting packets that the owner closes from inside the first event. -/
def staleCalls : List Call :=
  greetedWith [5, 3, 0, 1, 0, 0, 0, 0, 0, 0] ++ [.socket 1 (.readable false relayEnv),
      .udp 1 (.datagram ⟨[127, 0, 0, 1], 5000⟩ [0, 0, 0, 1, 1, 1, 1, 1, 0, 53, 8] []),
      .udp 1 (.datagram ⟨[127, 0, 0, 1], 5000⟩ [0, 0, 0, 1, 1, 1, 1, 1, 0, 53, 9] []),
      .complete 2 .success ⟨1080, noError⟩, .task fun _ => [{ reactions := [.close true] }]]

/-- The refused client is reported as closed, although it was never announced. The fourth connection is
in the place `0` of a table with four places, and a stop reports `0` as closed. The UDP connection gets
the event of its second packet after its closed event. -/
theorem closing_slips : (closed 1 (raised refusedCalls) = true ∧ announced 1 (raised refusedCalls) = false) ∧
      (announced 4 (raised (fourthCalls ++ [.stop fun id => id % 4])) = true ∧
        closed 4 (raised (fourthCalls ++ [.stop fun id => id % 4])) = false ∧
        closed 0 (raised (fourthCalls ++ [.stop fun id => id % 4])) = true) ∧
      ∃ pre post, raised staleCalls = pre ++ .read 2 [9] :: post ∧ closed 2 pre = true := by
  refine ⟨by decide, by decide, ?_⟩
  exact ⟨[.created 1, .received 1 [5, 1, 0], .write 1 [5, 0], .received 1 [5, 3, 0, 1, 0, 0, 0, 0, 0, 0],
    .createdRelay 1, .write 1 [5, 0, 0, 1, 127, 0, 0, 1, 15, 160], .createdUdp 2 1,
    .connectRequest 2 (some .udp) ⟨[127, 0, 0, 1], 5000⟩ (.sockaddr ⟨[1, 1, 1, 1], 53⟩) [],
    .connectionAccepted 2, .read 2 [8], .connectionClosed 2 noError, .freed 2], [], by decide, by decide⟩

/-! ## Failed connections -/

section Failed

variable {id : ConnId} {c : Connection} {s : Socks5Listener}

theorem sockHandler_flush (config : Config) (hc : s.connections.lookup id = some c) :
    sockHandler config id .writeFlush s [] = onWriteFlush id s [] := by
  rw [sockHandler, get_bind, if_pos (by rw [hc]; rfl)]

/-- Only an established association keeps a relay. -/
theorem failed_not_association (hi : s.view.Inv) (hc : s.connections.lookup id = some c) (hs : c.state = .failed) :
    s.isUdpAssociation id c = false := by
  cases hr : s.udpRelays.lookup id with
  | none => rw [Socks5Listener.isUdpAssociation, hr, Option.isSome_none, Bool.and_false]
  | some u =>
    have hview : s.view.relay id = some fun k => u.connectionsByAddr.lookup k :=
      Option.map_eq_some_iff.mpr ⟨u, hr, rfl⟩
    obtain ⟨d, hd, -, hestablished⟩ := hi.related id _ hview
    cases hc.symm.trans hd
    cases hs.symm.trans hestablished

/-- After any run, the flush of a failed connection's reply removes it from the table if and only if its
request was read as `CONNECT`. -/
theorem failed_closed_iff (config : Config) (es : List Call) (id : ConnId) (c : Connection)
    (hrun : ((listener config).exec (listener config).init es).fault = none)
    (hc : ((listener config).exec (listener config).init es).listener.connections.lookup id = some c)
    (hp : c.proto ≠ some .udp) (hs : c.state = .failed) :
    (((listener config).step ((listener config).exec (listener config).init es)
        (.socket id .writeFlush)).1.fault = none ∧
      ((listener config).step ((listener config).exec (listener config).init es)
        (.socket id .writeFlush)).1.listener.connections.lookup id = none) ↔ c.proto = some .tcp := by
  have hi := tables_inv config es
  generalize (listener config).exec (listener config).init es = r at hrun hc hi ⊢
  have henabled : (r.fault.isNone && r.listener.enabled (.socket id .writeFlush)) = true := by
    rw [hrun]
    show (r.listener.connections.lookup id).any (fun c => c.proto != some .udp) = true
    rw [hc]
    exact bne_iff_ne.mpr hp
  have hstep : (listener config).step r (.socket id .writeFlush) = (⟨(onWriteFlush id r.listener []).2.1,
      faultOf (onWriteFlush id r.listener []).1⟩, (onWriteFlush id r.listener []).2.2) := by
    rw [← sockHandler_flush config hc]
    exact step_perform config henabled
  have hflush : onWriteFlush id r.listener [] =
      (if c.proto = some .tcp then closeAndReport id noError else pure ()) r.listener [] := by
    rw [onWriteFlush, bind_ok (deref_ok hc []), get_bind,
      if_neg (by rw [failed_not_association hi hc hs]; exact Bool.false_ne_true)]
    simp [hs]
  rw [hstep, hflush]
  by_cases htcp : c.proto = some .tcp
  · rw [if_pos htcp, closeAndReport_ok hc hp]
    exact iff_of_true ⟨rfl, by rw [Socks5Listener.eraseConn, Map.lookup_erase_eq, if_pos rfl]⟩ htcp
  rw [if_neg htcp]
  refine iff_of_false (fun h => ?_) htcp
  have hgone : r.listener.connections.lookup id = none := h.2
  rw [hc] at hgone
  cases hgone

/-- The request asks to connect, with an address type that is not supported. -/
def unsupportedCalls : List Call := greetedWith [5, 1, 0, 9, 0, 0, 0, 0] ++ [.socket 1 (.readable false quietEnv)]

theorem failed_closed_iff_connect :
    ((listener noCredentials).exec (listener noCredentials).init unsupportedCalls).listener.connections.lookup 1 =
      some { state := .failed, proto := some .tcp, readEnabled := true } ∧
    ((listener noCredentials).step ((listener noCredentials).exec (listener noCredentials).init unsupportedCalls)
      (.socket 1 .writeFlush)).1.listener.connections.lookup 1 = none := by
  have hc : ((listener noCredentials).exec (listener noCredentials).init
    unsupportedCalls).listener.connections.lookup 1 =
      some { state := .failed, proto := some .tcp, readEnabled := true } := by decide +kernel
  exact ⟨hc, ((failed_closed_iff _ _ 1 _ (by decide +kernel) hc (by decide) rfl).mpr rfl).2⟩

/-- No method is acceptable, and the refusal is flushed. -/
theorem refused_stays : ((listener noCredentials).exec (listener noCredentials).init
      [.accept true, .received 1 [5, 1, 9], .socket 1 (.readable false quietEnv),
        .socket 1 .writeFlush]).fault = none ∧
    (((listener noCredentials).exec (listener noCredentials).init [.accept true, .received 1 [5, 1, 9],
      .socket 1 (.readable false quietEnv), .socket 1 .writeFlush]).listener.connections.lookup 1).map (·.state) =
        some .failed := by
  decide

end Failed

end TrustTunnel.Socks5
