import TrustTunnel.Socks5.Calls

/-!
# Socks5.Authentication

With a username configured, a client gets nothing before it has sent the configured credentials.
`stream id` are the bytes that came to a connection, over all reads. The invariant `Guarded` says how
much of the stream the handshake has taken: nothing at first, then the method request, then also the
credentials. It holds along all moves, the slips included, so no assumption is made on the owner or on
the sockets.
-/

namespace TrustTunnel.Socks5

open Lib Lib.Act List

def stream (id : ConnId) (l : List Out) : Bytes :=
  l.flatMap fun o => match o with
    | .received i data => if i = id then data else []
    | _ => []

variable (config : Config)

/-- The client of the connection chose a method and sent the configured credentials. -/
def Authenticated (l : List Out) (id : ConnId) : Prop :=
  ∃ methods rest, stream id l = authRequest methods ++ config.credentials ++ rest

/-- Requests and relays have authenticated clients; UDP connections belong to relays. -/
def Justified (l : List Out) : Out → Prop
  | .connectRequest id (some .tcp) _ _ _ => Authenticated config l id
  | .connectRequest id (some .udp) _ _ _ =>
    ∃ r, .createdUdp id r ∈ l ∧ .createdRelay r ∈ l ∧ Authenticated config l r
  | .connectRequest _ none _ _ _ => False
  | .createdRelay id => Authenticated config l id
  | _ => True

def Out.neutral : Out → Bool
  | .connectRequest _ _ _ _ _ => false
  | .createdRelay _ => false
  | .received _ _ => false
  | _ => true

attribute [local simp] stream

theorem stream_append (id : ConnId) (l outs : List Out) : stream id (l ++ outs) = stream id l ++ stream id outs := by
  simp

theorem stream_neutral {outs : List Out} (h : ∀ o ∈ outs, o.neutral = true)
    (id : ConnId) : stream id outs = [] := by
  induction outs with
  | nil => rfl
  | cons o outs ih =>
    have htail := ih fun o ho => h o (by simp [ho])
    have ho := h o (by simp)
    cases o with
    | received i data => cases ho
    | _ => exact htail

theorem Authenticated.append {config : Config} {l : List Out} {id : ConnId}
    (h : Authenticated config l id) (outs : List Out) : Authenticated config (l ++ outs) id := by
  obtain ⟨methods, rest, hstream⟩ := h
  exact ⟨methods, rest ++ stream id outs, by rw [stream_append, hstream, append_assoc]⟩

theorem Justified.of_neutral {config : Config} {o : Out} (h : o.neutral = true) (pre : List Out) :
    Justified config pre o := by
  cases o with
  | connectRequest id proto src dst appName | createdRelay id => cases h
  | _ => trivial

/-- How far the handshake of the connection is in the bytes received. -/
def Progress (received : Bytes) (c : Connection) : Prop :=
  match c.state with
  | .idle => received = c.unread
  | .waitingUsernamePassword => ∃ methods, received = authRequest methods ++ c.unread
  | .waitingRequest => ∃ methods rest, received = authRequest methods ++ config.credentials ++ rest
  | _ => True

theorem Progress.of_past {config : Config} {received : Bytes} {c : Connection}
    (h : c.state.pastRequest = true) : Progress config received c := by
  unfold Progress
  cases hs : c.state with
  | idle | waitingUsernamePassword | waitingRequest => rw [hs] at h; cases h
  | _ => trivial

structure Guarded (config : Config) (l : List Out) (v : View) : Prop where
  each : Each (Justified config) l
  fresh : ∀ id, v.nextId ≤ id → stream id l = []
  progress : ∀ id c, v.conn id = some c → Progress config (stream id l) c
  relays : ∀ r t, v.relay r = some t → .createdRelay r ∈ l ∧ Authenticated config l r

section Moves

variable {config : Config} {x : Slips} {l outs : List Out} {v v' : View} {id : ConnId} {c c' : Connection}

theorem Progress.authenticated (h : Progress config (stream id l) c) (hs : c.state = .waitingRequest) :
    Authenticated config l id := by
  rw [Progress, hs] at h
  exact h

theorem Next.progress (hu : config.username ≠ []) (hn : Next config x id c outs c')
    (h : Progress config (stream id l) c) : Progress config (stream id (l ++ outs)) c' := by
  rw [stream_append]
  cases hn with
  | received data hp =>
    have hdata : stream id [.received id data] = data := by simp
    rw [hdata]
    unfold Progress at h ⊢
    cases hs : c.state with
    | idle =>
      rw [hs] at h
      exact congrArg (· ++ data) h
    | waitingUsernamePassword =>
      rw [hs] at h
      obtain ⟨methods, h⟩ := h
      exact ⟨methods, by rw [h, append_assoc]⟩
    | waitingRequest =>
      rw [hs] at h
      obtain ⟨methods, rest, h⟩ := h
      exact ⟨methods, rest ++ data, by rw [h, append_assoc]⟩
    | _ => trivial
  | greeted hs hunread hst =>
    rename_i st methods rest
    rw [Progress, hs] at h
    rcases hst with rfl | ⟨-, hnone⟩
    · exact ⟨methods, by rw [h, hunread]; simp⟩
    · exact absurd hnone hu
  | matched hs hunread =>
    rename_i rest
    rw [Progress, hs] at h
    obtain ⟨methods, h⟩ := h
    exact ⟨methods, rest, by rw [h, hunread]; simp⟩
  | asked hs _ =>
    obtain ⟨methods, rest, h⟩ := h.authenticated hs
    simp only [hs]
    exact ⟨methods, rest, by rw [h]; simp⟩
  | refused hx hp hs hp' hs' | requested hs hp' hs' hdst => exact .of_past (by rw [hs']; rfl)
  | succeeded hp hs | failed hp hs | accepted hs => trivial
  | read data ha =>
    have hsame : stream id [.read id data] = [] := rfl
    rwa [hsame, append_nil]
  | dataSent n ha =>
    have hsame : stream id [.dataSent id n] = [] := rfl
    rwa [hsame, append_nil]
  | quiet hs hp ha hr hunread =>
    have hsame : stream id [] = [] := rfl
    rw [hsame, append_nil]
    cases hpast : c.state.pastRequest with
    | true => exact .of_past (hs ▸ hpast)
    | false =>
      unfold Progress at h ⊢
      rw [hs, hunread hpast]
      exact h

attribute [local simp] Out.neutral

theorem Next.justified (hn : Next config x id c outs c') (h : Progress config (stream id l) c)
    (heach : Each (Justified config) l) :
    Each (Justified config) (l ++ outs) ∧ ∀ j, j ≠ id → stream j (l ++ outs) = stream j l := by
  have hneutral : (∀ o ∈ outs, o.neutral = true) →
      Each (Justified config) (l ++ outs) ∧ ∀ j, j ≠ id → stream j (l ++ outs) = stream j l :=
    fun hall => ⟨heach.append fun o ho pre => .of_neutral (hall o ho) pre,
      fun j _ => by rw [stream_append, stream_neutral hall, append_nil]⟩
  cases hn with
  | received data hp =>
    refine ⟨heach.snoc trivial, fun j hj => ?_⟩
    simp [Ne.symm hj]
  | requested hs hp' hs' hdst =>
    refine ⟨heach.snoc (h.authenticated hs), fun j _ => ?_⟩
    simp
  | _ => exact hneutral (by simp)

theorem Guarded.add {w : View} (h : Guarded config l v) (heach : Each (Justified config) (l ++ outs))
    (hstream : ∀ j, stream j outs = []) (hid : v.nextId ≤ w.nextId)
    (hconn : ∀ j d, w.conn j = some d → v.conn j = some d ∨ Progress config (stream j l) d)
    (hrelay : ∀ r t, w.relay r = some t → .createdRelay r ∈ l ++ outs ∧ Authenticated config (l ++ outs) r) :
    Guarded config (l ++ outs) w := by
  have hsame : ∀ j, stream j (l ++ outs) = stream j l := fun j => by
    rw [stream_append, hstream, append_nil]
  constructor
  case each => exact heach
  case fresh => exact fun j hj => (hsame j).trans (h.fresh j (Nat.le_trans hid hj))
  case progress =>
    intro j d hd
    rw [hsame]
    exact (hconn j d hd).elim (h.progress j d) fun hp => hp
  case relays => exact hrelay

theorem Guarded.shrink (h : Guarded config l v) (hall : ∀ o ∈ outs, o.neutral = true)
    (hid : v.nextId ≤ v'.nextId) (hconn : ∀ id c, v'.conn id = some c → v.conn id = some c)
    (hrelay : ∀ r t, v'.relay r = some t → ∃ t', v.relay r = some t') : Guarded config (l ++ outs) v' := by
  refine h.add (h.each.append fun o ho pre => .of_neutral (hall o ho) pre) (stream_neutral hall) hid
    (fun j d hd => .inl (hconn j d hd)) fun r t hr => ?_
  obtain ⟨t', hr'⟩ := hrelay r t hr
  obtain ⟨hmem, hauth⟩ := h.relays r t' hr'
  exact ⟨mem_append_left _ hmem, hauth.append _⟩

theorem Guarded.erase {r : ConnId → Option (AddressPair → Option ConnId)} (h : Guarded config l v)
    (hall : ∀ o ∈ outs, o.neutral = true) (hrelay : ∀ i t, r i = some t → ∃ t', v.relay i = some t') :
    Guarded config (l ++ outs) { v.erase id with relay := r } :=
  h.shrink hall (Nat.le_refl _) (fun _ _ hc => (View.of_erase hc).2) hrelay

theorem Out.neutral_of_silent {o : Out} (h : o.silent = true) : o.neutral = true := by
  cases o with
  | connectRequest id proto src dst appName | createdRelay i | received i data => cases h
  | _ => rfl

theorem Guarded.next (hu : config.username ≠ []) (h : Guarded config l v) (hi : v.Inv)
    (hc : v.conn id = some c) (hn : Next config x id c outs c') : Guarded config (l ++ outs) (v.set id c') := by
  obtain ⟨heach, hother⟩ := hn.justified (h.progress id c hc) h.each
  constructor
  case each => exact heach
  case fresh =>
    intro j hj
    have hne : j ≠ id := fun heq => absurd (hi.fresh id c hc) (by rw [← heq]; exact Nat.not_lt.mpr hj)
    exact (hother j hne).trans (h.fresh j hj)
  case progress =>
    intro j d hd
    rw [View.set_conn] at hd
    split_ifs at hd with heq
    · cases hd
      rw [heq]
      exact hn.progress hu (h.progress id c hc)
    · rw [hother j heq]
      exact h.progress j d hd
  case relays =>
    intro r t hr
    obtain ⟨hmem, hauth⟩ := h.relays r t hr
    exact ⟨mem_append_left _ hmem, hauth.append _⟩

theorem Move.guarded (hu : config.username ≠ []) (hm : Move config x v outs v') (hi : v.Inv)
    (h : Guarded config l v) : Guarded config (l ++ outs) v' := by
  have hkept : ∀ {outs : List Out} {r : ConnId} {t : AddressPair → Option ConnId}, v.relay r = some t →
      .createdRelay r ∈ l ++ outs ∧ Authenticated config (l ++ outs) r := fun hr =>
    ⟨mem_append_left _ (h.relays _ _ hr).1, (h.relays _ _ hr).2.append _⟩
  cases hm with
  | silent hall =>
    exact h.shrink (fun o ho => Out.neutral_of_silent (hall o ho)) (Nat.le_refl _) (fun _ _ hc => hc)
      fun _ t hr => ⟨t, hr⟩
  | opened =>
    refine h.add (h.each.snoc trivial) (fun _ => rfl) (Nat.le_succ _) (fun j d hd => ?_) fun r t hr => hkept hr
    rcases View.of_set hd with ⟨rfl, rfl⟩ | ⟨-, hd⟩
    · exact .inr (h.fresh _ (Nat.le_refl _))
    · exact .inl hd
  | abandoned =>
    exact h.shrink (by simp) (Nat.le_succ _) (fun _ _ hc => hc) fun _ t hr => ⟨t, hr⟩
  | next hc hn => exact h.next hu hi hc hn
  | openedUdp hr hk hp hs hcr hip =>
    rename_i r t c
    obtain ⟨hmem, hauth⟩ := h.relays r t hr
    refine h.add ?_ (fun _ => rfl) (Nat.le_succ _) (fun j d hd => ?_) fun i t' hr' => ?_
    · rw [append_cons]
      have hfirst : Each (Justified config) (l ++ [.createdUdp v.nextId r]) := h.each.snoc trivial
      exact hfirst.snoc ⟨r, by simp, by simp [hmem], hauth.append _⟩
    · rcases View.of_set hd with ⟨-, rfl⟩ | ⟨-, hd⟩
      · exact .inr (.of_past (by rw [hs]; rfl))
      · exact .inl hd
    · rcases View.of_setRelay hr' with ⟨rfl, -⟩ | ⟨-, hr'⟩
      · exact hkept hr
      · exact hkept hr'
  | related hc hs hp hp' hs' =>
    rename_i id c c'
    have hauth := (h.progress id c hc).authenticated hs
    refine h.add (h.each.snoc hauth) (fun _ => rfl) (Nat.le_refl _) (fun j d hd => ?_) fun i t' hr' => ?_
    · rcases View.of_set hd with ⟨-, rfl⟩ | ⟨-, hd⟩
      · exact .inr (.of_past (by rw [hs']; rfl))
      · exact .inl hd
    · rcases View.of_setRelay hr' with ⟨rfl, -⟩ | ⟨-, hr'⟩
      · exact ⟨by simp, hauth.append _⟩
      · exact hkept hr'
  | closed e hc hp hs hr | dropped hc hp hs | swept e hc hp hr hx =>
    exact h.erase (by simp) fun _ t hr => ⟨t, hr⟩
  | closedUdp e hc hp hr =>
    refine h.erase (by simp) fun i t' hr' => ?_
    rcases View.of_setRelay hr' with ⟨rfl, -⟩ | ⟨-, hr'⟩
    · exact ⟨_, hr⟩
    · exact ⟨t', hr'⟩
  | unrelated hr ht =>
    exact h.erase (by simp) fun _ t' hr' => ⟨t', (View.of_eraseRelay hr').2⟩
  | queued hc hp | dequeued =>
    exact h.shrink (by simp) (Nat.le_refl _) (fun _ _ hc => hc) fun _ t hr => ⟨t, hr⟩
  | stale data hx hc =>
    exact h.shrink (by simp) (Nat.le_refl _) (fun _ _ hc => hc) fun _ t hr => ⟨t, hr⟩

end Moves

/-- In every run, whatever clients, sockets and the owner do: before a TCP connection is announced or a
relay created, its client has sent the configured credentials; a UDP connection that is announced
belongs to such a relay. -/
theorem authenticated_requests (config : Config) (hu : config.username ≠ []) (es : List Call)
    (pre post : List Out) (o : Out)
    (ho : System.outputs ((listener config).trace (listener config).init es) = pre ++ o :: post) :
    Justified config pre o := by
  have hstart : Guarded config [] (listener config).init.listener.view :=
    ⟨.nil, fun _ _ => rfl, fun _ _ hc => (by cases hc), fun _ _ hr => by cases hr⟩
  have hguarded := listener_any hstart (fun _ _ _ _ hi h hm => hm.guarded hu hi h) es
  exact hguarded.each pre o post ho

/-- A client that sends the name `u` and the password `p` and asks for `a`, port 80. -/
def loginCalls : List Call :=
  [.accept true, .received 1 [5, 1, 2], .socket 1 (.readable false quietEnv),
    .received 1 [1, 1, 117, 1, 112], .socket 1 (.readable false quietEnv),
    .received 1 [5, 1, 0, 3, 1, 97, 0, 80], .socket 1 (.readable false quietEnv)]

theorem authenticated_login : (⟨[117], [112]⟩ : Config).username ≠ [] ∧
      ∃ pre post, System.outputs ((listener ⟨[117], [112]⟩).trace (listener ⟨[117], [112]⟩).init loginCalls) =
        pre ++ .connectRequest 1 (some .tcp) .empty (.domainName [97] 80) [] :: post ∧
        Justified ⟨[117], [112]⟩ pre (.connectRequest 1 (some .tcp) .empty (.domainName [97] 80) []) :=
  have hu : (⟨[117], [112]⟩ : Config).username ≠ [] := by simp
  have ho : System.outputs ((listener ⟨[117], [112]⟩).trace (listener ⟨[117], [112]⟩).init loginCalls) =
      [.created 1, .received 1 [5, 1, 2], .write 1 [5, 2], .received 1 [1, 1, 117, 1, 112],
        .write 1 [1, 0], .received 1 [5, 1, 0, 3, 1, 97, 0, 80]] ++
      .connectRequest 1 (some .tcp) .empty (.domainName [97] 80) [] :: [] := by decide
  ⟨hu, _, _, ho, authenticated_requests ⟨[117], [112]⟩ hu loginCalls _ _ _ ho⟩

/-- A listener that others than the own host can reach is only created with a username and a password, and
announces a connection or creates a relay only for a client that has sent them. -/
theorem exposed_authenticated (config : Config) (isLoopback : SocketAddress → Bool) (address : SocketAddress)
    (start : Run) (hcreate : create config isLoopback address = some start) (hvalid : address.valid = true)
    (hexposed : isLoopback address = false) (es : List Call) : config.username ≠ [] ∧ config.password ≠ [] ∧
      Each (Justified config) (System.outputs ((listener config).trace start es)) := by
  have hboth : config.username ≠ [] ∧ config.password ≠ [] ∧ (listener config).init = start := by
    unfold create at hcreate
    split_ifs at hcreate with hhalf hnone
    have hu : config.username ≠ [] := by simpa [hvalid, hexposed] using hnone
    exact ⟨hu, fun hp => hu (by simpa [hp] using hhalf), Option.some.inj hcreate⟩
  obtain ⟨hu, hp, rfl⟩ := hboth
  have hstart : Guarded config [] (listener config).init.listener.view :=
    ⟨.nil, fun _ _ => rfl, fun _ _ hc => (by cases hc), fun _ _ hr => by cases hr⟩
  exact ⟨hu, hp, (listener_any hstart (fun _ _ _ _ hi h hm => hm.guarded hu hi h) es).each⟩

theorem exposed_authenticated_login :
    ∃ start, create ⟨[117], [112]⟩ (fun _ => false) ⟨[192, 0, 2, 1], 1080⟩ = some start ∧
    .connectRequest 1 (some .tcp) .empty (.domainName [97] 80) [] ∈
      System.outputs ((listener ⟨[117], [112]⟩).trace start loginCalls) ∧
    Each (Justified ⟨[117], [112]⟩) (System.outputs ((listener ⟨[117], [112]⟩).trace start loginCalls)) :=
  ⟨_, rfl, by decide, (exposed_authenticated _ (fun _ => false) ⟨[192, 0, 2, 1],
    1080⟩ _ rfl rfl rfl loginCalls).2.2⟩

end TrustTunnel.Socks5
