import TrustTunnel.Socks5.Calls

/-!
# Socks5.Lifetime

Connections and relays are objects that are created and freed. A ledger over the outputs of a run counts
both: what was created is what was freed and what the tables hold (`Ledger`). It is kept by every move,
so it holds in every run. That nothing is used after it was freed holds in runs without `dangles`
(`no_use_after_free`); the four ways to get there are in `dangling_uses`.
-/

namespace TrustTunnel.Socks5

open Lib Lib.Act List

/-! ## The ledger -/

def Out.creates (id : ConnId) : Out → Bool
  | .created i => i == id
  | .createdUdp i _ => i == id
  | _ => false

def created (id : ConnId) (l : List Out) : Nat := l.countP (Out.creates id)

def freed (id : ConnId) (l : List Out) : Nat := l.count (.freed id)

def relaysCreated (r : ConnId) (l : List Out) : Nat := l.count (.createdRelay r)

def relaysFreed (r : ConnId) (l : List Out) : Nat := l.count (.freedRelay r)

def held {α : Type} (o : Option α) : Nat := if o.isSome then 1 else 0

structure Ledger (l : List Out) (v : View) : Prop where
  conns : ∀ id, created id l = freed id l + held (v.conn id)
  fresh : ∀ id, v.nextId ≤ id → created id l = 0
  once : ∀ id, created id l ≤ 1
  relays : ∀ r, relaysCreated r l = relaysFreed r l + held (v.relay r)
  relayOnce : ∀ r, relaysCreated r l ≤ 1
  freshRelay : ∀ r, v.nextId ≤ r → relaysCreated r l = 0
  unrelated : ∀ r c, v.conn r = some c → c.state.pastRequest = false → relaysCreated r l = 0

/-- What outputs have to say about a change of the tables. -/
structure Balanced (v : View) (outs : List Out) (v' : View) : Prop where
  ids : v.nextId ≤ v'.nextId
  conns : ∀ id, created id outs + held (v.conn id) = freed id outs + held (v'.conn id)
  born : ∀ id, created id outs = 0 ∨ created id outs = 1 ∧ id = v.nextId ∧ id < v'.nextId
  relays : ∀ r, relaysCreated r outs + held (v.relay r) = relaysFreed r outs + held (v'.relay r)
  related : ∀ r, relaysCreated r outs = 0 ∨ relaysCreated r outs = 1 ∧ r < v.nextId ∧
    (∃ c, v.conn r = some c ∧ c.state.pastRequest = false) ∧ ∀ c, v'.conn r = some c →
      c.state.pastRequest = true
  early : ∀ id c, v'.conn id = some c → c.state.pastRequest = false →
    v.nextId ≤ id ∨ ∃ c', v.conn id = some c' ∧ c'.state.pastRequest = false

section Counts

variable (id : ConnId) (l outs : List Out)

theorem created_append : created id (l ++ outs) = created id l + created id outs := countP_append

theorem freed_append : freed id (l ++ outs) = freed id l + freed id outs := count_append

theorem relaysCreated_append : relaysCreated id (l ++ outs) = relaysCreated id l + relaysCreated id outs := count_append

theorem relaysFreed_append : relaysFreed id (l ++ outs) = relaysFreed id l + relaysFreed id outs := count_append

end Counts

open Nat

theorem Ledger.append {l outs : List Out} {v v' : View} (h : Ledger l v) (b : Balanced v outs v') :
    Ledger (l ++ outs) v' := by
  constructor
  case conns =>
    intro id
    have h₁ := h.conns id
    have h₂ := b.conns id
    rw [created_append, freed_append]
    omega
  case fresh =>
    intro id hid
    have h₁ := h.fresh id (le_trans b.ids hid)
    rw [created_append]
    rcases b.born id with h₂ | ⟨-, -, hlt⟩
    · omega
    · exact absurd hlt (not_lt.mpr hid)
  case once =>
    intro id
    have h₁ := h.once id
    rw [created_append]
    rcases b.born id with h₂ | ⟨h₂, heq, -⟩
    · omega
    · have h₃ := h.fresh id (le_of_eq heq.symm)
      omega
  case relays =>
    intro r
    have h₁ := h.relays r
    have h₂ := b.relays r
    rw [relaysCreated_append, relaysFreed_append]
    omega
  case relayOnce =>
    intro r
    have h₁ := h.relayOnce r
    rw [relaysCreated_append]
    rcases b.related r with h₂ | ⟨h₂, -, ⟨c, hc, hs⟩, -⟩
    · omega
    · have h₃ := h.unrelated r c hc hs
      omega
  case freshRelay =>
    intro r hr
    have hold := le_trans b.ids hr
    have h₁ := h.freshRelay r hold
    rw [relaysCreated_append]
    rcases b.related r with h₂ | ⟨-, hlt, -⟩
    · omega
    · exact absurd hlt (not_lt.mpr hold)
  case unrelated =>
    intro r c hc hs
    rw [relaysCreated_append]
    rcases b.related r with h₂ | ⟨-, -, -, hpast⟩
    · rcases b.early r c hc hs with hfresh | ⟨c', hc', hs'⟩
      · have h₁ := h.freshRelay r hfresh
        omega
      · have h₁ := h.unrelated r c' hc' hs'
        omega
    · rw [hpast c hc] at hs
      cases hs

/-! ## Moves are balanced -/

section Moves

variable {config : Config} {x : Slips} {outs : List Out} {v v' : View}

def Out.tracked : Out → Bool
  | .created _ => true
  | .createdUdp _ _ => true
  | .freed _ => true
  | .createdRelay _ => true
  | .freedRelay _ => true
  | _ => false

theorem untracked_counts (h : ∀ o ∈ outs, o.tracked = false) (id : ConnId) :
    created id outs = 0 ∧ freed id outs = 0 ∧ relaysCreated id outs = 0 ∧ relaysFreed id outs = 0 := by
  refine ⟨countP_eq_zero.mpr fun o ho => ?_, ?_, ?_, ?_⟩
  · have := h o ho
    cases o with
    | created i | createdUdp i r => cases this
    | _ => exact Bool.false_ne_true
  all_goals exact count_eq_zero.mpr fun hmem => by cases h _ hmem

theorem Balanced.of_untracked (h : ∀ o ∈ outs, o.tracked = false) (hid : v.nextId ≤ v'.nextId)
    (hconn : ∀ id, (v'.conn id).isSome = (v.conn id).isSome)
    (hrelay : ∀ r, (v'.relay r).isSome = (v.relay r).isSome)
    (hearly : ∀ id c, v'.conn id = some c → c.state.pastRequest = false →
      v.nextId ≤ id ∨ ∃ c', v.conn id = some c' ∧ c'.state.pastRequest = false) : Balanced v outs v' := by
  constructor
  case ids => exact hid
  case conns =>
    intro id
    obtain ⟨h₁, h₂, -⟩ := untracked_counts h id
    rw [h₁, h₂, held, held, hconn]
  case born => exact fun id => .inl (untracked_counts h id).1
  case relays =>
    intro r
    obtain ⟨-, -, h₁, h₂⟩ := untracked_counts h r
    rw [h₁, h₂, held, held, hrelay]
  case related => exact fun r => .inl (untracked_counts h r).2.2.1
  case early => exact hearly

theorem Balanced.of_same (h : ∀ o ∈ outs, o.tracked = false) (hid : v.nextId = v'.nextId)
    (hconn : v'.conn = v.conn) (hrelay : v'.relay = v.relay) : Balanced v outs v' :=
  .of_untracked h (le_of_eq hid) (fun _ => by rw [hconn]) (fun _ => by rw [hrelay])
    fun _ c hc hs => .inr ⟨c, hconn ▸ hc, hs⟩

theorem Next.untracked {id : ConnId} {c c' : Connection} (hn : Next config x id c outs c') :
    ∀ o ∈ outs, o.tracked = false := by
  cases hn <;> simp [Out.tracked]

theorem Next.past {id : ConnId} {c c' : Connection} (hn : Next config x id c outs c')
    (h : c.state.pastRequest = true) : c'.state.pastRequest = true := by
  cases hn with
  | greeted hs hu hst | matched hs hu => rw [hs] at h; cases h
  | refused hx hp hs hp' hs' | requested hs hp' hs' hdst => rw [hs']; rfl
  | succeeded hp hs | failed hp hs | accepted hs => rfl
  | quiet hs hp ha hr hu => rw [hs]; exact h
  | _ => exact h

open View

theorem Balanced.of_freed {id : ConnId} {c : Connection} {relay : ConnId → Option (AddressPair → Option ConnId)}
    (hc : v.conn id = some c)
    (houts : ∀ i, created i outs = 0 ∧ freed i outs = (if id = i then 1 else 0) ∧ relaysCreated i outs = 0 ∧
      relaysFreed i outs = 0) (hrelay : ∀ r, (relay r).isSome = (v.relay r).isSome) :
    Balanced v outs { v.erase id with relay := relay } := by
  constructor
  case ids => exact le_refl _
  case conns =>
    intro i
    rw [(houts i).1, (houts i).2.1]
    by_cases heq : id = i
    · subst heq
      simp [hc, held]
    · simp [heq, Ne.symm heq]
  case born => exact fun i => .inl (houts i).1
  case relays =>
    intro r
    rw [(houts r).2.2.1, (houts r).2.2.2, held, held, hrelay]
  case related => exact fun r => .inl (houts r).2.2.1
  case early => exact fun i d hd hs => .inr ⟨d, (of_erase hd).2, hs⟩

theorem Balanced.of_created {c : Connection} {relay : ConnId → Option (AddressPair → Option ConnId)}
    (houts : ∀ i, created i outs = (if v.nextId = i then 1 else 0) ∧ freed i outs = 0 ∧
      relaysCreated i outs = 0 ∧ relaysFreed i outs = 0)
    (hnew : v.conn v.nextId = none) (hrelay : ∀ r, (relay r).isSome = (v.relay r).isSome) :
    Balanced v outs { (v.set v.nextId c).advance with relay := relay } := by
  constructor
  case ids => exact le_succ _
  case conns =>
    intro i
    rw [(houts i).1, (houts i).2.1]
    by_cases heq : v.nextId = i
    · subst heq
      simp [hnew, held]
    · simp [heq, Ne.symm heq]
  case born =>
    intro i
    rw [(houts i).1]
    split_ifs with heq
    · exact .inr ⟨rfl, heq.symm, lt_succ_of_le (le_of_eq heq.symm)⟩
    · exact .inl rfl
  case relays =>
    intro r
    rw [(houts r).2.2.1, (houts r).2.2.2, held, held, hrelay]
  case related => exact fun r => .inl (houts r).2.2.1
  case early =>
    intro i d hd hs
    rcases of_set hd with ⟨rfl, -⟩ | ⟨-, hd⟩
    · exact .inl (le_refl _)
    · exact .inr ⟨d, hd, hs⟩

attribute [local simp] relaysCreated Out.creates created relaysFreed freed

theorem Move.balanced (hm : Move config x v outs v') (hi : v.Inv) : Balanced v outs v' := by
  have hnew := hi.conn_nextId
  cases hm with
  | silent hall =>
    refine .of_same (fun o ho => ?_) rfl rfl rfl
    have := hall o ho
    cases o <;> first | rfl | cases this
  | queued hc hp | dequeued => exact .of_same (by simp) rfl rfl rfl
  | stale data hx hc => exact .of_same (by simp [Out.tracked]) rfl rfl rfl
  | next hc hn =>
    rename_i id c c'
    refine .of_untracked hn.untracked (le_refl _) (fun i => ?_) (fun _ => rfl) fun i d hd hs => ?_
    · rw [set_conn]
      split_ifs with heq
      · rw [heq, hc]
        rfl
      · rfl
    · rcases of_set hd with ⟨rfl, rfl⟩ | ⟨-, hd⟩
      · refine .inr ⟨c, hc, Bool.of_not_eq_true fun hpast => ?_⟩
        rw [hn.past hpast] at hs
        cases hs
      · exact .inr ⟨d, hd, hs⟩
  | closed e hc hp hs hr | dropped hc hp hs | swept e hc hp hr hx =>
    exact .of_freed hc (by simp [count_cons]) fun _ => rfl
  | closedUdp e hc hp hr =>
    exact .of_freed hc (by simp [count_cons]) fun _ => isSome_setRelay hr
  | opened => exact .of_created (by simp) hnew fun _ => rfl
  | openedUdp hr hk hp hs hcr hip =>
    exact .of_created (by simp [countP_cons]) hnew fun _ => isSome_setRelay hr
  | abandoned =>
    constructor
    case ids => exact le_succ _
    case conns =>
      simp [countP_cons, count_cons]
    case born =>
      intro i
      by_cases heq : i = v.nextId
      · refine .inr ⟨?_, heq, heq ▸ lt_succ_self _⟩
        simp [heq]
      · refine .inl ?_
        simp [Ne.symm heq]
    case relays =>
      intro r
      simp
    case related =>
      intro r
      simp
    case early => exact fun _ c hc hs => .inr ⟨c, hc, hs⟩
  | related hc hs hp hp' hs' =>
    rename_i id c c'
    have hpast : c.state.pastRequest = false := by rw [hs]; rfl
    have hrelay : v.relay id = none := hi.relay_eq_none hc fun hboth => by
      rw [hs] at hboth
      cases hboth.2
    constructor
    case ids => exact le_refl _
    case conns =>
      intro i
      rw [setRelay_conn, set_conn]
      split_ifs with heq
      · rw [heq, hc]
        simp [held]
      · simp
    case born => exact fun i => .inl (by simp)
    case relays =>
      intro r
      rw [setRelay_relay]
      split_ifs with heq
      · rw [heq, hrelay]
        simp [held]
      · simp [Ne.symm heq]
    case related =>
      intro r
      by_cases heq : r = id
      · refine .inr ⟨by simp [heq], heq ▸ hi.fresh id c hc, ⟨c, heq ▸ hc, hpast⟩, ?_⟩
        intro d hd
        rcases of_set hd with ⟨-, rfl⟩ | ⟨hne, -⟩
        · rw [hs']
          rfl
        · exact absurd heq hne
      · simp [Ne.symm heq]
    case early =>
      intro i d hd hearly
      rcases of_set hd with ⟨-, rfl⟩ | ⟨-, hd⟩
      · rw [hs'] at hearly
        cases hearly
      · exact .inr ⟨d, hd, hearly⟩
  | unrelated hr ht =>
    rename_i r t
    obtain ⟨c, hc, -, -⟩ := hi.related r t hr
    constructor
    case ids => exact le_refl _
    case conns =>
      intro i
      rw [eraseRelay_conn, erase_conn]
      split_ifs with heq
      · rw [heq, hc]
        simp [held]
      · simp [Ne.symm heq]
    case born => exact fun i => .inl (by simp)
    case relays =>
      intro i
      rw [eraseRelay_relay]
      split_ifs with heq
      · rw [heq, hr]
        simp [held]
      · simp [Ne.symm heq]
    case related => exact fun i => .inl (by simp)
    case early => exact fun i d hd hearly => .inr ⟨d, (of_erase hd).2, hearly⟩

end Moves

/-! ## Runs -/

section Runs

variable {config : Config}

theorem ledger_inv (config : Config) (es : List Call) :
    Ledger (System.outputs ((listener config).trace (listener config).init es))
      ((listener config).exec (listener config).init es).listener.view := by
  have hstart : Ledger [] (listener config).init.listener.view :=
    ⟨fun _ => rfl, fun _ _ => rfl, fun _ => zero_le _, fun _ => rfl, fun _ => zero_le _,
      fun _ _ => rfl, fun _ _ hc => by cases hc⟩
  exact listener_any hstart (fun _ _ _ _ hi h hm => h.append (hm.balanced hi)) es

theorem useAfterFree_inv {es : List Call}
    (h : (listener config).Meets (fun r e => r.listener.dangles e = false) (listener config).init es) :
    ((listener config).exec (listener config).init es).fault ≠ some .useAfterFree := by
  have hboth := (listener config).inv_run
    (J := fun _ r => r.listener.view.Inv ∧ r.fault ≠ some .useAfterFree) ⟨empty_inv, by simp [listener]⟩ ?_ es h
  · exact hboth.2
  intro _ r e hr he
  have hstep := step_any config e hr.1
  refine ⟨hstep.reached.inv, fun hfault => ?_⟩
  cases hnone : r.fault with
  | none =>
    have hblamed : r.listener.dangles e = true := hstep.fault .useAfterFree hnone hfault
    rw [he] at hblamed
    cases hblamed
  | some f =>
    have hidle : step config r e = (r, []) := step_idle config (by rw [hnone]; simp)
    have hsame : (step config r e).1.fault = some .useAfterFree := hfault
    rw [hidle] at hsame
    exact hr.2 hsame

theorem stopped_empty {es : List Call} (slot : ConnId → ConnId)
    (h : ((listener config).exec (listener config).init es).fault = none) :
    (∀ r, ((listener config).exec (listener config).init (es ++ [.stop slot])).listener.view.relay r = none) ∧
      ∀ id, ((listener config).exec (listener config).init (es ++ [.stop slot])).listener.view.conn id = none := by
  have hi := tables_inv config es
  have hstep := step_any config (.stop slot) hi
  rw [System.exec_append]
  exact hstep.stopped slot rfl (stop_faultless hi h)

end Runs

/-- In a run in which the owner frees no TCP connection from inside its events, replies of new
associations go out, and no UDP connection is freed from inside the events of its waiting packets and
refused there: nothing is used after it was freed, each connection and each relay is freed at most once,
and once the listener is stopped, each that was created is freed. -/
theorem no_use_after_free (config : Config) (es : List Call)
    (h : (listener config).Meets (fun r e => r.listener.dangles e = false) (listener config).init es) :
    ((listener config).exec (listener config).init es).fault ≠ some .useAfterFree ∧
      (∀ id, freed id (System.outputs ((listener config).trace (listener config).init es)) ≤
          created id (System.outputs ((listener config).trace (listener config).init es)) ∧
        created id (System.outputs ((listener config).trace (listener config).init es)) ≤ 1 ∧
        relaysFreed id (System.outputs ((listener config).trace (listener config).init es)) ≤
          relaysCreated id (System.outputs ((listener config).trace (listener config).init es)) ∧
        relaysCreated id (System.outputs ((listener config).trace (listener config).init es)) ≤ 1) ∧
      (((listener config).exec (listener config).init es).fault = none → ∀ slot id,
        let outs := System.outputs ((listener config).trace (listener config).init (es ++ [.stop slot]))
        freed id outs = created id outs ∧ relaysFreed id outs = relaysCreated id outs) := by
  have hledger := ledger_inv config es
  refine ⟨useAfterFree_inv h, fun id => ⟨?_, hledger.once id, ?_, hledger.relayOnce id⟩, ?_⟩
  · rw [hledger.conns]
    exact le_add_right _ _
  · rw [hledger.relays]
    exact le_add_right _ _
  intro hnone slot id
  have hend := ledger_inv config (es ++ [.stop slot])
  obtain ⟨hrelays, hconns⟩ := stopped_empty slot hnone
  refine ⟨?_, ?_⟩
  · rw [hend.conns id, hconns]
    rfl
  · rw [hend.relays id, hrelays]
    rfl

/-- A client that asks for `1.1.1.1`, port 80, is accepted and sends a byte. -/
def connectedCalls : List Call :=
  greetedWith [5, 1, 0, 1, 1, 1, 1, 1, 0, 80] ++
    [.socket 1 (.readable false quietEnv), .complete 1 .success ⟨1080, noError⟩, .socket 1 .writeFlush,
      .turnRead 1 true, .received 1 [7]]

theorem no_use_after_free_connected :
    (listener noCredentials).Meets (fun r e => r.listener.dangles e = false) (listener noCredentials).init
        (connectedCalls ++ [.close 1 true]) ∧ ((listener noCredentials).exec (listener noCredentials).init
        (connectedCalls ++ [.close 1 true])).fault ≠ some .useAfterFree :=
  have h : (listener noCredentials).Meets (fun r e => r.listener.dangles e = false)
      (listener noCredentials).init (connectedCalls ++ [.close 1 true]) := by decide
  ⟨h, (no_use_after_free noCredentials _ h).1⟩

def lostReplyEnv : Env :=
  { quietEnv with
    reply := ⟨1080, ⟨.other (-1), ""⟩⟩
    udpSocket := some ⟨[127, 0, 0, 1], 4000⟩
    boundSize := by rintro a ⟨⟩; decide }

def relayEnv : Env := { lostReplyEnv with reply := ⟨1080, noError⟩ }

def closingEnv : Env :=
  { quietEnv with onRequest := [.close true], onRead := [{ reactions := [.close true], result := 0 }] }

/-- A relay with a UDP connection whose packet waits. -/
def relayCalls : List Call :=
  greetedWith [5, 3, 0, 1, 0, 0, 0, 0, 0, 0] ++ [.socket 1 (.readable false relayEnv),
      .udp 1 (.datagram ⟨[127, 0, 0, 1], 5000⟩ [0, 0, 0, 1, 1, 1, 1, 1, 0, 53, 9] []),
      .complete 2 .success ⟨1080, noError⟩]

/-- The reply of a new association does not go out; the owner closes a connection from inside its
request, or from inside its data; the owner closes a UDP connection from inside the event of a waiting
packet and refuses the packet. -/
theorem dangling_uses : ((listener noCredentials).exec (listener noCredentials).init
        (greetedWith [5, 3, 0, 1, 0, 0, 0, 0, 0, 0] ++ [.socket 1 (.readable false lostReplyEnv)])).fault =
          some .useAfterFree ∧ ((listener noCredentials).exec (listener noCredentials).init
        (greetedWith [5, 1, 0, 1, 1, 1, 1, 1, 0, 80] ++ [.socket 1 (.readable false closingEnv)])).fault =
          some .useAfterFree ∧ ((listener noCredentials).exec (listener noCredentials).init
        (connectedCalls ++ [.socket 1 (.readable false closingEnv)])).fault = some .useAfterFree ∧
      ((listener noCredentials).exec (listener noCredentials).init
        (relayCalls ++ [.task fun _ => [{ reactions := [.close true], result := -1 }]])).fault =
          some .useAfterFree := by
  refine ⟨?_, ?_, ?_, ?_⟩ <;> decide

end TrustTunnel.Socks5
