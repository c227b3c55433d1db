import TrustTunnel.Udp.Receive

/-!
# Udp.Table

The two tables of the multiplexer: connections by id, and ids by address pair. Incoming packets find
their connection through the second.

Erasing a connection erases the entry of its address pair, whoever the entry leads to. With two
connections of the same pair the entry leads to the one that was established last, and closing the
other one cuts it off.
-/

namespace TrustTunnel.Udp

open Lib

namespace Mux

/-- The entry of every established connection leads to it. -/
def Routed (m : Mux) : Prop :=
  ∀ id conn, m.connections.lookup id = some conn → conn.openTask = false → m.addrToId.lookup conn.addr = some id

/-- The call opens no connection with the address pair of another one. -/
def opensApart (m : Mux) : Call → Bool
  | .openConnection _ _ addr _ _ => m.connections.entries.all fun e => e.2.addr != addr
  | _ => true

structure Apart (m : Mux) : Prop where
  pairs : ∀ i j c d, m.connections.lookup i = some c → m.connections.lookup j = some d → c.addr = d.addr → i = j
  routed : m.Routed

/-! ## Operations -/

variable {m : Mux} {f : Connection → Connection}

theorem apart_of_empty (h : ∀ id, m.connections.lookup id = none) : m.Apart := by
  constructor
  · intro i j c d hi
    rw [h] at hi
    cases hi
  · intro id conn hid
    rw [h] at hid
    cases hid

theorem addr_ite (hf : ∀ c, (f c).addr = c.addr) (p : Prop) [Decidable p] (c : Connection) :
    (if p then f c else c).addr = c.addr := by
  split
  · exact hf c
  · rfl

section

variable (h : m.Apart) (id : ConnId)
include h

theorem pairs_modify (hf : ∀ c, (f c).addr = c.addr) : ∀ i j c d, (m.connections.modify id f).lookup i = some c →
      (m.connections.modify id f).lookup j = some d → c.addr = d.addr → i = j := by
  intro i j c d hi hj hcd
  obtain ⟨c', hc', rfl⟩ := Map.of_lookup_modify hi
  obtain ⟨d', hd', rfl⟩ := Map.of_lookup_modify hj
  rw [addr_ite hf, addr_ite hf] at hcd
  exact h.pairs i j c' d' hc' hd' hcd

theorem apart_edit (hf : ∀ c, (f c).addr = c.addr ∧ (f c).openTask = c.openTask) :
    ({ m with connections := m.connections.modify id f } : Mux).Apart := by
  refine ⟨pairs_modify h id fun c => (hf c).1, ?_⟩
  intro j c hj htask
  obtain ⟨d, hd, rfl⟩ := Map.of_lookup_modify hj
  rw [addr_ite fun c => (hf c).1]
  refine h.routed j d hd ?_
  split at htask
  · exact (hf d).2.symm.trans htask
  · exact htask

theorem apart_clean : (m.cleanConnectionData id).Apart := by
  unfold cleanConnectionData
  split
  · exact h
  rename_i conn hid
  constructor
  · intro i j c d hi hj
    exact h.pairs i j c d (Map.of_lookup_erase hi).2 (Map.of_lookup_erase hj).2
  intro j c hj htask
  obtain ⟨hne, hc⟩ := Map.of_lookup_erase hj
  -- the erased entry is not this one's, whose pair is another
  have haddr : c.addr ≠ conn.addr := fun heq => hne (h.pairs j id c conn hc hid heq)
  rw [Map.lookup_erase_eq, if_neg haddr]
  exact h.routed j c hc htask

theorem apart_complete : (m.completeUdpConnection id).1.Apart := by
  unfold completeUdpConnection
  split
  · rename_i conn _ hid
    refine ⟨pairs_modify h id fun _ => rfl, ?_⟩
    intro j c hj htask
    obtain ⟨d, hd, rfl⟩ := Map.of_lookup_modify hj
    rw [addr_ite (f := fun c => { c with openTask := false }) fun _ => rfl, Map.lookup_insert_eq]
    split
    · rename_i heq
      rw [h.pairs j id d conn hd hid heq]
    rename_i hne
    have hjid : j ≠ id := by
      intro heq
      rw [heq, hid] at hd
      cases hd
      exact hne rfl
    rw [if_neg hjid] at htask
    exact h.routed j d hd htask
  · exact h

end

theorem apart_openConnection (h : m.Apart) {now : Nat} {id : ConnId} {addr : TunnelAddressPair}
    {appName : Bytes} {stream : Option Nat}
    (hapart : m.opensApart (.openConnection now id addr appName stream) = true) :
    (m.openConnection now id addr appName stream).1.Apart := by
  have hnew : ∀ j c, m.connections.lookup j = some c → c.addr ≠ addr := by
    intro j c hj
    simp only [opensApart, List.all_eq_true, bne_iff_ne] at hapart
    exact hapart ⟨j, c⟩ (List.of_mem_dlookup hj)
  -- the new connection is not established yet, and its pair is its own
  have hadd : ∀ (m' : Mux) (conn : Connection), (m.connections.lookup id).isSome = false →
      conn.addr = addr → conn.openTask = true → m'.addrToId = m.addrToId →
      m'.connections = m.connections.emplace id conn → m'.Apart := by
    intro m' conn hfree haddr htask haddrs hconns
    have hnone : m.connections.lookup id = none := by simpa using hfree
    have hlook : ∀ j, m'.connections.lookup j = if j = id then some conn else m.connections.lookup j := by
      intro j
      rw [hconns, Map.lookup_emplace_new hnone]
    constructor
    · intro i j c d hi hj hcd
      rw [hlook] at hi hj
      split at hi <;> split at hj
      · rename_i hi' hj'
        rw [hi', hj']
      · cases hi
        exact absurd (hcd.symm.trans haddr) (hnew j d hj)
      · cases hj
        exact absurd (hcd.trans haddr) (hnew i c hi)
      · exact h.pairs i j c d hi hj hcd
    · intro j c hj hdone
      rw [hlook] at hj
      split at hj
      · cases hj
        rw [htask] at hdone
        cases hdone
      · rw [haddrs]
        exact h.routed j c hj hdone
  unfold openConnection
  split
  · exact h
  split_ifs with hfree
  · exact h
  have hfree' : (m.connections.lookup id).isSome = false := by simpa using hfree
  split
  · exact h
  all_goals exact hadd _ _ hfree' rfl rfl rfl rfl

theorem apart_change {m' : Mux} (h : m.Apart) (hc : Change m m') : m'.Apart := by
  cases hc with
  | edit id f hf => exact apart_edit h id hf
  | clean id => exact apart_clean h id
  | complete id => exact apart_complete h id
  | reorder hconn =>
    have hsame := Map.lookup_reinsert hconn
    exact ⟨fun i j c d hi hj => h.pairs i j c d (hsame i ▸ hi) (hsame j ▸ hj),
      fun j c hj => h.routed j c (hsame j ▸ hj)⟩

theorem closed_connections (error : Option VpnError) (ids : List ConnId) (id : ConnId) :
    (forEach (closeOne error) ids m).1.connections.lookup id
      = if id ∈ ids then none else m.connections.lookup id := by
  induction ids generalizing m with
  | nil => simp [forEach]
  | cons i ids ih =>
    have hclean : (m.cleanConnectionData i).connections.lookup id
        = if id = i then none else m.connections.lookup id := by
      unfold cleanConnectionData
      split
      · rename_i hnone
        split_ifs with heq
        · rw [heq, hnone]
        · rfl
      · exact Map.lookup_erase_eq _ _ _
    simp only [forEach, andDo, closeOne, ih, hclean]
    by_cases h1 : id ∈ ids <;> by_cases h2 : id = i <;> simp [h1]

theorem close_empty (m : Mux) (servErr : VpnError) (id : ConnId) :
    (m.close servErr).1.connections.lookup id = none := by
  change (forEach (closeOne _) m.connections.keys m).1.connections.lookup id = none
  rw [closed_connections]
  split_ifs with hid
  · rfl
  · exact AList.lookup_eq_none.mpr hid

/-! ## Runs -/

theorem apart_step (h : m.Apart) {c : Call} (hc : m.opensApart c = true) : (m.step c).1.Apart := by
  cases hplain : plain c with
  | true => exact Changes.inv (fun _ _ => apart_change) h (changes_step m hplain)
  | false =>
    cases c with
    | openConnection now id addr appName stream => exact apart_openConnection h hc
    | response statusCode =>
      simp only [step, handleResponse]
      repeat' split
      all_goals exact ⟨h.pairs, h.routed⟩
    | data now bytes =>
      simp only [step]
      split
      · cases hp : m.processReadEvent now bytes with
        | none => exact h
        | some p =>
          obtain ⟨m1, hm1, hm'⟩ := changes_data hp
          have h1 := Changes.inv (fun _ _ => apart_change) h hm1
          rw [Option.getD_some, hm']
          exact ⟨h1.pairs, h1.routed⟩
      · exact h
    | close servErr => exact apart_of_empty (close_empty m servErr)
    | _ => cases hplain

/-- Every established connection has its entry, in every state of such a run. -/
theorem routed_run (calls : List Call) (hmeets : system.Meets (fun m c => m.opensApart c = true) init calls) :
    (system.exec init calls).Routed := by
  have hrun := system.inv_run (J := fun _ m => m.Apart)
    (apart_of_empty fun _ => rfl) (fun _ _ _ h hc => apart_step h hc) calls hmeets
  exact hrun.routed

/-- Two connections are established, the second with the pair `second`; the first is closed. -/
def closeFirst (second : TunnelAddressPair) : List Call :=
  [.openConnection 0 1 anyPair [] (some 3), .openTask 1, .openConnection 0 2 second [] none,
    .openTask 2, .closeConnection 1 false]

def otherPair : TunnelAddressPair := ⟨⟨[1, 1, 1, 1], 7⟩, .sock ⟨[2, 2, 2, 2], 2⟩⟩

theorem routed_otherPair : (system.exec init (closeFirst otherPair)).Routed :=
  routed_run (closeFirst otherPair) (by decide +kernel)

/-- Both connections have the same pair: the second is established and has no entry. -/
theorem closed_other_unroutes : ¬ (system.exec init (closeFirst anyPair)).Routed := by
  intro h
  have hentry := h 2 ⟨false, anyPair, [], 0, udpTimeout, false, false⟩ (by decide +kernel) rfl
  exact absurd hentry (by decide +kernel)

end Mux
end TrustTunnel.Udp
