import TrustTunnel.Dns.Replies

/-!
# Dns.Answers

The calls of the DNS client keep the invariant, as long as they meet `Spares`.
-/

namespace TrustTunnel.Dns.Client

open Lib List

/-- The invariant, with fresh ids for what the handler has still to send. -/
structure Ready (gone : List UInt16) (c : DnsClient) : Prop where
  waiting : Waiting gone c
  fresh : Fresh c.toSend c
  few : c.toSend ≤ 65536

section Loops

variable {gone : List UInt16} {c : DnsClient} {id : UInt16} {slot : Slot}

theorem Kept.ready {c' : DnsClient} (h : Kept gone c'.toSend c c') (hm : c.toSend ≤ 65536) : Ready gone c' := by
  refine ⟨h.waiting, h.fresh, ?_⟩
  rw [DnsClient.toSend, h.handler]
  exact hm

theorem toSend_tail_le (c : DnsClient) : (c.env.handler.tail.map List.length).sum ≤ c.toSend := by
  rw [DnsClient.toSend]
  cases c.env.handler with
  | nil => exact Nat.le_refl _
  | cons rs rss =>
    exact Nat.le_add_left _ _

theorem respond_ready {data : Bytes} (h : Waiting gone { c with events := c.events ++ [.response id data c.clock] })
    (hfresh : Fresh c.toSend c) (hle : c.toSend ≤ 65536) : Ready gone (c.respond id data) :=
  (respond_kept h hfresh hle).ready (Nat.le_trans (toSend_tail_le c) hle)

/-! ## Messages -/

theorem getU16_body {m body : Bytes} (h : Wire.getU16 m = some (id, body)) : body = m.drop 2 := by
  rcases m with _ | ⟨a, _ | ⟨b, m⟩⟩
  · cases h
  · cases h
  · simp only [Wire.getU16, Option.some.injEq, Prod.mk.injEq] at h
    exact h.2.symm

theorem onMessage_short {message : Bytes} (tcp : Bool) (h : Wire.getU16 message = none) :
    c.onMessage tcp message = c.raise (.reply tcp message) := by
  rw [DnsClient.onMessage]
  simp [h]

theorem onMessage_unknown {message body : Bytes} (tcp : Bool) (h : Wire.getU16 message = some (id, body))
    (horig : c.originalIdByRequestId.lookup id = none) : c.onMessage tcp message = c.raise (.reply tcp message) := by
  rw [DnsClient.onMessage]
  simp [h, DnsClient.raise, horig]

theorem onMessage_known {message body originalId : Bytes} (tcp : Bool)
    (h : Wire.getU16 message = some (id, body)) (horig : c.originalIdByRequestId.lookup id = some originalId) :
    c.onMessage tcp message = ({ c with
      events := c.events ++ [.reply tcp message]
      originalIdByRequestId := c.originalIdByRequestId.erase id } : DnsClient).respond id (originalId ++ body) := by
  rw [DnsClient.onMessage]
  simp [h, DnsClient.raise, horig]

theorem Ready.onMessage (h : Ready [] c) (tcp : Bool) (message : Bytes) : Ready [] (c.onMessage tcp message) := by
  have hw := h.waiting
  cases hu : Wire.getU16 message with
  | none =>
    have hid : messageId message = none := by rw [messageId, hu]; rfl
    have hsame : ∀ id, digest id (c.events ++ [.reply tcp message]) = digest id c.events := fun id =>
      digest_reply_other tcp (.inl (by rw [hid]; simp))
    rw [onMessage_short tcp hu]
    exact ⟨hw.quiet trivial hsame, h.fresh, h.few⟩
  | some r =>
    obtain ⟨id, body⟩ := r
    have hid : messageId message = some id := by rw [messageId, hu]; rfl
    have hother : ∀ j, j ≠ id → digest j (c.events ++ [.reply tcp message]) = digest j c.events := fun j hj =>
      digest_reply_other tcp (.inl (by rw [hid]; exact fun heq => hj (Option.some.inj heq).symm))
    cases horig : c.originalIdByRequestId.lookup id with
    | none =>
      have hsame : ∀ j, digest j (c.events ++ [.reply tcp message]) = digest j c.events := fun j => by
        by_cases heq : j = id
        · -- the request may be deferred, and the message came before it went out
          refine digest_reply_other tcp (.inr fun slot hslot => ?_)
          rw [heq] at hslot
          obtain ⟨hnot, hmap⟩ := hw.waits id slot hslot
          rw [horig] at hmap
          obtain ⟨body, hbody⟩ := Option.isSome_iff_exists.mp (hmap.resolve_left (by simp))
          obtain ⟨slot', hslot', hsent, -⟩ := hw.deferred id body hbody hnot
          rw [hslot] at hslot'
          cases hslot'
          exact hsent
        · exact hother j heq
      rw [onMessage_unknown tcp hu horig]
      exact ⟨hw.quiet trivial hsame, h.fresh, h.few⟩
    | some originalId =>
      obtain ⟨slot, hslot, hsent, hreply, horiginal, -⟩ := hw.inFlight id originalId horig (by simp)
      have hdata : ({ slot with reply := some message }).Answer (originalId ++ body) c.clock := by
        show originalId ++ body = slot.originalId ++ message.drop 2
        rw [horiginal, getU16_body hu]
      have heach : Each Orderly (c.events ++ [.reply tcp message]) := hw.each.snoc trivial
      have hanswered := hw.answered hslot heach hother (digest_reply_self tcp hslot hid hsent hreply) hdata
      rw [onMessage_known tcp hu horig]
      exact respond_ready (hanswered.eraseInFlight (by simp) (hw.not_deferred horig) (List.Sublist.refl _)
        fun e he _ => he) h.fresh h.few

theorem takeSize_eq (c : DnsClient) : ∃ size buffer,
    c.takeSize = { c with responseSize := size, responseBuffer := buffer } := by
  unfold DnsClient.takeSize
  split
  · exact ⟨c.responseSize, c.responseBuffer, rfl⟩
  · split
    · exact ⟨c.responseSize, c.responseBuffer, rfl⟩
    · exact ⟨_, _, rfl⟩

theorem Ready.parse (n : Nat) (h : Ready [] c) : Ready [] (c.parse n) := by
  induction n generalizing c with
  | zero => exact h
  | succ n ih =>
    obtain ⟨size, buffer, htake⟩ := takeSize_eq c
    have h' : Ready [] c.takeSize := by
      rw [htake]
      exact ⟨h.waiting.congr _ rfl rfl rfl rfl rfl, h.fresh, h.few⟩
    rw [DnsClient.parse]
    cases hsize : c.takeSize.responseSize with
    | none => exact h'
    | some size =>
      simp only []
      split
      · exact h'
      · refine ih (Ready.onMessage ?_ true _)
        exact ⟨h'.waiting.congr _ rfl rfl rfl rfl rfl, h'.fresh, h'.few⟩

/-! ## The connection fails -/

theorem send_offline (request : Bytes) (hoff : c.online = false) :
    (c.send request true).originalIdByRequestId = c.originalIdByRequestId ∧
      (c.send request true).requestIdByDeadline = c.requestIdByDeadline ∧ (c.send request true).online = false := by
  rcases send_cases c request true with
    heq | ⟨-, -, ⟨honline, -⟩ | ⟨-, socket, connecting, env, -, honline, heq⟩⟩
  · rw [heq]
    exact ⟨rfl, rfl, hoff⟩
  · rw [hoff] at honline
    exact absurd (honline rfl) Bool.false_ne_true
  · rw [heq]
    exact ⟨rfl, rfl, honline.trans hoff⟩

theorem sendAll_offline (rs : List Request) (hrs : ∀ q ∈ rs, q.tcp = true ∧ c.online = false) :
    (c.sendAll rs).originalIdByRequestId = c.originalIdByRequestId ∧
      (c.sendAll rs).requestIdByDeadline = c.requestIdByDeadline ∧ (c.sendAll rs).online = c.online := by
  induction rs generalizing c with
  | nil => exact ⟨rfl, rfl, rfl⟩
  | cons r rs ih =>
    obtain ⟨htcp, hoff⟩ := hrs r (by simp)
    rw [DnsClient.sendAll, htcp]
    obtain ⟨horig, hlist, honline⟩ := send_offline (c := { c with clock := c.clock + r.elapsed }) r.bytes hoff
    obtain ⟨horig', hlist', honline'⟩ := ih fun q hq => ⟨(hrs q (by simp [hq])).1, honline⟩
    exact ⟨horig'.trans horig, hlist'.trans hlist, honline'.trans (honline.trans hoff.symm)⟩

theorem send_udp (request : Bytes) :
    (c.send request false).deferredRequestIdByDeadline = c.deferredRequestIdByDeadline ∧
      (c.send request false).deferredRequestByRequestId = c.deferredRequestByRequestId := by
  rcases send_cases c request false with heq | ⟨-, -, ⟨-, room, heq⟩ | ⟨htcp, -⟩⟩
  · rw [heq]
    exact ⟨rfl, rfl⟩
  · rw [heq]
    exact ⟨rfl, rfl⟩
  · cases htcp

theorem sendAll_udp (rs : List Request) (hrs : ∀ q ∈ rs, q.tcp = false) :
    (c.sendAll rs).deferredRequestIdByDeadline = c.deferredRequestIdByDeadline ∧
      (c.sendAll rs).deferredRequestByRequestId = c.deferredRequestByRequestId := by
  induction rs generalizing c with
  | nil => exact ⟨rfl, rfl⟩
  | cons r rs ih =>
    rw [DnsClient.sendAll, hrs r (by simp)]
    obtain ⟨hlist, hmap⟩ := send_udp r.bytes
    obtain ⟨hlist', hmap'⟩ := ih fun q hq => hrs q (by simp [hq])
    exact ⟨hlist'.trans hlist, hmap'.trans hmap⟩

theorem forall_headD {p : Request → Prop} {l : List (List Request)} (h : ∀ rs ∈ l, ∀ q ∈ rs, p q) :
    ∀ q ∈ l.headD [], p q := by
  cases l with
  | nil => simp
  | cons rs rss => exact h rs mem_cons_self

def Failed (c : DnsClient) (id : UInt16) : Prop :=
  ∃ slot, digest id c.events = some slot ∧ slot.reply = none ∧ slot.tcp = true ∧ slot.failed = true

theorem Ready.fail (h : Ready gone c) (hid : Failed c id) :
    Ready (id :: gone) (c.respond id []) ∧ (c.respond id []).env.handler = c.env.handler.tail ∧
      ∀ j, j ≠ id → Failed c j → Failed (c.respond id []) j := by
  obtain ⟨slot, hslot, hreply, htcp, hfailed⟩ := hid
  have hdata : slot.Answer [] c.clock := by
    rw [Slot.Answer, hreply]
    exact ⟨rfl, .inr ⟨htcp, hfailed⟩⟩
  have hanswered := h.waiting.answered hslot h.waiting.each (fun _ _ => rfl) hslot hdata
  have hkept := respond_kept hanswered h.fresh h.few
  refine ⟨respond_ready hanswered h.fresh h.few, hkept.handler, fun j hj hfail => ?_⟩
  obtain ⟨slot', hslot', hrest⟩ := hfail
  exact ⟨slot', hkept.digest j slot' ((digest_response_other (Ne.symm hj) _ _).trans hslot'), hrest⟩

theorem Ready.failAll (todo : List UInt16) (h : Ready gone c) (hfail : ∀ id ∈ todo, Failed c id)
    (hnodup : todo.Nodup) (hmap : ∀ id, (c.originalIdByRequestId.lookup id).isSome = true ↔
      id ∈ gone ∨ id ∈ todo)
    (hoff : c.online = false) (htcp : ∀ rs ∈ c.env.handler, ∀ q ∈ rs, q.tcp = true) :
    ∃ gone', Ready gone' (c.failAll todo) ∧
      ∀ id, ((c.failAll todo).originalIdByRequestId.lookup id).isSome = true ↔ id ∈ gone' := by
  induction todo generalizing c gone with
  | nil => exact ⟨gone, h, fun id => by rw [DnsClient.failAll, hmap id]; simp⟩
  | cons id todo ih =>
    obtain ⟨hready, hhandler, hothers⟩ := h.fail (hfail id (by simp))
    obtain ⟨hnot, hnodup'⟩ := nodup_cons.mp hnodup
    obtain ⟨horig, -, honline⟩ := sendAll_offline (c := { c with
      events := c.events ++ [.response id [] c.clock]
      env := { c.env with handler := c.env.handler.tail } }) _ fun q hq => ⟨forall_headD htcp q hq, hoff⟩
    refine ih hready (fun j hj => hothers j (fun heq => hnot (heq ▸ hj)) (hfail j (by simp [hj]))) hnodup'
      (fun j => ?_) (honline.trans hoff) fun rs hrs => ?_
    · have hsame : (c.respond id []).originalIdByRequestId = c.originalIdByRequestId := horig
      rw [hsame, hmap j]
      simp only [mem_cons]
      tauto
    · rw [hhandler] at hrs
      exact htcp rs (mem_of_mem_tail hrs)

theorem Ready.failDeferred (n i : Nat) (h : Ready gone c) (hn : c.deferredRequestIdByDeadline.length ≤ n + i)
    (hfail : ∀ e ∈ c.deferredRequestIdByDeadline.drop i, Failed c e.2)
    (hmap : ∀ id, id ∈ gone ↔ id ∈ (c.deferredRequestIdByDeadline.take i).map Prod.snd)
    (hudp : ∀ rs ∈ c.env.handler, ∀ q ∈ rs, q.tcp = false) :
    ∃ gone', Ready gone' (DnsClient.failDeferred n i c) ∧
      ∀ id, ((DnsClient.failDeferred n i c).deferredRequestByRequestId.lookup id).isSome = true ↔ id ∈ gone' := by
  have hdone : ∀ {c gone i}, Ready gone c → c.deferredRequestIdByDeadline.length ≤ i →
      (∀ id, id ∈ gone ↔ id ∈ (c.deferredRequestIdByDeadline.take i).map Prod.snd) →
      ∀ id, (c.deferredRequestByRequestId.lookup id).isSome = true ↔ id ∈ gone := by
    intro c gone i h hlen hmap id
    rw [hmap id, take_of_length_le hlen, ← h.waiting.deferredEntry id, mem_map]
  induction n generalizing c gone i with
  | zero =>
    have hlen : c.deferredRequestIdByDeadline.length ≤ i := by omega
    exact ⟨gone, h, hdone h hlen hmap⟩
  | succ n ih =>
    cases hget : c.deferredRequestIdByDeadline[i]? with
    | none =>
      rw [DnsClient.failDeferred]
      simp only [hget]
      exact ⟨gone, h, hdone h (List.getElem?_eq_none_iff.mp hget) hmap⟩
    | some e =>
      obtain ⟨deadline, id⟩ := e
      have hdrop : c.deferredRequestIdByDeadline.drop i =
          (deadline, id) :: c.deferredRequestIdByDeadline.drop (i + 1) :=
        drop_eq_getElem?_toList_append.trans (by rw [hget]; rfl)
      have htake : c.deferredRequestIdByDeadline.take (i + 1) =
          c.deferredRequestIdByDeadline.take i ++ [(deadline, id)] := by
        rw [take_add_one, hget]
        rfl
      have hnodup := h.waiting.nodup
      rw [← take_append_drop i c.deferredRequestIdByDeadline, hdrop, map_append] at hnodup
      have hlater := (nodup_cons.mp (nodup_append.mp hnodup).2.1).1
      obtain ⟨hready, hhandler, hothers⟩ := h.fail (hfail (deadline, id) (by rw [hdrop]; simp))
      have hsame : (c.respond id []).deferredRequestIdByDeadline = c.deferredRequestIdByDeadline :=
        (sendAll_udp _ (forall_headD hudp)).1
      have hstep : DnsClient.failDeferred (n + 1) i c = DnsClient.failDeferred n (i + 1) (c.respond id []) := by
        rw [DnsClient.failDeferred]
        simp [hget]
      rw [hstep]
      refine ih (i + 1) hready (by rw [hsame]; omega) (fun e he => ?_) (fun j => ?_) fun rs hrs => ?_
      · rw [hsame] at he
        refine hothers e.2 (fun heq => hlater (mem_map.mpr ⟨e, he, heq⟩)) (hfail e ?_)
        rw [hdrop]
        exact mem_cons_of_mem _ he
      · rw [hsame, htake, map_append, mem_append, ← hmap j]
        simp [or_comm]
      · rw [hhandler] at hrs
        exact hudp rs (mem_of_mem_tail hrs)

theorem Waiting.failed (h : Waiting gone c) : Waiting gone { c with events := c.events ++ [.failed] } :=
  h.alike (h.each.snoc trivial) (fun id => by rw [digest_failed, Alike, Option.map_map]; rfl)
    fun id => by rw [digest_failed, Alike, Option.map_map]; rfl

theorem Waiting.connected (h : Waiting gone c) : Waiting gone { c with events := c.events ++ [.connected] } :=
  h.alike (h.each.snoc trivial) (fun id => by rw [digest_connected, Alike, Option.map_map]; rfl)
    fun id => by rw [digest_connected, Alike, Option.map_map]; rfl

theorem Ready.onDisconnected (h : Ready [] c)
    (hinFlight : ∀ id originalId slot, c.originalIdByRequestId.lookup id = some originalId →
      digest id c.events = some slot → slot.tcp = true)
    (htcp : ∀ rs ∈ c.env.handler, ∀ q ∈ rs, q.tcp = true) : Waiting [] c.onDisconnected := by
  let c₁ : DnsClient := { c with tcpSocket := false, events := c.events ++ [.failed] }
  have h₁ : Ready [] c₁ := ⟨h.waiting.failed.congr c₁ rfl rfl rfl rfl rfl, h.fresh, h.few⟩
  have hfail : ∀ id ∈ c.originalIdByRequestId.keys, Failed c₁ id := fun id hid => by
    obtain ⟨originalId, horig⟩ := Option.isSome_iff_exists.mp (AList.lookup_isSome.mpr hid)
    obtain ⟨slot, hslot, -, hreply, -⟩ := h.waiting.inFlight id originalId horig (by simp)
    refine ⟨{ slot with failed := true }, ?_, hreply, hinFlight id originalId slot horig hslot, rfl⟩
    rw [digest_failed, hslot]
    rfl
  have hmap : ∀ id, (c₁.originalIdByRequestId.lookup id).isSome = true ↔
      id ∈ [] ∨ id ∈ c.originalIdByRequestId.keys := fun id => by
    rw [AList.lookup_isSome]
    exact ⟨.inr, fun h => h.resolve_left (by simp)⟩
  obtain ⟨gone, hready, hall⟩ := h₁.failAll _ hfail c.originalIdByRequestId.nodupKeys hmap (by rfl) htcp
  have hcleared := hready.waiting.clearInFlight hall
  have heq : c.onDisconnected = if (c₁.failAll c.originalIdByRequestId.keys).deferredRequestIdByDeadline.isEmpty then
        { c₁.failAll c.originalIdByRequestId.keys with requestIdByDeadline := [], originalIdByRequestId := ∅ }
      else DnsClient.connectSocket
        { c₁.failAll c.originalIdByRequestId.keys with requestIdByDeadline := [], originalIdByRequestId := ∅ } :=
    rfl
  rw [heq]
  split
  · exact hcleared
  · exact hcleared.congr _ rfl rfl rfl rfl rfl

theorem Ready.connectFailed (h : Ready [] c) (hudp : ∀ rs ∈ c.env.handler, ∀ q ∈ rs, q.tcp = false) :
    Waiting [] (c.onConnected false) := by
  let c₁ : DnsClient := { c with
    tcpSocketIsConnecting := false
    tcpSocket := false
    events := c.events ++ [.failed] }
  have h₁ : Ready [] c₁ := ⟨h.waiting.failed.congr c₁ rfl rfl rfl rfl rfl, h.fresh, h.few⟩
  have hfail : ∀ e ∈ c₁.deferredRequestIdByDeadline.drop 0, Failed c₁ e.2 := fun e he => by
    have he' : e ∈ c.deferredRequestIdByDeadline := he
    obtain ⟨body, hbody⟩ := Option.isSome_iff_exists.mp ((h.waiting.deferredEntry e.2).mp ⟨e, he', rfl⟩)
    obtain ⟨slot, hslot, -, hreply, htcp, -⟩ := h.waiting.deferred e.2 body hbody (by simp)
    refine ⟨{ slot with failed := true }, ?_, hreply, htcp, rfl⟩
    rw [digest_failed, hslot]
    rfl
  obtain ⟨gone, hready, hall⟩ := h₁.failDeferred (c₁.deferredRequestIdByDeadline.length + c₁.toSend) 0
    (by omega) hfail (fun id => by simp) hudp
  exact hready.waiting.clearDeferred hall

/-! ## The connection is made -/

theorem Waiting.sendDeferred (list : List (Nat × UInt16)) (h : Waiting [] c)
    (hlist : c.deferredRequestIdByDeadline = list) : Waiting [] (c.sendDeferred list) := by
  induction list generalizing c with
  | nil => exact h
  | cons e rest ih =>
    obtain ⟨deadline, id⟩ := e
    obtain ⟨body, hbody⟩ := Option.isSome_iff_exists.mp
      ((h.deferredEntry id).mp ⟨(deadline, id), by rw [hlist]; simp, rfl⟩)
    rw [DnsClient.sendDeferred]
    simp only [hbody, Option.getD_some]
    rcases sendRequest_cases c body id true with ⟨-, room, heq⟩ | ⟨-, socket, connecting, env, -, -, heq⟩
    · simp only [heq]
      exact ih (h.moved hlist hbody (by simp) room) rfl
    · simp only [heq]
      exact h.congr _ rfl rfl rfl rfl rfl

end Loops

end TrustTunnel.Dns.Client
