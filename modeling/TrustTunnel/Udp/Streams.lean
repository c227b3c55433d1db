import TrustTunnel.Udp.Table

/-!
# Udp.Streams

The streams a multiplexer has one after the other. What `close` raises for a connection is the error
kept from a refused response, if there is one; `reset` restores every field but this one, so the
refusal of one stream is raised again when a later one is closed.
-/

namespace TrustTunnel.Udp

open Lib List

namespace Mux

/-- The error of the stream at hand after one more call: a response of its own other than 200. -/
def nextError (own : Option VpnError) (r : Record Mux Call Output) : Option VpnError :=
  match r.call with
  | .response statusCode =>
    if r.before.state = .established ∧ statusCode ≠ 200 then
      some ⟨.connRefused, "HTTP stream creation failed"⟩
    else own
  | .close _ => none
  | _ => own

/-- The error that the stream at hand has got from its own responses. -/
def streamError (h : List (Record Mux Call Output)) : Option VpnError := h.foldl nextError none

/-- What is raised for the connection `id` when its stream ends with `servErr`, having got `error`. -/
def closing (error : Option VpnError) (servErr : VpnError) (id : ConnId) : Output :=
  match error.or (if servErr.code ≠ .noError then some servErr else none) with
  | some e => .raised (.error id e)
  | none => .raised (.connectionClosed id)

def startsStream (m : Mux) : Call → Bool
  | .openConnection _ _ ⟨_, .sock _⟩ _ (some _) => m.state = .idle
  | _ => false

variable {m m' : Mux} {error : Option VpnError}

theorem idle_of_startsStream {c : Call} (hc : m.startsStream c = true) : m.state = .idle := by
  unfold startsStream at hc
  split at hc
  · exact of_decide_eq_true hc
  · cases hc

theorem close_outputs (m : Mux) (servErr : VpnError) :
    (m.close servErr).2 = m.connections.keys.map (closing m.pendingError servErr) := by
  have hone : ∀ id s, (closeOne (m.pendingError.or (if servErr.code ≠ .noError then some servErr else none))
      id s).2 = [closing m.pendingError servErr id] := by
    intro id s
    unfold closeOne closing
    cases m.pendingError.or _ <;> rfl
  have hloop : ∀ (ids : List ConnId) (s : Mux), (forEach (closeOne (m.pendingError.or
      (if servErr.code ≠ .noError then some servErr else none))) ids s).2
        = ids.map (closing m.pendingError servErr) := by
    intro ids
    induction ids with
    | nil => exact fun _ => rfl
    | cons id ids ih =>
      intro s
      rw [forEach, andDo_snd, hone, ih]
      rfl
  rw [close, andDo_snd, hloop]
  exact append_nil _

structure Owned (error : Option VpnError) (m : Mux) : Prop where
  idle : m.state = .idle → (∀ id, m.connections.lookup id = none) ∧ error = none
  own : m.state = .established → m.pendingError = error

structure Keeps (m m' : Mux) : Prop where
  state : m'.state = m.state
  pendingError : m'.pendingError = m.pendingError
  empty : (∀ id, m.connections.lookup id = none) → ∀ id, m'.connections.lookup id = none

theorem keeps_change (hc : Change m m') : Keeps m m' := by
  have hmodify : ∀ j f, (∀ id, m.connections.lookup id = none) →
      ∀ id, (m.connections.modify j f).lookup id = none := by
    intro j f h id
    rw [Map.lookup_modify_eq, h, h]
    exact ite_self _
  cases hc with
  | edit id f _ => exact ⟨rfl, rfl, hmodify id f⟩
  | clean id =>
    unfold cleanConnectionData
    split
    · exact ⟨rfl, rfl, fun h => h⟩
    · refine ⟨rfl, rfl, fun h j => ?_⟩
      rw [Map.lookup_erase_eq, h]
      exact ite_self _
  | complete id =>
    unfold completeUdpConnection
    split
    · exact ⟨rfl, rfl, hmodify id _⟩
    · exact ⟨rfl, rfl, fun h => h⟩
  | reorder hconn =>
    refine ⟨rfl, rfl, fun h => ?_⟩
    rw [h] at hconn
    cases hconn

theorem keeps_changes (hc : Changes m m') : Keeps m m' := by
  refine Changes.inv (fun t t' ht htt' => ?_) ⟨rfl, rfl, fun h => h⟩ hc
  have hk := keeps_change htt'
  exact ⟨hk.state.trans ht.state, hk.pendingError.trans ht.pendingError, fun h => hk.empty (ht.empty h)⟩

theorem keeps_data (m : Mux) (now : Nat) (bytes : Bytes) : Keeps m (m.step (.data now bytes)).1 := by
  simp only [step]
  split
  · cases hp : m.processReadEvent now bytes with
    | none => exact ⟨rfl, rfl, fun h => h⟩
    | some p =>
      obtain ⟨m1, hm1, hm'⟩ := changes_data hp
      have hk := keeps_changes hm1
      rw [Option.getD_some, hm']
      exact ⟨hk.state, hk.pendingError, hk.empty⟩
  · exact ⟨rfl, rfl, fun h => h⟩

theorem Owned.keep (ho : Owned error m) (hk : Keeps m m') : Owned error m' := by
  refine ⟨fun hs => ?_, fun hs => ?_⟩
  · rw [hk.state] at hs
    exact ⟨hk.empty (ho.idle hs).1, (ho.idle hs).2⟩
  · rw [hk.state] at hs
    exact hk.pendingError.trans (ho.own hs)

theorem streamError_append (h : List (Record Mux Call Output)) (r : Record Mux Call Output) :
    streamError (h ++ [r]) = nextError (streamError h) r := by
  rw [streamError, foldl_append]
  rfl

theorem openConnection_cases (m : Mux) (now : Nat) (id : ConnId) (addr : TunnelAddressPair)
    (appName : Bytes) (stream : Option Nat) : (m.openConnection now id addr appName stream).1 = m ∨
      (m.openConnection now id addr appName stream).1.state = .established ∧
      (m.openConnection now id addr appName stream).1.pendingError = m.pendingError ∧
      (m.state = .established ∨ m.startsStream (.openConnection now id addr appName stream) = true) := by
  unfold openConnection
  split
  · exact .inl rfl
  rename_i dst hdst
  split
  · exact .inl rfl
  split
  · exact .inl rfl
  · rename_i streamId hs
    obtain ⟨src, dst⟩ := addr
    cases hdst
    exact .inr ⟨rfl, rfl, .inr (by rw [startsStream, hs]; rfl)⟩
  · rename_i hs
    exact .inr ⟨hs, rfl, .inl hs⟩

theorem startsStream_opens (error : Option VpnError) (hempty : ∀ id, m.connections.lookup id = none)
    {c : Call} (hc : m.startsStream c = true) :
    (m.step c).1.pendingError = m.pendingError ∧ (m.step c).1.connections.keys ≠ [] ∧
      nextError error (system.record m c) = error := by
  have hidle := idle_of_startsStream hc
  unfold startsStream at hc
  split at hc
  · rename_i now id src dst appName streamId
    simp only [step, openConnection, hempty, hidle, Option.isSome_none, Bool.false_eq_true, if_false]
    refine ⟨trivial, fun hkeys => ?_, rfl⟩
    have hmem : id ∉ m.connections.emplace id ⟨false, ⟨src, .sock dst⟩, appName, 0, now + udpTimeout,
        true, false⟩ := by
      rw [AList.mem_keys, hkeys]
      exact not_mem_nil
    rw [← AList.lookup_eq_none, Map.lookup_emplace_new (hempty id), if_pos rfl] at hmem
    cases hmem
  · cases hc

theorem owned_step (ho : Owned error m) {c : Call} (hc : m.startsStream c = true → m.pendingError = none) :
    Owned (nextError error (system.record m c)) (m.step c).1 := by
  cases hplain : plain c with
  | true =>
    have herror : nextError error (system.record m c) = error := by
      cases c <;> first | rfl | cases hplain
    rw [herror]
    exact ho.keep (keeps_changes (changes_step m hplain))
  | false =>
    cases c with
    | openConnection now id addr appName stream =>
      change Owned error (m.openConnection now id addr appName stream).1
      obtain hsame | ⟨hstate, hpending, hbefore⟩ := openConnection_cases m now id addr appName stream
      · rw [hsame]
        exact ho
      refine ⟨fun hs => absurd (hs.symm.trans hstate) (by decide), fun _ => ?_⟩
      rw [hpending]
      rcases hbefore with hs | hstarts
      · exact ho.own hs
      · rw [hc hstarts, (ho.idle (idle_of_startsStream hstarts)).2]
    | response statusCode =>
      by_cases hs : m.state = .established
      · by_cases hcode : statusCode = 200
        · simpa [step, handleResponse, nextError, System.record, hcode] using ho
        · simp only [step, hs, handleResponse, nextError, System.record, hcode, ne_eq]
          exact ⟨fun hidle => (by cases hidle), fun _ => rfl⟩
      · simpa [step, hs, nextError, System.record] using ho
    | data now bytes => exact ho.keep (keeps_data m now bytes)
    | close servErr => exact ⟨fun _ => ⟨close_empty m servErr, rfl⟩, fun hs => by cases hs⟩
    | _ => cases hplain

theorem keys_eq_nil (hempty : ∀ id, m.connections.lookup id = none) : m.connections.keys = [] := by
  refine eq_nil_iff_forall_not_mem.mpr fun id => ?_
  rw [← AList.mem_keys, ← AList.lookup_eq_none]
  exact hempty id

/-- At every point of a run, ending the stream would raise the events that its own responses and the
error it ends with call for. -/
theorem own_events_iff (calls : List Call) :
    system.Meets (fun m c => m.startsStream c = true → m.pendingError = none) init calls ↔
      ∀ n servErr, ((system.exec init (calls.take n)).close servErr).2 =
        (system.exec init (calls.take n)).connections.keys.map
          (closing (streamError (system.trace init (calls.take n))) servErr) := by
  refine system.meets_iff_forall_take (P := fun es => ∀ servErr, ((system.exec init es).close servErr).2 =
    (system.exec init es).connections.keys.map (closing (streamError (system.trace init es)) servErr))
    (fun servErr => close_outputs _ _) (fun es c hes _ => ?_) calls
  have ho : Owned (streamError (system.trace init es)) (system.exec init es) :=
    system.inv_run ⟨fun _ => ⟨fun _ => rfl, rfl⟩, fun hs => by cases hs⟩
      (fun h s e ho hc => streamError_append h _ ▸ owned_step ho hc) es hes
  rw [system.trace_append, system.exec_append]
  generalize system.exec init es = m at ho
  change (∀ servErr, ((m.step c).1.close servErr).2 = (m.step c).1.connections.keys.map
    (closing (streamError (system.trace init es ++ [system.record m c])) servErr)) ↔ _
  rw [streamError_append]
  generalize streamError (system.trace init es) = error at ho
  constructor
  · intro hown hstarts
    obtain ⟨hempty, hnone⟩ := ho.idle (idle_of_startsStream hstarts)
    obtain ⟨hpending, hkeys, herror⟩ := startsStream_opens error hempty hstarts
    cases hp : m.pendingError with
    | none => rfl
    | some e =>
      -- closed without an error, the new stream raises the one that was kept
      obtain ⟨id, ids, hids⟩ := exists_cons_of_ne_nil hkeys
      have hclose := hown ⟨.noError, ""⟩
      rw [close_outputs, herror, hnone, hpending, hp, hids] at hclose
      cases hclose
  · intro hc servErr
    have ho' := owned_step ho hc
    rw [close_outputs]
    cases hs : (m.step c).1.state with
    | idle => rw [keys_eq_nil (ho'.idle hs).1, map_nil, map_nil]
    | established => rw [ho'.own hs]

/-- A stream is refused and ends, and a second one is opened and accepted. -/
def refusedThenAccepted : List Call :=
  [.openConnection 0 1 anyPair [] (some 3), .response 404, .close ⟨.noError, ""⟩,
    .openConnection 0 2 anyPair [] (some 5), .response 200]

theorem refusal_raised_again : ((system.exec init refusedThenAccepted).close ⟨.noError, ""⟩).2
      = [.raised (.error 2 ⟨.connRefused, "HTTP stream creation failed"⟩)] := by
  decide +kernel

end Mux
end TrustTunnel.Udp
