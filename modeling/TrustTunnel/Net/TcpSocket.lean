import TrustTunnel.Core.Types

/-!
# Net.TcpSocket

Reading from a TCP socket (`net/src/tcp_socket.cpp`): what was decrypted with the handshake comes first, then
the input buffer of `bev`.

`tcp_socket_drain` leaves the loop over the decrypted buffers with the count it came with, and takes that much
off the input buffer as well.
-/

open List

namespace TrustTunnel.Net

structure TcpSocket where
  /-- `ssl_pending`; `on_read` keeps no empty buffer -/
  sslPending : List Bytes
  /-- the extents of the input buffer, if there is a `bev` -/
  input : Option (List Bytes)
  gotEof : Bool
  filled : ∀ b ∈ sslPending ++ input.getD [], b ≠ []

inductive PeekResult where
  | chunk (bytes : Bytes)
  | eof
  | noData

def evbufferDrain : Nat → List Bytes → List Bytes
  | _, [] => []
  | n, b :: l => if b.length ≤ n then evbufferDrain (n - b.length) l else b.drop n :: l

/-- The loop of `tcp_socket_drain`, with the count it leaves. -/
def drainPending : Nat → List Bytes → List Bytes × Nat
  | 0, l => (l, 0)
  | n, [] => ([], n)
  | n + 1, b :: l => if b.length ≤ n + 1 then drainPending (n + 1 - b.length) l else (b.drop (n + 1) :: l, n + 1)

variable {n : Nat} {l : List Bytes}

theorem filled_evbufferDrain (h : ∀ b ∈ l, b ≠ []) : ∀ b ∈ evbufferDrain n l, b ≠ [] := by
  induction l generalizing n with
  | nil => exact h
  | cons b l ih =>
    obtain ⟨hb, hl⟩ := forall_mem_cons.mp h
    rw [evbufferDrain]
    split
    · exact ih hl
    · exact forall_mem_cons.mpr ⟨by simp; omega, hl⟩

theorem filled_drainPending (h : ∀ b ∈ l, b ≠ []) : ∀ b ∈ (drainPending n l).1, b ≠ [] := by
  fun_induction drainPending n l with
  | case1 | case2 => exact h
  | case3 n b l hle ih => exact ih (forall_mem_cons.mp h).2
  | case4 n b l hlt => exact forall_mem_cons.mpr ⟨by simp; omega, (forall_mem_cons.mp h).2⟩

theorem flatten_evbufferDrain : (evbufferDrain n l).flatten = l.flatten.drop n := by
  induction l generalizing n with
  | nil => simp [evbufferDrain]
  | cons b l ih =>
    rw [evbufferDrain, flatten_cons, drop_append]
    split
    · next hle => rw [ih, drop_eq_nil_of_le hle, nil_append]
    · next hlt => simp [show n - b.length = 0 by omega]

theorem flatten_drainPending : (drainPending n l).1.flatten = l.flatten.drop n := by
  fun_induction drainPending n l with
  | case1 => rfl
  | case2 => simp
  | case3 n b l hle ih => rw [ih, flatten_cons, drop_append, drop_eq_nil_of_le hle, nil_append]
  | case4 n b l hlt => simp [drop_append, show n + 1 - b.length = 0 by omega]

/-- The count ends inside one of the buffers. -/
def Inside (n : Nat) (l : List Bytes) : Prop :=
  ∃ l₁ b l₂, l = l₁ ++ b :: l₂ ∧ l₁.flatten.length < n ∧ n < l₁.flatten.length + b.length

theorem Inside.sub_eq_zero (h : Inside n l) : n - l.flatten.length = 0 := by
  obtain ⟨l₁, b, l₂, rfl, -, hgt⟩ := h
  rw [flatten_append, flatten_cons, length_append, length_append]
  omega

theorem drainPending_inside (h : Inside n l) : 0 < (drainPending n l).2 := by
  obtain ⟨l₁, b, l₂, rfl, hlt, hgt⟩ := h
  induction l₁ generalizing n with
  | nil =>
    obtain ⟨k, rfl⟩ : ∃ k, n = k + 1 := ⟨n - 1, by omega⟩
    rw [flatten_nil, length_nil] at hgt
    rw [nil_append, drainPending, if_neg (by omega)]
    exact Nat.succ_pos k
  | cons c l₁ ih =>
    obtain ⟨k, rfl⟩ : ∃ k, n = k + 1 := ⟨n - 1, by omega⟩
    rw [flatten_cons, length_append] at hlt hgt
    rw [cons_append, drainPending, if_pos (by omega)]
    exact ih (by omega) (by omega)

theorem drainPending_outside (h : ¬Inside n l) : (drainPending n l).2 = n - l.flatten.length := by
  fun_induction drainPending n l with
  | case1 | case2 => simp
  | case3 n b l hle ih =>
    rw [ih, flatten_cons, length_append, Nat.sub_sub]
    rintro ⟨l₁, c, l₂, rfl, hlt, hgt⟩
    exact h ⟨b :: l₁, c, l₂, rfl, by rw [flatten_cons, length_append]; omega,
      by rw [flatten_cons, length_append]; omega⟩
  | case4 n b l hlt => exact absurd ⟨[], b, l, rfl, by simp, by omega⟩ h

namespace TcpSocket

variable (s : TcpSocket) (n : Nat)

def peek : PeekResult :=
  match s.sslPending ++ s.input.getD [] with
  | b :: _ => .chunk b
  | [] => if s.gotEof then .eof else .noData

def drain : TcpSocket × Bool :=
  let rest := (drainPending n s.sslPending).2
  ({ s with
      sslPending := (drainPending n s.sslPending).1
      input := if rest = 0 then s.input else s.input.map (evbufferDrain rest)
      filled := by
        obtain ⟨hpending, hinput⟩ := forall_mem_append.mp s.filled
        refine forall_mem_append.mpr ⟨filled_drainPending hpending, ?_⟩
        split
        · exact hinput
        · cases hi : s.input with
          | none => exact nofun
          | some l => exact filled_evbufferDrain (by simpa [hi] using hinput) },
    decide (rest = 0) || s.input.isSome)

def bytes : Bytes := s.sslPending.flatten ++ (s.input.getD []).flatten

variable {s n}

theorem bytes_drain : (s.drain n).1.bytes =
    s.sslPending.flatten.drop n ++ (s.input.getD []).flatten.drop (drainPending n s.sslPending).2 := by
  unfold drain bytes
  dsimp only
  rw [flatten_drainPending]
  split
  · next hzero => rw [hzero, drop_zero]
  · cases s.input with
    | none => simp
    | some l => rw [Option.map_some, Option.getD_some, Option.getD_some, flatten_evbufferDrain]

/-- The next read goes on behind the bytes that were drained if and only if their number does not end inside a
decrypted buffer, or nothing else is buffered. A read shows the first bytes of what there is. -/
theorem drained_iff (s : TcpSocket) (n : Nat) :
    ((s.drain n).1.bytes = s.bytes.drop n ↔ Inside n s.sslPending → (s.input.getD []).flatten = []) ∧
    ∀ s : TcpSocket, (s.bytes = [] ↔ ∀ b, s.peek ≠ .chunk b) ∧
      ∀ b, s.peek = .chunk b → b ≠ [] ∧ ∃ rest, s.bytes = b ++ rest := by
  refine ⟨?_, fun s => ?_⟩
  · rw [bytes_drain, bytes, drop_append, append_cancel_left_eq]
    by_cases hin : Inside n s.sslPending
    · have hpos := drainPending_inside hin
      rw [hin.sub_eq_zero, drop_zero]
      constructor
      · intro heq _
        have hlen := congrArg length heq
        rw [length_drop] at hlen
        exact eq_nil_of_length_eq_zero (by omega)
      · intro hnil
        rw [hnil hin, drop_nil]
    · rw [drainPending_outside hin]
      exact ⟨fun _ h => absurd h hin, fun _ => rfl⟩
  · have hfilled := s.filled
    unfold bytes peek
    rw [← flatten_append]
    cases hl : s.sslPending ++ s.input.getD [] with
    | nil => cases s.gotEof <;> simp
    | cons b l =>
      rw [hl] at hfilled
      have hb := hfilled b mem_cons_self
      refine ⟨⟨fun hnil => absurd hnil (by simp [hb]), fun hno => absurd rfl (hno b)⟩, fun c hc => ?_⟩
      cases hc
      exact ⟨hb, l.flatten, rfl⟩

/-- Two decrypted bytes of which one is drained, and one byte in the input buffer: both are gone. -/
theorem drain_takes_both : bytes ⟨[[1, 2]], some [[3]], false, by decide⟩ = [1, 2, 3] ∧
    (drain ⟨[[1, 2]], some [[3]], false, by decide⟩ 1).1.bytes = [2] := by
  decide

end TcpSocket

end TrustTunnel.Net
