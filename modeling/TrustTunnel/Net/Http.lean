import TrustTunnel.Core.Types

/-!
# Net.Http

`HttpParser` (`core/src/domain_extractor.cpp`): the host an HTTP request is for, from the first `Host:` in
the head or from the request target.
-/

namespace TrustTunnel.Net.Http

open List

def isAlpha (b : UInt8) : Bool := isUpper b || isLower b

def isBlank (b : UInt8) : Bool := b == 32 || b == 9

def isLineEnd (b : UInt8) : Bool := b == 13 || b == 10

/-- The loop over the method: where it ends, from its `i`-th letter on. -/
def methodEnd (i : Nat) : Bytes → Option Nat
  | [] => some i
  | ch :: rest =>
    if isSpace ch then some i
    else if !isAlpha ch || i == 32 then none
    else methodEnd (i + 1) rest

/-- The text from the first `marker` on. -/
def find (marker : Bytes) : Bytes → Option Bytes
  | [] => none
  | b :: rest => if marker.isPrefixOf (b :: rest) then some (b :: rest) else find marker rest

/-- The text up to the first byte of a kind. -/
def upTo (kind : UInt8 → Bool) (text : Bytes) : Option Bytes :=
  if text.any kind then some (text.takeWhile fun b => !kind b) else none

def hostMarker : Bytes := ascii "Host:"

def headerHost (seek : Bytes) : Option Bytes := do
  let header ← find hostMarker seek
  let host ← upTo isLineEnd ((header.drop hostMarker.length).dropWhile isBlank)
  if host = [] then none else some host

def uriHost (seek : Bytes) : Option Bytes :=
  match seek.dropWhile isBlank with
  | [] => none
  | b :: rest =>
    if b = chr '/' then none
    else
      let host :=
        match find (ascii "://") (b :: rest) with
        | none => some (b :: rest)
        | some scheme => if scheme.length ≤ 3 then none else some (scheme.drop 3)
      host.bind (upTo fun c => c == chr ':' || c == chr '/' || isBlank c)

/-- `HttpParser::parse`, `none` for `DES_NOTFOUND`. -/
def parse (buffer : Bytes) : Option Bytes :=
  match methodEnd 0 buffer with
  | none => none
  | some i => if i < 3 then none else (headerHost (buffer.drop i)).or (uriHost (buffer.drop i))

theorem isSpace_of_isAlpha {b : UInt8} (h : isAlpha b = true) : isSpace b = false := by
  simp only [isAlpha, isUpper, isLower, isSpace, Bool.or_eq_true, Bool.and_eq_true, decide_eq_true_eq,
    Bool.or_eq_false_iff, beq_eq_false_iff_ne, ne_eq, Bool.and_eq_false_imp, decide_eq_false_iff_not,
    UInt8.le_iff_toNat_le, ← UInt8.toNat_inj] at h ⊢
  change (65 ≤ _ ∧ _ ≤ 90) ∨ (97 ≤ _ ∧ _ ≤ 122) at h
  change ¬_ = 32 ∧ (9 ≤ _ → ¬_ ≤ 13)
  omega

theorem methodEnd_letters {method rest : Bytes} {i : Nat} (hm : ∀ b ∈ method, isAlpha b = true)
    (hlen : i + method.length ≤ 32) (hrest : ∃ b ∈ rest.head?, isSpace b = true) :
    methodEnd i (method ++ rest) = some (i + method.length) := by
  induction method generalizing i with
  | nil =>
    obtain ⟨b, hb, hspace⟩ := hrest
    cases rest with
    | nil => cases hb
    | cons c rest =>
      cases hb
      exact if_pos hspace
  | cons b method ih =>
    obtain ⟨halpha, hm⟩ := forall_mem_cons.mp hm
    rw [length_cons] at hlen ⊢
    have hi : (i == 32) = false := by rw [beq_eq_false_iff_ne]; omega
    rw [cons_append, methodEnd, isSpace_of_isAlpha halpha, halpha, hi]
    simp only [Bool.false_eq_true, if_false, Bool.not_true, Bool.or_self]
    rw [ih hm (by omega)]
    congr 1
    omega

theorem find_append {before after : Bytes} (h : find hostMarker before = none) :
    find hostMarker (before ++ (hostMarker ++ after)) = some (hostMarker ++ after) := by
  have hmarker : hostMarker = [72, 111, 115, 116, 58] := by decide
  rw [hmarker] at h ⊢
  induction before with
  | nil => rfl
  | cons b before ih =>
    unfold find at h
    split at h
    · cases h
    · next hb =>
      rw [cons_append, find, if_neg, ih h]
      rcases before with _ | ⟨c, _ | ⟨d, _ | ⟨e, _ | ⟨f, before⟩⟩⟩⟩ <;> simp_all

/-- A request head whose first `Host:` is the name of its Host field, which names no port. -/
structure Head where
  method : Bytes
  before : Bytes
  blanks : Bytes
  value : Bytes
  stop : UInt8
  after : Bytes
  letters : ∀ b ∈ method, isAlpha b = true
  length : 3 ≤ method.length ∧ method.length ≤ 32
  space : ∃ b ∈ before.head?, isSpace b = true
  first : find hostMarker before = none
  blank : ∀ b ∈ blanks, isBlank b = true
  starts : ∃ b ∈ value.head?, isBlank b = false
  line : ∀ b ∈ value, isLineEnd b = false
  noPort : chr ':' ∉ value
  stops : isLineEnd stop = true

def Head.bytes (r : Head) : Bytes :=
  r.method ++ (r.before ++ (hostMarker ++ (r.blanks ++ (r.value ++ r.stop :: r.after))))

/-- The value is found as it is written. -/
theorem parse_head (r : Head) : parse r.bytes = some r.value := by
  have hmethod : methodEnd 0 r.bytes = some r.method.length := by
    refine (methodEnd_letters r.letters (by have := r.length; omega) ?_).trans (by rw [Nat.zero_add])
    obtain ⟨b, hb, hspace⟩ := r.space
    exact ⟨b, by simp_all, hspace⟩
  have hblanks : (r.blanks ++ (r.value ++ r.stop :: r.after)).dropWhile isBlank = r.value ++ r.stop :: r.after := by
    obtain ⟨b, hb, hstart⟩ := r.starts
    rw [dropWhile_append_of_pos r.blank]
    cases hv : r.value with
    | nil => simp [hv] at hb
    | cons c value =>
      rw [hv] at hb
      cases hb
      simp [hstart]
  have hhost : headerHost (r.bytes.drop r.method.length) = some r.value := by
    unfold headerHost Head.bytes
    rw [drop_left, find_append r.first]
    simp only [Option.bind_eq_bind, Option.bind_some, drop_left, hblanks]
    have hupTo : upTo isLineEnd (r.value ++ r.stop :: r.after) = some r.value := by
      unfold upTo
      rw [takeWhile_append_of_pos (by simpa using r.line)]
      simp [r.stops]
    rw [hupTo, Option.bind_some, if_neg]
    obtain ⟨b, hb, -⟩ := r.starts
    rintro hnil
    simp [hnil] at hb
  have := r.length
  unfold parse
  rw [hmethod]
  simp only
  rw [if_neg (by omega), hhost]
  rfl

theorem parse_head_get : parse (ascii "GET / HTTP/1.1\r\nA: b\r\nHost: a.b\r\n\r\n") = some (ascii "a.b") :=
  parse_head {
    method := ascii "GET", before := ascii " / HTTP/1.1\r\nA: b\r\n", blanks := ascii " ", value := ascii "a.b",
    stop := 13, after := ascii "\n\r\n", letters := by decide +kernel, length := by decide,
    space := ⟨32, by decide, rfl⟩, first := by decide +kernel, blank := by decide +kernel,
    starts := ⟨97, by decide, rfl⟩, line := by decide +kernel, noPort := by decide +kernel, stops := rfl }

/-- A name in small letters is not seen, and an earlier `Host:` is taken for the field. -/
theorem parse_differs : parse (ascii "GET / HTTP/1.1\r\nhost: a.b\r\n\r\n") = none ∧
    parse (ascii "GET / HTTP/1.1\r\nX-Forwarded-Host: c\r\nHost: a.b\r\n\r\n") = some (ascii "c") := by
  decide +kernel

end TrustTunnel.Net.Http
