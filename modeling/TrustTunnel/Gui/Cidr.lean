import TrustTunnel.Core.Types

/-!
# Gui.Cidr

The two validators of the users' address range: `isValidCidr` of the frontend and `validate_cidr` of
the backend, which are to stay synchronized. A text is a list of characters; JavaScript counts its
UTF-16 units, Rust its UTF-8 bytes.
-/

namespace TrustTunnel.Gui

def decimal (digits : List Char) : Nat := digits.foldl (fun n c => 10 * n + (c.toNat - 48)) 0

/-- `^\d+$` -/
def isNumeral (s : List Char) : Bool := !s.isEmpty && s.all Char.isDigit

def cidrChar (c : Char) : Bool := c.isDigit || c == '.' || c == '/'

/-! ## The frontend -/

/-- `s.length` -/
def utf16Length (s : List Char) : Nat := (s.map fun c => if c.toNat < 65536 then 1 else 2).sum

/-- The body of the loop over the octets. `parseInt` may round a long numeral, never past 255. -/
def octetValid (octet : List Char) : Bool := isNumeral octet && decimal octet ≤ 255

def isValidCidr (s : List Char) : Bool :=
  if s = [] then true
  else if utf16Length s > 18 then false
  else if !s.all cidrChar then false
  else
    match s.splitOn '/' with
    | [ip, bits] =>
      let octets := ip.splitOn '.'
      octets.length == 4 && octets.all octetValid && isNumeral bits && decimal bits ≤ 32
    | _ => false

/-! ## The backend -/

/-- `s.len()` -/
def utf8Length (s : List Char) : Nat := (s.map Char.utf8Size).sum

/-- `parse::<u32>` of a text without a sign. -/
def parseU32 (s : List Char) : Option Nat :=
  if isNumeral s && decimal s < 2 ^ 32 then some (decimal s) else none

def redundantZero (octet : List Char) : Bool := octet.length > 1 && octet.head? == some '0'

def checkOctet (octet : List Char) : Except String Unit :=
  if octet.isEmpty then .error "Empty octet"
  else if redundantZero octet then
    .error ("Octet '" ++ String.ofList octet ++ "' has a redundant leading zero")
  else
    match parseU32 octet with
    | none => .error "Invalid octet (must be number)"
    | some n => if n > 255 then .error ("Octet " ++ toString n ++ " exceeds 255") else .ok ()

def checkBits (bits : List Char) : Except String Unit :=
  if bits.isEmpty then .error "Prefix missing"
  else
    match parseU32 bits with
    | none => .error "Invalid prefix"
    | some n => if n > 32 then .error ("Prefix " ++ toString n ++ " exceeds 32") else .ok ()

def validateCidr (s : List Char) : Except String Unit :=
  if s = [] then .ok ()
  else if utf8Length s > 18 then .error "CIDR too long (max 18 chars)"
  else if !s.all cidrChar then
    .error "CIDR contains invalid characters (only 0-9, '.', '/' allowed)"
  else
    match s.splitOn '/' with
    | [ip, bits] => do
      let octets := ip.splitOn '.'
      if octets.length ≠ 4 then .error "IP must have exactly 4 octets"
      else
        octets.forM checkOctet
        checkBits bits
    | _ => .error "CIDR must be X.X.X.X/N"

/-! ## They differ in the redundant zeros -/

def padded (s : List Char) : Bool := ((s.splitOn '/').headD []).splitOn '.' |>.any redundantZero

attribute [local simp] Except.isOk Except.toBool

theorem isOk_bounded (s : List Char) {bound : Nat} (hb : bound < 2 ^ 32) (e : String) (f : Nat → String) :
    (match parseU32 s with
      | none => .error e
      | some n => if n > bound then .error (f n) else .ok () : Except String Unit).isOk =
      (isNumeral s && decimal s ≤ bound) := by
  unfold parseU32
  cases isNumeral s with
  | false => rfl
  | true =>
    by_cases hv : decimal s ≤ bound
    · have : decimal s < 4294967296 := by omega
      simp [this, hv, Nat.not_lt.mpr hv]
    · by_cases hw : decimal s < 4294967296
      · simp [hw, hv, Nat.not_le.mp hv]
      · simp [hw, hv]

theorem isOk_checkOctet (octet : List Char) : (checkOctet octet).isOk = (octetValid octet && !redundantZero octet) := by
  unfold checkOctet octetValid
  split
  · simp_all [isNumeral]
  split
  · simp_all
  · rw [isOk_bounded octet (by decide)]
    simp_all

theorem isOk_checkBits (bits : List Char) : (checkBits bits).isOk = (isNumeral bits && decimal bits ≤ 32) := by
  unfold checkBits
  split
  · simp_all [isNumeral]
  · exact isOk_bounded bits (by decide) ..

theorem isOk_bind (x y : Except String Unit) : (do x; y).isOk = (x.isOk && y.isOk) := by
  cases x with
  | error e => rfl
  | ok u => simp [bind, Except.bind]

theorem isOk_forM (octets : List (List Char)) :
    (octets.forM checkOctet).isOk = (octets.all octetValid && !octets.any redundantZero) := by
  induction octets with
  | nil => rfl
  | cons o os ih =>
    rw [show (o :: os).forM checkOctet = do checkOctet o; os.forM checkOctet from rfl, isOk_bind, ih,
      isOk_checkOctet, List.all_cons, List.any_cons, Bool.not_or]
    ac_rfl

theorem length_of_cidrChar {s : List Char} (h : s.all cidrChar = true) :
    utf16Length s = s.length ∧ utf8Length s = s.length := by
  induction s with
  | nil => exact ⟨rfl, rfl⟩
  | cons c s ih =>
    rw [List.all_cons, Bool.and_eq_true] at h
    obtain ⟨h16, h8⟩ := ih h.2
    have hc : c.toNat ≤ 57 := by
      rcases (by simpa [cidrChar, Char.isDigit] using h.1 : (_ ∨ c = '.') ∨ c = '/') with (h | rfl) | rfl
      · exact h.2
      · decide
      · decide
    have hsize : c.utf8Size = 1 := Char.utf8Size_eq_one_iff.mpr (UInt32.le_iff_toNat_le.mpr (by simpa using by omega))
    have hunit : c.toNat < 65536 := by omega
    rw [utf16Length, utf8Length] at *
    simp [hsize, hunit, h16, h8, Nat.add_comm]

theorem isOk_validateCidr (s : List Char) : (validateCidr s).isOk = (isValidCidr s && !padded s) := by
  unfold validateCidr isValidCidr padded
  by_cases hnil : s = []
  · subst hnil
    decide
  rw [if_neg hnil, if_neg hnil]
  cases hall : s.all cidrChar with
  | false =>
    simp only [Bool.not_false, if_true]
    split <;> split <;> rfl
  | true =>
    obtain ⟨h16, h8⟩ := length_of_cidrChar hall
    rw [h16, h8]
    split
    · rfl
    simp only [Bool.not_true, Bool.false_eq_true, if_false]
    split
    · rename_i ip bits hparts
      split_ifs with hlen
      · simp_all
      rw [isOk_bind, isOk_forM, isOk_checkBits, hparts, beq_iff_eq.mpr (not_not.mp hlen),
        Bool.true_and]
      simp only [List.headD_cons]
      ac_rfl
    · rfl

/-- A range of at most 18 characters, `a.b.c.d/bits`, with numbers in their bounds and an octet that is
written with a redundant zero. -/
def ZeroPadded (s : List Char) : Prop :=
  s.length ≤ 18 ∧ ∃ a b c d bits, s = a ++ '.' :: b ++ '.' :: c ++ '.' :: d ++ '/' :: bits ∧
    (∀ octet ∈ [a, b, c, d], isNumeral octet = true ∧ decimal octet ≤ 255) ∧
    (isNumeral bits = true ∧ decimal bits ≤ 32) ∧ ∃ rest ≠ [], '0' :: rest ∈ [a, b, c, d]

theorem redundantZero_iff (octet : List Char) :
    redundantZero octet = true ↔ ∃ rest ≠ [], '0' :: rest = octet := by
  cases octet with
  | nil => simp [redundantZero]
  | cons c rest =>
    cases rest with
    | nil => simp [redundantZero]
    | cons d rest => simp [redundantZero, eq_comm (a := c)]

theorem any_redundantZero (octets : List (List Char)) :
    octets.any redundantZero = true ↔ ∃ rest ≠ [], '0' :: rest ∈ octets := by
  simp only [List.any_eq_true, redundantZero_iff]
  constructor
  · rintro ⟨octet, hmem, rest, hrest, rfl⟩
    exact ⟨rest, hrest, hmem⟩
  · rintro ⟨rest, hrest, hmem⟩
    exact ⟨_, hmem, rest, hrest, rfl⟩

theorem not_mem_numeral {s : List Char} (h : isNumeral s = true) {c : Char} (hc : c.isDigit = false) : c ∉ s := by
  intro hmem
  have hdigit : c.isDigit = true := by
    simp only [isNumeral, Bool.and_eq_true, List.all_eq_true] at h
    exact h.2 c hmem
  cases hc.symm.trans hdigit

theorem cidrChar_numeral {s : List Char} (h : isNumeral s = true) : s.all cidrChar = true := by
  simp only [isNumeral, Bool.and_eq_true, List.all_eq_true] at h
  simpa [cidrChar] using fun c hc => Or.inl (Or.inl (h.2 c hc))

theorem accepted_padded_iff (s : List Char) : isValidCidr s = true ∧ padded s = true ↔ ZeroPadded s := by
  constructor
  · rintro ⟨hvalid, hpadded⟩
    by_cases hnil : s = []
    · subst hnil
      cases hpadded
    unfold isValidCidr at hvalid
    rw [if_neg hnil] at hvalid
    split_ifs at hvalid with hlen hall
    have hchars : s.all cidrChar = true := by simpa using hall
    rw [(length_of_cidrChar hchars).1] at hlen
    split at hvalid
    · rename_i ip bits hparts
      simp only [Bool.and_eq_true, beq_iff_eq, decide_eq_true_eq, List.all_eq_true, octetValid] at hvalid
      obtain ⟨⟨⟨hfour, hoctets⟩, hbits⟩, hbound⟩ := hvalid
      obtain ⟨a, b, c, d, hip⟩ := List.length_eq_four.mp hfour
      rw [padded, hparts, List.headD_cons, any_redundantZero, hip] at hpadded
      have hs := @List.intercalate_splitOn _ s _ _ '/'
      have hjoin := @List.intercalate_splitOn _ ip _ _ '.'
      rw [hparts] at hs
      rw [hip] at hjoin hoctets
      refine ⟨Nat.not_lt.mp hlen, a, b, c, d, bits, ?_, hoctets, ⟨hbits, hbound⟩, hpadded⟩
      rw [← hs, ← hjoin]
      simp [List.intercalate]
    · cases hvalid
  · rintro ⟨hlen, a, b, c, d, bits, hs, hoctets, ⟨hbits, hbound⟩, hpadded⟩
    have hdots : ['.'].intercalate [a, b, c, d] = a ++ '.' :: b ++ '.' :: c ++ '.' :: d := by
      simp [List.intercalate]
    have hip : (a ++ '.' :: b ++ '.' :: c ++ '.' :: d).splitOn '.' = [a, b, c, d] := by
      rw [← hdots]
      exact List.splitOn_intercalate '.' (fun o ho => not_mem_numeral (hoctets o ho).1 rfl) (by simp)
    simp only [List.forall_mem_cons, List.not_mem_nil, false_implies, implies_true, and_true] at hoctets
    obtain ⟨ha, hb, hc, hd⟩ := hoctets
    have hparts : s.splitOn '/' = [a ++ '.' :: b ++ '.' :: c ++ '.' :: d, bits] := by
      have hslash : s = ['/'].intercalate [a ++ '.' :: b ++ '.' :: c ++ '.' :: d, bits] := by
        simp [hs, List.intercalate]
      rw [hslash]
      refine List.splitOn_intercalate '/' ?_ (by simp)
      simp [not_mem_numeral ha.1, not_mem_numeral hb.1, not_mem_numeral hc.1, not_mem_numeral hd.1,
        not_mem_numeral hbits]
    have hchars : s.all cidrChar = true := by
      simp [hs, cidrChar_numeral ha.1, cidrChar_numeral hb.1, cidrChar_numeral hc.1, cidrChar_numeral hd.1,
        cidrChar_numeral hbits, cidrChar]
    have hnil : s ≠ [] := by simp [hs]
    have hshort : ¬utf16Length s > 18 := by
      rw [(length_of_cidrChar hchars).1]
      omega
    rw [padded, hparts, List.headD_cons, hip, any_redundantZero, isValidCidr, if_neg hnil, if_neg hshort,
      hchars, hparts]
    refine ⟨?_, hpadded⟩
    simp only [hip]
    simp [octetValid, ha, hb, hc, hd, hbits, hbound]

/-- The two validators agree on a text if and only if it is no such range. -/
theorem isValidCidr_iff (s : List Char) :
    (isValidCidr s = true ↔ (validateCidr s).isOk = true) ↔ ¬ ZeroPadded s := by
  rw [isOk_validateCidr, ← accepted_padded_iff]
  cases isValidCidr s <;> simp

theorem cidr_leading_zero :
    isValidCidr "010.0.0.0/8".toList = true ∧ (validateCidr "010.0.0.0/8".toList).isOk = false := by
  decide

end TrustTunnel.Gui
