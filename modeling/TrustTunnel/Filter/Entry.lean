import TrustTunnel.Core.Types

/-!
# Filter.Entry

`DomainFilter::parse_entry`: one token of an exclusion list is an address, an address range, a port
or a domain name, or it is malformed.

The numeric parsers (`split_host_port`, `SocketAddress`, `CidrRange`) are not part of this
repository. They are fields of `NetLib`, with the one law about them that the filter relies on.
-/

namespace TrustTunnel.Filter

/-- `ag::CidrRange`: the network address and the length of its fixed part in bits. -/
structure CidrRange where
  address : Bytes
  prefixLen : Nat
  deriving DecidableEq

structure MatchFlags where
  exact : Bool
  subdomains : Bool
  deriving DecidableEq

def MatchFlags.union (a b : MatchFlags) : MatchFlags :=
  ⟨a.exact || b.exact, a.subdomains || b.subdomains⟩

inductive ParseResult where
  | address (a : SocketAddress)
  | range (r : CidrRange)
  | domain (text : Bytes) (flags : MatchFlags)
  | malformed
  | port (p : UInt16)
  deriving DecidableEq

def ParseResult.isMalformed : ParseResult → Bool
  | .malformed => true
  | _ => false

/-! ## Sigils -/

/-- The list of a filter that an entry goes to. -/
inductive RuleClass where
  | ordinary
  | defaultOverride
  | explicitExclusion
  | explicitDefault
  deriving DecidableEq

/-- The first character of an entry that is not an ordinary one: `!`, `+` or `^`. -/
def RuleClass.ofSigil (c : UInt8) : Option RuleClass :=
  if c == chr '!' then some .defaultOverride
  else if c == chr '+' then some .explicitExclusion
  else if c == chr '^' then some .explicitDefault
  else none

def isSigil (c : UInt8) : Bool := (RuleClass.ofSigil c).isSome

def classify : Bytes → RuleClass × Bytes
  | [] => (.ordinary, [])
  | c :: rest =>
    match RuleClass.ofSigil c with
    | some k => (k, rest)
    | none => (.ordinary, c :: rest)

/-! ## Addresses -/

structure NetOps where
  splitHostPort : Bytes → Option (Bytes × Bytes)
  toInteger : Bytes → Option Nat
  hostAddress : Bytes → UInt16 → SocketAddress
  textAddress : Bytes → SocketAddress
  cidrRange : Bytes → Option CidrRange
  includes : List CidrRange → CidrRange → Bool

def validAddress (a : SocketAddress) : Option ParseResult :=
  if a.valid then some (.address a) else none

/-- The first part of `parse_entry`: an address, or `*:port`. -/
def parseAddress (net : NetOps) (entry : Bytes) : Option ParseResult :=
  match net.splitHostPort entry with
  | none => none
  | some (host, service) =>
    match net.toInteger service, service.isEmpty with
    | some port, false =>
      if 0 < port && port ≤ 65535 then
        if host == ascii "*" then some (.port port.toUInt16)
        else validAddress (net.hostAddress host port.toUInt16)
      else none
    | _, _ => validAddress (net.textAddress host)

/-- The common library. No numeric text begins with a sigil: the parsers refuse `!`, `+` and `^`. -/
structure NetLib extends NetOps where
  rejects_sigil : ∀ (c : UInt8) (rest : Bytes), isSigil c = true →
    parseAddress toNetOps (c :: rest) = none ∧ cidrRange (c :: rest) = none

/-! ## Domain names -/

def wwwPrefix : Bytes := ascii "www."

def wildcardPrefix : Bytes := ascii "*."

def startsWith (s p : Bytes) : Bool := p.isPrefixOf s

/-- The loop over the characters of a name, `last` being the one before. -/
def validName (last : UInt8) : Bytes → Bool
  | [] => true
  | ch :: rest =>
    if !isAlnum ch && ch != chr '-' && ch != chr '_' && ch != chr '.' then false
    else if ch == chr '.' && last == chr '.' then false
    else validName ch rest

/-- The last part of `parse_entry`: a name, with `*.` in front for its subdomains only. -/
def parseDomain (text : Bytes) : ParseResult :=
  let entry := lower text
  let domain := if startsWith entry wildcardPrefix then entry.drop 2 else entry
  if domain.isEmpty then .malformed
  else if !validName (chr '.') domain then .malformed
  else if startsWith entry wildcardPrefix then
    .domain (entry.drop wildcardPrefix.length) ⟨false, true⟩
  else if startsWith entry wwwPrefix then .domain (entry.drop wwwPrefix.length) ⟨true, false⟩
  else .domain entry ⟨true, false⟩

def parseEntry (net : NetOps) (entry : Bytes) : ParseResult :=
  match parseAddress net entry with
  | some r => r
  | none =>
    match net.cidrRange entry with
    | some r => .range r
    | none => parseDomain entry

/-! ## What the parser says about an entry -/

theorem parseAddress_ne_domain {net : NetOps} {entry text : Bytes} {flags : MatchFlags} :
    parseAddress net entry ≠ some (.domain text flags) := by
  intro h
  unfold parseAddress validAddress at h
  repeat' split at h
  all_goals simp at h

theorem parseDomain_of_parseEntry {net : NetOps} {entry text : Bytes} {flags : MatchFlags}
    (h : parseEntry net entry = .domain text flags) : parseDomain entry = .domain text flags := by
  unfold parseEntry at h
  split at h
  · rename_i hr
    rw [h] at hr
    exact absurd hr parseAddress_ne_domain
  · split at h
    · cases h
    · exact h

theorem isSigil_cases {c : UInt8} (hc : isSigil c = true) : c = chr '!' ∨ c = chr '+' ∨ c = chr '^' := by
  unfold isSigil RuleClass.ofSigil at hc
  split at hc
  · rename_i h; exact .inl (by simpa using h)
  split at hc
  · rename_i h; exact .inr (.inl (by simpa using h))
  · split at hc
    · rename_i h; exact .inr (.inr (by simpa using h))
    · cases hc

theorem sigil_not_name {c : UInt8} (hc : isSigil c = true) : toLower c = c ∧
    (!isAlnum c && c != chr '-' && c != chr '_' && c != chr '.') = true ∧ c ≠ chr '*' := by
  rcases isSigil_cases hc with rfl | rfl | rfl
  · decide
  · decide
  · decide

theorem parseEntry_sigil (net : NetLib) {c : UInt8} (rest : Bytes) (hc : isSigil c = true) :
    parseEntry net.toNetOps (c :: rest) = .malformed := by
  obtain ⟨hlow, hbad, hstar⟩ := sigil_not_name hc
  obtain ⟨ha, hr⟩ := net.rejects_sigil c rest hc
  have hwild : startsWith (lower (c :: rest)) wildcardPrefix = false := by
    have : (chr '*' == c) = false := by simpa using fun h => hstar h.symm
    simp only [lower, List.map_cons, hlow]
    change (chr '*' == c && _) = false
    rw [this, Bool.false_and]
  rw [parseEntry, ha, hr]
  simp only [parseDomain, hwild]
  simp [lower, hlow, validName, hbad]

/-! ## A library for IPv4

An instance of `NetLib` that knows dotted addresses only, to evaluate the model with. -/

namespace Ipv4

def splitAt (c : UInt8) : Bytes → Bytes × List Bytes
  | [] => ([], [])
  | b :: rest =>
    let (first, others) := splitAt c rest
    if b == c then ([], first :: others) else (b :: first, others)

def number (s : Bytes) : Option Nat :=
  if s.isEmpty || !s.all isDigit then none
  else some (s.foldl (fun n b => n * 10 + (b.toNat - 48)) 0)

def octet (s : Bytes) : Option UInt8 := (number s).bind fun n =>
  if n ≤ 255 then some n.toUInt8 else none

def host (s : Bytes) : Bytes :=
  if s.head?.any isDigit then
    match splitAt (chr '.') s with
    | (a, [b, c, d]) => ([a, b, c, d].mapM octet).getD []
    | _ => []
  else []

def range (s : Bytes) : Option CidrRange :=
  match splitAt (chr '/') s with
  | (a, [n]) =>
    match host a, number n with
    | [], _ => none
    | bytes, some len => if len ≤ 32 then some ⟨bytes, len⟩ else none
    | _, none => none
  | _ => none

def bits (s : Bytes) : List Bool :=
  s.flatMap fun b => (List.range 8).map fun i => b.toNat.testBit (7 - i)

def covers (q r : CidrRange) : Bool :=
  q.address.length == r.address.length && q.prefixLen ≤ r.prefixLen
    && (bits q.address).take q.prefixLen == (bits r.address).take q.prefixLen

def ops : NetOps where
  splitHostPort s :=
    match splitAt (chr ':') s with
    | (h, []) => some (h, [])
    | (h, [p]) => some (h, p)
    | _ => none
  toInteger := number
  hostAddress h p := ⟨host h, p⟩
  textAddress h := ⟨host h, 0⟩
  cidrRange := range
  includes rs r := rs.any (covers · r)

theorem splitAt_cons {c b : UInt8} (rest : Bytes) (h : (b == c) = false) :
    splitAt c (b :: rest) = (b :: (splitAt c rest).1, (splitAt c rest).2) := by
  simp [splitAt, h]

theorem host_cons {b : UInt8} (rest : Bytes) (h : isDigit b = false) : host (b :: rest) = [] := by
  simp [host, h]

theorem sigil_plain {c : UInt8} (hc : isSigil c = true) : (c == chr ':') = false ∧
    (c == chr '/') = false ∧ isDigit c = false ∧ ∀ rest, (c :: rest == ascii "*") = false := by
  have hstar : ∀ c : UInt8, (c == chr '*') = false → ∀ rest, (c :: rest == ascii "*") = false := by
    intro c h rest
    change (c == chr '*' && _) = false
    rw [h, Bool.false_and]
  rcases isSigil_cases hc with rfl | rfl | rfl
  all_goals exact ⟨by decide, by decide, by decide, hstar _ (by decide)⟩

theorem splitHostPort_cons {c : UInt8} {rest h p : Bytes} (hc : (c == chr ':') = false)
    (hs : ops.splitHostPort (c :: rest) = some (h, p)) : ∃ t, h = c :: t := by
  refine ⟨(splitAt (chr ':') rest).1, ?_⟩
  simp only [ops, splitAt_cons rest hc] at hs
  split at hs
  · rename_i he
    cases hs
    exact (congrArg Prod.fst he).symm
  · rename_i he
    cases hs
    exact (congrArg Prod.fst he).symm
  · cases hs

theorem ops_rejects_sigil (c : UInt8) (rest : Bytes) (hc : isSigil c = true) :
    parseAddress ops (c :: rest) = none ∧ ops.cidrRange (c :: rest) = none := by
  obtain ⟨hcolon, hslash, hdigit, hstar⟩ := sigil_plain hc
  constructor
  · unfold parseAddress
    split
    · rfl
    rename_i hs
    obtain ⟨t, rfl⟩ := splitHostPort_cons hcolon hs
    have hhost : ∀ port, validAddress ⟨host (c :: t), port⟩ = none := by
      intro port
      rw [host_cons t hdigit]
      rfl
    split
    · simp only [hstar]
      split
      · exact hhost _
      · rfl
    · exact hhost 0
  · simp only [ops, range, splitAt_cons rest hslash]
    split
    · rename_i h
      simp only [Prod.mk.injEq] at h
      obtain ⟨rfl, -⟩ := h
      rw [host_cons _ hdigit]
    · rfl

def net : NetLib := { ops with rejects_sigil := ops_rejects_sigil }

end Ipv4

end TrustTunnel.Filter
