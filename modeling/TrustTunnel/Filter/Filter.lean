import Mathlib.Data.List.AList
import TrustTunnel.Filter.Entry
import TrustTunnel.Lib.Words

/-!
# Filter.Filter

`DomainFilter`: the tables an exclusion list is loaded into, and the route a domain name or an
address takes through them. A filter owns three more filters for the entries written with `!`, `+`
and `^`.

The two caches are seen as the answers of their `get`. What an entry evicts, and what the clock
expires, is up to the caller of `addResolvedTag`, `addExclusionSuspect` and `expire`.
-/

namespace TrustTunnel.Filter

open Lib

inductive MatchStatus where
  | default
  | exclusion
  | suspectExclusion
  | defaultOverride
  deriving DecidableEq

structure MatchResult where
  status : MatchStatus
  domain : Option Bytes

/-- `m_domains`, `m_addresses`, `m_ports_only` and `m_cidr_ranges`. -/
structure Tables where
  domains : AList fun _ : Bytes => MatchFlags
  addresses : List SocketAddress
  portsOnly : List UInt16
  cidrRanges : List CidrRange

def Tables.empty : Tables := ⟨∅, [], [], []⟩

structure DomainFilter where
  mode : VpnMode
  tables : Tables
  defaultOverrides : Option DomainFilter
  explicitExclusions : Option DomainFilter
  explicitDefaults : Option DomainFilter
  resolvedTags : SockAddrTag → Option Bytes
  exclusionSuspects : SocketAddress → Bool

/-! ## Loading -/

variable (net : NetOps) (t : Tables) (f : DomainFilter)

def Tables.add (entry : Bytes) : Tables :=
  match parseEntry net entry with
  | .address a => { t with addresses := t.addresses.insert a }
  | .domain text flags =>
    { t with domains :=
        t.domains.insert text (((t.domains.lookup text).getD ⟨false, false⟩).union flags) }
  | .range r => { t with cidrRanges := t.cidrRanges.insert r }
  | .port p => { t with portsOnly := t.portsOnly.insert p }
  | .malformed => t

/-- The state of `update_exclusions` while it reads: the tables and the three texts. -/
structure Loading where
  tables : Tables
  overrides : Bytes
  explicitExclusions : Bytes
  explicitDefaults : Bytes

def Loading.empty : Loading := ⟨.empty, [], [], []⟩

def Loading.addEntry (l : Loading) (entry : Bytes) : Loading :=
  match classify entry with
  | (.ordinary, _) => { l with tables := l.tables.add net entry }
  | (k, rest) =>
    if (parseEntry net rest).isMalformed then l
    else
      match k with
      | .explicitExclusion => { l with explicitExclusions := l.explicitExclusions ++ (rest ++ [chr '\n']) }
      | .explicitDefault => { l with explicitDefaults := l.explicitDefaults ++ (rest ++ [chr '\n']) }
      | _ => { l with overrides := l.overrides ++ (rest ++ [chr '\n']) }

/-- A fresh filter after `update_exclusions`, to the nesting depth `fuel`. -/
def load (net : NetOps) : Nat → VpnMode → Bytes → DomainFilter
  | 0, mode, _ => ⟨mode, .empty, none, none, none, fun _ => none, fun _ => false⟩
  | fuel + 1, mode, exclusions =>
    let l := (words isSpace exclusions).foldl (Loading.addEntry net) .empty
    let sub (text : Bytes) := if text.isEmpty then none else some (load net fuel mode text)
    { mode
      tables := l.tables
      defaultOverrides := sub l.overrides
      explicitExclusions := sub l.explicitExclusions
      explicitDefaults := sub l.explicitDefaults
      resolvedTags := fun _ => none
      exclusionSuspects := fun _ => false }

namespace DomainFilter

def init : DomainFilter :=
  ⟨.general, .empty, none, none, none, fun _ => none, fun _ => false⟩

/-- Every level reads at least one sigil less, so the length of the text bounds the depth. The
resolved tags stay. -/
def updateExclusions (mode : VpnMode) (exclusions : Bytes) : DomainFilter :=
  { load net (exclusions.length + 1) mode exclusions with resolvedTags := f.resolvedTags }

/-! ## Matching a name -/

/-- The values `seek` takes after the first: what follows each dot but a last one. -/
def suffixes : Bytes → List Bytes
  | [] => []
  | c :: rest =>
    if c == chr '.' && !rest.isEmpty then rest :: suffixes rest else suffixes rest

def seekMatches (domain : Bytes) (wwwPrefixed : Bool) (seek : Bytes) : Bool :=
  match t.domains.lookup seek with
  | none => false
  | some flags =>
    (flags.exact && (seek.length == domain.length
      || (wwwPrefixed && seek.length + wwwPrefix.length == domain.length)))
    || (flags.subdomains && seek.length < domain.length)

def matchedDomainLength (name : Bytes) : Option Nat :=
  let domain := lower name
  let wwwPrefixed := startsWith domain wwwPrefix
  let seek := if !wwwPrefixed then domain else domain.drop wwwPrefix.length
  ((seek :: suffixes seek).find? (seekMatches f.tables domain wwwPrefixed)).map List.length

def matchExplicitDomain (domain : Bytes) : Option MatchStatus :=
  let direct := f.explicitExclusions.bind (matchedDomainLength · domain)
  let defaults := f.explicitDefaults.bind (matchedDomainLength · domain)
  match direct, defaults with
  | none, none => none
  | some _, none => some .exclusion
  | none, some _ => some .defaultOverride
  | some d, some e => some (if e ≥ d then .defaultOverride else .exclusion)

def matchDomain : DomainFilter → Bytes → MatchStatus
  | ⟨mode, tables, overrides, exclusions, defaults, tags, suspects⟩, domain =>
    let f : DomainFilter := ⟨mode, tables, overrides, exclusions, defaults, tags, suspects⟩
    match matchExplicitDomain f domain with
    | some status => status
    | none =>
      let overridden : Bool := match overrides with
        | some o => matchDomain o domain == MatchStatus.exclusion
        | none => false
      if overridden then .defaultOverride
      else if (matchedDomainLength f domain).isSome then .exclusion
      else .default

/-! ## Matching an address -/

/-- The address tables: the address with its port, without it, the ranges, the ports. -/
def addressFound (addr : SocketAddress) : Bool :=
  t.addresses.contains addr || t.addresses.contains (addr.setPort 0)
    || net.includes t.cidrRanges ⟨addr.addr, addr.addr.length * 8⟩
    || t.portsOnly.contains addr.port

def hasDomains (f : Option DomainFilter) : Bool :=
  match f with
  | some g => !g.tables.domains.entries.isEmpty
  | none => false

/-- The body of `match_tag`, given whether the tag is an exclusion of the filters for `^`, `+` and
`!`. The source asks those filters where the answers are used. -/
def tagVerdict (tag : SockAddrTag) (defaultAddress explicitAddress overriddenAddress : Bool) : MatchResult :=
  let domain := f.resolvedTags tag
  match domain.bind f.matchExplicitDomain with
  | some status => ⟨status, domain⟩
  | none =>
    let overridden := f.defaultOverrides.any (fun o => domain.any (matchDomain o · == .exclusion))
      || overriddenAddress
    if defaultAddress then ⟨.defaultOverride, domain⟩
    else if !explicitAddress && overridden then ⟨.defaultOverride, domain⟩
    else if explicitAddress || addressFound net f.tables tag.addr then
      let hasDomainOverride :=
        (!explicitAddress && hasDomains f.defaultOverrides) || hasDomains f.explicitDefaults
      ⟨if domain.isNone && hasDomainOverride then .suspectExclusion else .exclusion, domain⟩
    else
      match domain with
      | some d => ⟨matchDomain f d, some d⟩
      | none => ⟨if f.exclusionSuspects (tag.addr.setPort 0) then .suspectExclusion else .default, none⟩

def matchTag (net : NetOps) : DomainFilter → SockAddrTag → MatchResult
  | ⟨mode, tables, overrides, exclusions, defaults, tags, suspects⟩, tag =>
    tagVerdict net ⟨mode, tables, overrides, exclusions, defaults, tags, suspects⟩ tag (match defaults with
        | some e => (matchTag net e tag).status == MatchStatus.exclusion
        | none => false)
      (match exclusions with
        | some e => (matchTag net e tag).status == MatchStatus.exclusion
        | none => false)
      (match overrides with
        | some o => (matchTag net o tag).status == MatchStatus.exclusion
        | none => false)

/-! ## The caches -/

/-- `add_resolved_tag`; `keep` says which older entries the cache still holds. -/
def addResolvedTag (tag : SockAddrTag) (domain : Bytes) (keep : SockAddrTag → Bool) : DomainFilter :=
  { f with resolvedTags := fun t =>
      if t = tag then some domain else if keep t then f.resolvedTags t else none }

def addExclusionSuspect (addr : SocketAddress) (keep : SocketAddress → Bool) : DomainFilter :=
  { f with exclusionSuspects := fun a =>
      a = addr.setPort 0 || (keep a && f.exclusionSuspects a) }

def expire (keepTag : SockAddrTag → Bool) (keep : SocketAddress → Bool) : DomainFilter :=
  { f with
    resolvedTags := fun t => if keepTag t then f.resolvedTags t else none
    exclusionSuspects := fun a => keep a && f.exclusionSuspects a }

end DomainFilter
end TrustTunnel.Filter
