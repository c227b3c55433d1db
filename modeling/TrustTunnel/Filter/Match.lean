import TrustTunnel.Filter.Load
import TrustTunnel.Lib.System

/-!
# Filter.Match

The verdicts of a filter in any state a run of calls can leave it in.
-/

namespace TrustTunnel.Filter

open Lib

inductive Op where
  | updateExclusions (mode : VpnMode) (exclusions : Bytes)
  | addResolvedTag (tag : SockAddrTag) (domain : Bytes) (keep : SockAddrTag → Bool)
  | addExclusionSuspect (addr : SocketAddress) (keep : SocketAddress → Bool)
  | expire (keepTag : SockAddrTag → Bool) (keep : SocketAddress → Bool)
  | matchDomain (domain : Bytes)
  | matchTag (tag : SockAddrTag)

variable (net : NetOps)

namespace DomainFilter

def step (f : DomainFilter) : Op → DomainFilter × List MatchResult
  | .updateExclusions mode exclusions => (f.updateExclusions net mode exclusions, [])
  | .addResolvedTag tag domain keep => (f.addResolvedTag tag domain keep, [])
  | .addExclusionSuspect addr keep => (f.addExclusionSuspect addr keep, [])
  | .expire keepTag keep => (f.expire keepTag keep, [])
  | .matchDomain domain => (f, [⟨f.matchDomain domain, some domain⟩])
  | .matchTag tag => (f, [f.matchTag net tag])

def system : System DomainFilter Op MatchResult := ⟨init, step net⟩

/-! ## The filters below a loaded one -/

structure IsPlain (g : DomainFilter) : Prop where
  defaultOverrides : g.defaultOverrides = none
  explicitExclusions : g.explicitExclusions = none
  explicitDefaults : g.explicitDefaults = none
  resolvedTags : ∀ tag, g.resolvedTags tag = none
  exclusionSuspects : ∀ addr, g.exclusionSuspects addr = false

structure Loaded (f : DomainFilter) : Prop where
  defaultOverrides : ∀ g, f.defaultOverrides = some g → g.IsPlain
  explicitExclusions : ∀ g, f.explicitExclusions = some g → g.IsPlain
  explicitDefaults : ∀ g, f.explicitDefaults = some g → g.IsPlain

theorem isPlain_subFilter {net : NetOps} {mode : VpnMode} {entries : List Bytes} {g : DomainFilter}
    (h : subFilter net mode entries = some g) : g.IsPlain := by
  simp only [subFilter, Option.ite_none_left_eq_some, Option.some.injEq] at h
  obtain ⟨-, rfl⟩ := h
  exact ⟨rfl, rfl, rfl, fun _ => rfl, fun _ => rfl⟩

theorem loaded_updateExclusions (net : NetLib) (f : DomainFilter) (mode : VpnMode) (text : Bytes) :
    (f.updateExclusions net.toNetOps mode text).Loaded := by
  rw [updateExclusions_eq]
  exact ⟨fun _ h => isPlain_subFilter h, fun _ h => isPlain_subFilter h, fun _ h => isPlain_subFilter h⟩

theorem loaded_step (net : NetLib) {f : DomainFilter} (hf : f.Loaded) (op : Op) :
    (f.step net.toNetOps op).1.Loaded := by
  cases op with
  | updateExclusions mode text => exact loaded_updateExclusions net f mode text
  | addResolvedTag tag domain keep | addExclusionSuspect addr keep | expire keepTag keep =>
    exact ⟨hf.1, hf.2, hf.3⟩
  | matchDomain domain | matchTag tag => exact hf

theorem loaded_run (net : NetLib) (ops : List Op) : ((system net.toNetOps).exec init ops).Loaded := by
  refine (system net.toNetOps).inv_exec (I := Loaded) ?_ (fun _ op hf => loaded_step net hf op) ops
  exact ⟨fun _ h => (by cases h), fun _ h => (by cases h), fun _ h => (by cases h)⟩

/-! ## The verdicts in terms of the tables -/

def domainHit (o : Option DomainFilter) (domain : Bytes) : Bool :=
  o.any fun g => (g.matchedDomainLength domain).isSome

def addressHit (o : Option DomainFilter) (addr : SocketAddress) : Bool :=
  o.any fun g => addressFound net g.tables addr

theorem matchDomain_plain {g : DomainFilter} (hg : g.IsPlain) (domain : Bytes) :
    (g.matchDomain domain == .exclusion) = (g.matchedDomainLength domain).isSome := by
  obtain ⟨mode, tables, overrides, exclusions, defaults, tags, suspects⟩ := g
  obtain ⟨rfl, rfl, rfl, -, -⟩ := hg
  simp only [matchDomain]
  cases (matchedDomainLength _ domain) <;> rfl

theorem matchTag_plain {g : DomainFilter} (hg : g.IsPlain) (tag : SockAddrTag) :
    ((g.matchTag net tag).status == .exclusion) = addressFound net g.tables tag.addr := by
  obtain ⟨mode, tables, overrides, exclusions, defaults, tags, suspects⟩ := g
  obtain ⟨rfl, rfl, rfl, htags, hsus⟩ := hg
  simp only at htags hsus
  simp only [matchTag, tagVerdict, htags tag, hsus]
  cases addressFound net tables tag.addr <;> rfl

variable {f : DomainFilter}

theorem matchDomain_eq (hf : f.Loaded) (domain : Bytes) :
    f.matchDomain domain =
      match f.matchExplicitDomain domain with
      | some status => status
      | none =>
        if domainHit f.defaultOverrides domain then .defaultOverride
        else if (f.matchedDomainLength domain).isSome then .exclusion
        else .default := by
  obtain ⟨mode, tables, overrides, exclusions, defaults, tags, suspects⟩ := f
  rw [matchDomain.eq_def]
  cases overrides with
  | none => rfl
  | some o =>
    simp only [matchDomain_plain (hf.defaultOverrides o rfl)]
    rfl

theorem matchTag_eq (hf : f.Loaded) (tag : SockAddrTag) :
    f.matchTag net tag = tagVerdict net f tag (addressHit net f.explicitDefaults tag.addr)
      (addressHit net f.explicitExclusions tag.addr) (addressHit net f.defaultOverrides tag.addr) := by
  obtain ⟨mode, tables, overrides, exclusions, defaults, tags, suspects⟩ := f
  rw [matchTag.eq_def]
  dsimp only
  congr 1
  · cases defaults with
    | none => rfl
    | some g => exact matchTag_plain net (hf.explicitDefaults g rfl) tag
  · cases exclusions with
    | none => rfl
    | some g => exact matchTag_plain net (hf.explicitExclusions g rfl) tag
  · cases overrides with
    | none => rfl
    | some g => exact matchTag_plain net (hf.defaultOverrides g rfl) tag

theorem overridden_eq (hf : f.Loaded) (domain : Option Bytes) :
    f.defaultOverrides.any (fun o => domain.any (matchDomain o · == .exclusion))
      = domain.any (domainHit f.defaultOverrides) := by
  cases ho : f.defaultOverrides with
  | none => cases domain <;> rfl
  | some o =>
    simp only [Option.any_some, matchDomain_plain (hf.defaultOverrides o ho)]
    rfl

theorem domainHit_of_not_hasDomains {o : Option DomainFilter} (h : hasDomains o = false)
    (domain : Bytes) : domainHit o domain = false := by
  cases o with
  | none => rfl
  | some g =>
    have hnil : g.tables.domains.entries = [] := by simpa [hasDomains] using h
    have hlook : ∀ seek, g.tables.domains.lookup seek = none := by
      simp [AList.lookup, hnil]
    simp [domainHit, matchedDomainLength, seekMatches, hlook]

theorem matchExplicitDomain_exclusion {domain : Bytes} (h : domainHit f.explicitDefaults domain = false) :
    f.matchExplicitDomain domain = none ∨ f.matchExplicitDomain domain = some .exclusion := by
  have hdef : f.explicitDefaults.bind (matchedDomainLength · domain) = none := by
    cases hd : f.explicitDefaults with
    | none => rfl
    | some g => simpa [domainHit, hd] using h
  simp only [matchExplicitDomain, hdef]
  cases f.explicitExclusions.bind (matchedDomainLength · domain) with
  | none => exact .inl rfl
  | some n => exact .inr rfl

/-! ## A name that becomes known -/

section Exclusion

variable (net : NetOps) (hf : f.Loaded) (tag : SockAddrTag) (hn : f.resolvedTags tag = none)
  (he : (f.matchTag net tag).status = .exclusion)
include hf hn he

/-- What an exclusion without a name rests on: an address entry, not overridden by one of the other
tables, and no name that could override it. -/
theorem exclusion_of_address :
    let explicitAddress := addressHit net f.explicitExclusions tag.addr
    addressHit net f.explicitDefaults tag.addr = false ∧
    hasDomains f.explicitDefaults = false ∧
    (explicitAddress = false →
      addressHit net f.defaultOverrides tag.addr = false ∧ hasDomains f.defaultOverrides = false) ∧
    (explicitAddress || addressFound net f.tables tag.addr) = true := by
  rw [matchTag_eq net hf, tagVerdict, overridden_eq hf, hn] at he
  simp only [Option.bind_none, Option.any_none, Bool.false_or] at he
  split at he
  · cases he
  rename_i hdef
  split at he
  · cases he
  rename_i hover
  split at he
  · rename_i hfound
    simp only [Option.isNone_none, Bool.true_and] at he
    split at he
    · cases he
    rename_i hdom
    simp only [Bool.or_eq_true, Bool.and_eq_true, not_or, not_and,
      Bool.not_eq_true, Bool.not_eq_true'] at hdef hover hdom
    exact ⟨hdef, hdom.2, fun h => ⟨hover h, hdom.1 h⟩, hfound⟩
  · split at he <;> cases he

theorem exclusion_kept (domain : Bytes) (keep : SockAddrTag → Bool) :
    ((f.addResolvedTag tag domain keep).matchTag net tag).status = .exclusion := by
  obtain ⟨hdef, hdefDom, hover, hfound⟩ := exclusion_of_address net hf tag hn he
  have hf' : (f.addResolvedTag tag domain keep).Loaded := ⟨hf.1, hf.2, hf.3⟩
  have hres : (f.addResolvedTag tag domain keep).resolvedTags tag = some domain := if_pos rfl
  rw [matchTag_eq net hf', tagVerdict, hres, overridden_eq hf', Option.bind_some]
  have hexplicit := matchExplicitDomain_exclusion (f := f.addResolvedTag tag domain keep)
    (domainHit_of_not_hasDomains hdefDom domain)
  rcases hexplicit with hnone | hexcl
  · rw [hnone]
    simp only [addResolvedTag, hdef, Option.isNone_some, Bool.false_and]
    cases hx : addressHit net f.explicitExclusions tag.addr with
    | true => simp
    | false =>
      obtain ⟨haddr, hnames⟩ := hover hx
      have hdomain := domainHit_of_not_hasDomains hnames domain
      have hown : addressFound net f.tables tag.addr = true := by simpa [hx] using hfound
      simp [haddr, hdomain, hown]
  · rw [hexcl]

end Exclusion

/-- In every state that a run of calls reaches: an address that is excluded while its name is not
known stays excluded under every name it may turn out to have. -/
theorem matchTag_exclusion_stable (net : NetLib) (ops : List Op) (tag : SockAddrTag)
    (hn : ((system net.toNetOps).exec init ops).resolvedTags tag = none)
    (he : (((system net.toNetOps).exec init ops).matchTag net.toNetOps tag).status = .exclusion)
    (domain : Bytes) (keep : SockAddrTag → Bool) :
    ((((system net.toNetOps).exec init ops).addResolvedTag tag domain keep).matchTag
      net.toNetOps tag).status = .exclusion :=
  exclusion_kept net.toNetOps (loaded_run net ops) tag hn he domain keep

/-- An address the user sends around the tunnel, among names of groups that go through it. -/
def dnsServerOps : List Op :=
  [.updateExclusions .general (ascii "10.0.0.0/8 !*.example.com +192.0.2.53")]

def dnsServerTag : SockAddrTag := ⟨⟨[192, 0, 2, 53], 53⟩, ascii "app"⟩

theorem dnsServer_exclusion_stable :
    let f := (system Ipv4.net.toNetOps).exec init dnsServerOps
    (f.matchTag Ipv4.net.toNetOps dnsServerTag).status = .exclusion ∧
    (f.addResolvedTag dnsServerTag (ascii "vpn.example.com") fun _ => true).matchDomain
      (ascii "vpn.example.com") = .defaultOverride ∧
    ((f.addResolvedTag dnsServerTag (ascii "vpn.example.com") fun _ => true).matchTag
      Ipv4.net.toNetOps dnsServerTag).status = .exclusion :=
  ⟨by decide +kernel, by decide +kernel,
    matchTag_exclusion_stable Ipv4.net dnsServerOps dnsServerTag (by decide +kernel)
      (by decide +kernel) (ascii "vpn.example.com") fun _ => true⟩

/-! ## Queries and connections -/

theorem status_of_no_address (hf : f.Loaded) (tag : SockAddrTag) {domain : Bytes}
    (hd : f.resolvedTags tag = some domain) (hown : addressFound net f.tables tag.addr = false)
    (hover : addressHit net f.defaultOverrides tag.addr = false)
    (hexcl : addressHit net f.explicitExclusions tag.addr = false)
    (hdef : addressHit net f.explicitDefaults tag.addr = false) :
    (f.matchTag net tag).status = f.matchDomain domain := by
  rw [matchTag_eq net hf, tagVerdict, hd, overridden_eq hf]
  simp only [hown, hover, hexcl, hdef, Option.bind_some, Option.any_some, matchDomain_eq hf]
  cases hx : f.matchExplicitDomain domain with
  | some status => rfl
  | none => cases hdom : domainHit f.defaultOverrides domain <;> simp

/-- In every state that a run of calls reaches: when no address entry of the four tables speaks
about the address, a connection takes the route of its name. -/
theorem matchTag_eq_matchDomain (net : NetLib) (ops : List Op) (tag : SockAddrTag)
    (domain : Bytes) (f : DomainFilter) (hf : f = (system net.toNetOps).exec init ops)
    (hd : f.resolvedTags tag = some domain) (hown : addressFound net.toNetOps f.tables tag.addr = false)
    (hsub : ∀ o ∈ [f.defaultOverrides, f.explicitExclusions, f.explicitDefaults],
      addressHit net.toNetOps o tag.addr = false) :
    (f.matchTag net.toNetOps tag).status = f.matchDomain domain :=
  status_of_no_address net.toNetOps (hf ▸ loaded_run net ops) tag hd hown
    (hsub _ (by simp)) (hsub _ (by simp)) (hsub _ (by simp))

def webServerTag : SockAddrTag := ⟨⟨[192, 0, 2, 80], 443⟩, ascii "app"⟩

def webServerOps : List Op :=
  dnsServerOps ++ [.addResolvedTag webServerTag (ascii "www.example.com") fun _ => true]

theorem webServer_matchDomain : let f := (system Ipv4.net.toNetOps).exec init webServerOps
    f.matchDomain (ascii "www.example.com") = .defaultOverride ∧
    (f.matchTag Ipv4.net.toNetOps webServerTag).status = f.matchDomain (ascii "www.example.com") :=
  ⟨by decide +kernel,
    matchTag_eq_matchDomain Ipv4.net webServerOps webServerTag (ascii "www.example.com") _ rfl
      (by decide +kernel) (by decide +kernel) (by decide +kernel)⟩

end DomainFilter
end TrustTunnel.Filter
