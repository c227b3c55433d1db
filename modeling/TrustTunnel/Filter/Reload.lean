import TrustTunnel.Filter.Match
import TrustTunnel.Filter.Names

/-!
# Filter.Reload

`update_exclusions` forgets what was loaded before, and reads its text as a set of tokens.
-/

namespace TrustTunnel.Filter

open Lib List DomainFilter

/-- `CidrRangeSet` is a set: the order of the ranges does not matter to it. -/
def NetOps.RangeSets (net : NetOps) : Prop :=
  ∀ rs rs' r, (∀ x, x ∈ rs ↔ x ∈ rs') → net.includes rs r = net.includes rs' r

def ParseResult.key : ParseResult → ParseResult
  | .domain text _ => .domain text ⟨false, false⟩
  | r => r

/-- There is something at the place of the entry; a malformed one has none. -/
def Tables.Holds (t : Tables) : ParseResult → Prop
  | .address a => a ∈ t.addresses
  | .domain text _ => text ∈ t.domains
  | .range r => r ∈ t.cidrRanges
  | .port p => p ∈ t.portsOnly
  | .malformed => True

structure Tables.Alike (t t' : Tables) : Prop where
  flags : ∀ name, t.flags name = t'.flags name
  holds : ∀ r, t.Holds r ↔ t'.Holds r

abbrev Below (o o' : Option DomainFilter) : Prop := Option.Rel (fun g g' => g.tables.Alike g'.tables) o o'

/-! ## The tables as sets -/

section Sets

variable {net : NetOps} {es es' : List Bytes}

theorem holds_add (t : Tables) (e : Bytes) (r : ParseResult) :
    (t.add net e).Holds r ↔ t.Holds r ∨ (parseEntry net e).key = r.key := by
  unfold Tables.add
  cases parseEntry net e <;> cases r <;>
    simp [Tables.Holds, ParseResult.key, or_comm, eq_comm]

theorem holds_foldl (t : Tables) (r : ParseResult) :
    (es.foldl (Tables.add net) t).Holds r ↔ t.Holds r ∨ ∃ e ∈ es, (parseEntry net e).key = r.key := by
  induction es generalizing t with
  | nil => simp
  | cons e es ih =>
    rw [foldl_cons, ih, holds_add]
    simp [or_assoc]

variable (hes : ∀ e, e ∈ es ↔ e ∈ es')
include hes

theorem alike_tablesOf : (tablesOf net es).Alike (tablesOf net es') where
  flags name := by
    have hany : ∀ p : Bytes → Bool, es.any p = es'.any p := fun p => by
      rw [Bool.eq_iff_iff]
      simp [hes]
    simp [tablesOf, flags_foldl, hany]
  holds r := by simp [tablesOf, holds_foldl, hes]

theorem below_subFilter (mode : VpnMode) : Below (subFilter net mode es) (subFilter net mode es') := by
  have hnil : es.isEmpty = es'.isEmpty := by
    rw [Bool.eq_iff_iff, List.isEmpty_iff, List.isEmpty_iff, eq_nil_iff_forall_not_mem, eq_nil_iff_forall_not_mem]
    simp [hes]
  rw [subFilter, subFilter, hnil]
  split
  · exact .none
  · exact .some (alike_tablesOf (by simp [hes]))

end Sets

/-! ## The answers -/

theorem matchedDomainLength_alike {f f' : DomainFilter} (h : f.tables.Alike f'.tables) (name : Bytes) :
    f.matchedDomainLength name = f'.matchedDomainLength name := by
  have hseek : seekMatches f.tables = seekMatches f'.tables := by
    funext domain www seek
    rw [seekMatches_eq, seekMatches_eq, h.flags]
  simp [matchedDomainLength, hseek]

theorem addressFound_alike {net : NetOps} (hnet : net.RangeSets) {t t' : Tables} (h : t.Alike t')
    (addr : SocketAddress) : addressFound net t addr = addressFound net t' addr := by
  have haddr : ∀ a, t.addresses.contains a = t'.addresses.contains a := fun a => by
    rw [Bool.eq_iff_iff, contains_iff_mem, contains_iff_mem]
    exact h.holds (.address a)
  have hport : ∀ p, t.portsOnly.contains p = t'.portsOnly.contains p := fun p => by
    rw [Bool.eq_iff_iff, contains_iff_mem, contains_iff_mem]
    exact h.holds (.port p)
  rw [addressFound, addressFound, haddr, haddr, hport, hnet _ _ _ fun r => h.holds (.range r)]

section Below

variable {o o' : Option DomainFilter} (h : Below o o')
include h

theorem bind_below (name : Bytes) : o.bind (·.matchedDomainLength name) = o'.bind (·.matchedDomainLength name) := by
  cases h with
  | none => rfl
  | some h => exact matchedDomainLength_alike h name

theorem domainHit_below (name : Bytes) : domainHit o name = domainHit o' name := by
  cases h with
  | none => rfl
  | some h => simp [domainHit, matchedDomainLength_alike h]

theorem addressHit_below {net : NetOps} (hnet : net.RangeSets) (addr : SocketAddress) :
    addressHit net o addr = addressHit net o' addr := by
  cases h with
  | none => rfl
  | some h => simp [addressHit, addressFound_alike hnet h]

theorem hasDomains_below : hasDomains o = hasDomains o' := by
  cases h with
  | none => rfl
  | some h =>
    have hempty : ∀ t : Tables, t.domains.entries.isEmpty = true ↔ ∀ name, name ∉ t.domains := by
      intro t
      simp [AList.mem_keys, AList.keys, keys, eq_nil_iff_forall_not_mem, Sigma.forall]
    rw [hasDomains, hasDomains, Bool.not_inj_iff, Bool.eq_iff_iff, hempty, hempty]
    exact forall_congr' fun name => not_congr (h.holds (.domain name ⟨false, false⟩))

end Below

structure DomainFilter.Alike (f f' : DomainFilter) : Prop where
  loaded : f.Loaded ∧ f'.Loaded
  tables : f.tables.Alike f'.tables
  overrides : Below f.defaultOverrides f'.defaultOverrides
  exclusions : Below f.explicitExclusions f'.explicitExclusions
  defaults : Below f.explicitDefaults f'.explicitDefaults
  resolvedTags : f.resolvedTags = f'.resolvedTags
  suspects : f.exclusionSuspects = f'.exclusionSuspects

section Alike

variable {f f' : DomainFilter} (h : f.Alike f')
include h

theorem matchExplicitDomain_alike : f.matchExplicitDomain = f'.matchExplicitDomain := by
  funext name
  simp only [matchExplicitDomain, bind_below h.exclusions, bind_below h.defaults]

theorem matchDomain_alike (name : Bytes) : f.matchDomain name = f'.matchDomain name := by
  rw [matchDomain_eq h.loaded.1, matchDomain_eq h.loaded.2, matchExplicitDomain_alike h,
    domainHit_below h.overrides, matchedDomainLength_alike h.tables]

theorem matchTag_alike {net : NetOps} (hnet : net.RangeSets) (tag : SockAddrTag) :
    f.matchTag net tag = f'.matchTag net tag := by
  have hdomain : f.matchDomain = f'.matchDomain := funext (matchDomain_alike h)
  have hhit : domainHit f.defaultOverrides = domainHit f'.defaultOverrides := funext (domainHit_below h.overrides)
  rw [matchTag_eq net h.loaded.1, matchTag_eq net h.loaded.2, addressHit_below h.overrides hnet,
    addressHit_below h.exclusions hnet, addressHit_below h.defaults hnet]
  simp only [tagVerdict, overridden_eq h.loaded.1, overridden_eq h.loaded.2, matchExplicitDomain_alike h,
    hdomain, hhit, h.resolvedTags, h.suspects, addressFound_alike hnet h.tables,
    hasDomains_below h.overrides, hasDomains_below h.defaults]

end Alike

theorem updateExclusions_again (net : NetLib) (hnet : net.RangeSets) (f : DomainFilter) (m₁ m₂ : VpnMode)
    (s₁ s₂ s : Bytes) (hs : ∀ t, t ∈ words isSpace s ↔ t ∈ words isSpace s₂) :
    (f.updateExclusions net.toNetOps m₁ s₁).updateExclusions net.toNetOps m₂ s₂ =
        f.updateExclusions net.toNetOps m₂ s₂ ∧
      (∀ name, (f.updateExclusions net.toNetOps m₂ s).matchDomain name =
        (f.updateExclusions net.toNetOps m₂ s₂).matchDomain name) ∧
      ∀ tag, (f.updateExclusions net.toNetOps m₂ s).matchTag net.toNetOps tag =
        (f.updateExclusions net.toNetOps m₂ s₂).matchTag net.toNetOps tag := by
  have haccepted : ∀ k e, e ∈ accepted net.toNetOps k (words isSpace s) ↔
      e ∈ accepted net.toNetOps k (words isSpace s₂) := by
    simp [accepted, hs]
  have halike : (f.updateExclusions net.toNetOps m₂ s).Alike (f.updateExclusions net.toNetOps m₂ s₂) := by
    have hloaded := And.intro (loaded_updateExclusions net f m₂ s) (loaded_updateExclusions net f m₂ s₂)
    rw [updateExclusions_eq, updateExclusions_eq] at hloaded ⊢
    exact ⟨hloaded, alike_tablesOf (haccepted _), below_subFilter (haccepted _) _, below_subFilter (haccepted _) _,
      below_subFilter (haccepted _) _, rfl, rfl⟩
  exact ⟨by simp [updateExclusions_eq, filterOf], matchDomain_alike halike, matchTag_alike halike hnet⟩

theorem updateExclusions_again_shuffled : Ipv4.net.RangeSets ∧
      (∀ t, t ∈ words isSpace (ascii "+b.c  a.b") ↔ t ∈ words isSpace (ascii "a.b +b.c a.b")) ∧
      ∀ name, (init.updateExclusions Ipv4.net.toNetOps .general (ascii "+b.c  a.b")).matchDomain name =
        (init.updateExclusions Ipv4.net.toNetOps .general (ascii "a.b +b.c a.b")).matchDomain name := by
  have hnet : Ipv4.net.RangeSets := fun rs rs' r h => by
    change rs.any _ = rs'.any _
    rw [Bool.eq_iff_iff]
    simp [h]
  have hs : ∀ t, t ∈ words isSpace (ascii "+b.c  a.b") ↔ t ∈ words isSpace (ascii "a.b +b.c a.b") := by
    have hw : words isSpace (ascii "+b.c  a.b") = [ascii "+b.c", ascii "a.b"] ∧
        words isSpace (ascii "a.b +b.c a.b") = [ascii "a.b", ascii "+b.c", ascii "a.b"] := by decide +kernel
    rw [hw.1, hw.2]
    intro t
    simp [or_comm, or_left_comm]
  exact ⟨hnet, hs, (updateExclusions_again Ipv4.net hnet init .general .general [] _ _ hs).2.1⟩

end TrustTunnel.Filter
