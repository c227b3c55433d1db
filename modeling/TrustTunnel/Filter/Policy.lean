import TrustTunnel.Filter.Match

/-!
# Filter.Policy

`routing_policy`: the compiler of four rule lists into the exclusion text of the core, and what the
core then does with a name.
-/

namespace TrustTunnel.Filter

open Lib List

/-! ## The compiler -/

def defaultPrivateExclusions : List Bytes :=
  [ascii "10.0.0.0/8", ascii "172.16.0.0/12", ascii "192.168.0.0/16", ascii "127.0.0.0/8",
    ascii "169.254.0.0/16", ascii "::1/128", ascii "fc00::/7", ascii "fe80::/10"]

def nonEmpty (entries : List Bytes) : List Bytes := entries.filter fun e => !e.isEmpty

def withSigil (c : Char) (entries : List Bytes) : List Bytes :=
  (nonEmpty entries).map (chr c :: ·)

/-- `present` of the source is the set of the entries written so far. -/
def addPrivate (proxy result : List Bytes) (cidr : Bytes) : List Bytes :=
  if !proxy.contains cidr && !result.contains cidr then result ++ [cidr] else result

def buildGeneralExclusions (direct proxy : List Bytes) : List Bytes :=
  defaultPrivateExclusions.foldl (addPrivate proxy) (nonEmpty direct) ++ withSigil '!' proxy

def buildExclusions (mode : Bytes) (direct proxy : List Bytes) : List Bytes :=
  if mode = ascii "selective" then nonEmpty proxy ++ withSigil '!' direct
  else buildGeneralExclusions direct proxy

def buildPolicy (mode : Bytes) (direct proxy explicitDirect explicitProxy : List Bytes) : List Bytes :=
  let (excluded, defaults) :=
    if mode = ascii "selective" then (explicitProxy, explicitDirect)
    else (explicitDirect, explicitProxy)
  buildExclusions mode direct proxy ++ withSigil '+' excluded ++ withSigil '^' defaults

def joinLines (entries : List Bytes) : Bytes := [chr '\n'].intercalate entries

/-! ## The reference -/

structure IsRuleToken (net : NetOps) (t : Bytes) : Prop where
  nonempty : t ≠ []
  noSpace : ∀ c ∈ t, isSpace c = false
  noSigil : t.head?.any isSigil = false
  accepted : (parseEntry net t).isMalformed = false

instance (net : NetOps) (t : Bytes) : Decidable (IsRuleToken net t) :=
  decidable_of_iff (t ≠ [] ∧ t.all (!isSpace ·) = true ∧ t.head?.any isSigil = false ∧
      (parseEntry net t).isMalformed = false)
    ⟨fun h => ⟨h.1, by simpa using h.2.1, h.2.2.1, h.2.2.2⟩, fun h => ⟨h.1, by simpa using h.2, h.3, h.4⟩⟩

open DomainFilter

def listMatch (net : NetOps) (mode : VpnMode) (entries : List Bytes) (name : Bytes) : Option Nat :=
  (init.updateExclusions net mode (joinLines entries)).matchedDomainLength name

/-- Of the list for direct and the list for proxy, the one the mode excludes from its default. -/
def exclusionList (mode : VpnMode) (direct proxy : List Bytes) : List Bytes :=
  match mode with
  | .general => direct
  | .selective => proxy

/-- The other one: it goes the default way of the mode. -/
def defaultList (mode : VpnMode) (direct proxy : List Bytes) : List Bytes :=
  match mode with
  | .general => proxy
  | .selective => direct

/-- The longest matching user domain decides, a tie going to the default route. -/
def userRoute (excluded default : Option Nat) : Option MatchStatus :=
  match excluded, default with
  | none, none => none
  | some _, none => some .exclusion
  | none, some _ => some .defaultOverride
  | some n, some m => some (if n > m then .exclusion else .defaultOverride)

def referenceRoute (net : NetOps) (mode : VpnMode) (direct proxy userDirect userProxy : List Bytes)
    (name : Bytes) : MatchStatus :=
  let found (entries : List Bytes) := listMatch net mode entries name
  match userRoute (found (exclusionList mode userDirect userProxy)) (found (defaultList mode userDirect userProxy)) with
  | some status => status
  | none =>
    if (found (defaultList mode direct proxy)).isSome then .defaultOverride
    else if (found (exclusionList mode direct proxy)).isSome then .exclusion
    else .default

/-! ## The text and its tokens -/

theorem words_joinLines {entries : List Bytes} (h : ∀ t ∈ entries, IsWord isSpace t) :
    words isSpace (joinLines entries) = entries := by
  rw [joinLines, words_lines (by decide)]
  induction entries with
  | nil => rfl
  | cons t ts ih =>
    rw [flatMap_cons, words_word (h t (by simp)), ih fun u hu => h u (by simp [hu])]
    rfl

section Tokens

variable {net : NetOps} {ts : List Bytes} (hts : ∀ t ∈ ts, IsRuleToken net t)
include hts

theorem nonEmpty_tokens : nonEmpty ts = ts := by
  refine filter_eq_self.mpr fun t ht => ?_
  have := (hts t ht).nonempty
  simpa using this

theorem classify_token : ∀ t ∈ ts, classify t = (.ordinary, t) := by
  intro t ht
  have h := hts t ht
  cases t with
  | nil => exact absurd rfl h.nonempty
  | cons c rest => exact classify_of_not_sigil rest h.noSigil

theorem accepted_ordinary_tokens : accepted net .ordinary ts = ts := by
  induction ts with
  | nil => rfl
  | cons t ts ih =>
    rw [accepted_cons, ih fun u hu => hts u (by simp [hu])]
    simp [accepted, classify_token hts t (by simp), (hts t (by simp)).accepted]

theorem accepted_withSigil {c : Char} {j : RuleClass} (hc : RuleClass.ofSigil (chr c) = some j)
    (k : RuleClass) : accepted net k (withSigil c ts) = if j = k then ts else [] := by
  rw [withSigil, nonEmpty_tokens hts]
  induction ts with
  | nil => simp [accepted]
  | cons t ts ih =>
    rw [map_cons, accepted_cons, ih fun u hu => hts u (by simp [hu])]
    have ht := (hts t (by simp)).accepted
    by_cases hk : j = k
    · simp [accepted, classify, hc, hk, ht]
    · simp [accepted, classify, hc, hk]

theorem isWord_tokens : ∀ t ∈ ts, IsWord isSpace t :=
  fun t ht => ⟨(hts t ht).nonempty, (hts t ht).noSpace⟩

theorem isWord_withSigil {c : Char} (hc : isSpace (chr c) = false) : ∀ t ∈ withSigil c ts, IsWord isSpace t := by
  intro t ht
  rw [withSigil, nonEmpty_tokens hts, mem_map] at ht
  obtain ⟨u, hu, rfl⟩ := ht
  refine ⟨by simp, fun b hb => ?_⟩
  rcases mem_cons.mp hb with rfl | hb
  · exact hc
  · exact (hts u hu).noSpace b hb

end Tokens

/-! ## The private ranges -/

theorem private_isWord : ∀ p ∈ defaultPrivateExclusions, IsWord isSpace p := by
  intro p hp
  have h : ∀ p ∈ defaultPrivateExclusions, p ≠ [] ∧ p.all (!isSpace ·) = true := by decide
  exact ⟨(h p hp).1, by simpa using (h p hp).2⟩

theorem private_classify : ∀ p ∈ defaultPrivateExclusions, classify p = (.ordinary, p) := by
  decide

theorem private_not_domain (net : NetOps) : ∀ p ∈ defaultPrivateExclusions, ∀ text flags,
    parseEntry net p ≠ .domain text flags := by
  intro p hp text flags h
  have hd : ∀ p ∈ defaultPrivateExclusions, parseDomain p = .malformed := by decide
  have := parseDomain_of_parseEntry h
  rw [hd p hp] at this
  cases this

theorem foldl_addPrivate (proxy result ps : List Bytes) :
    ∃ added, ps.foldl (addPrivate proxy) result = result ++ added ∧ ∀ p ∈ added, p ∈ ps := by
  induction ps generalizing result with
  | nil => exact ⟨[], by simp, by simp⟩
  | cons p ps ih =>
    obtain ⟨added, hadded, hmem⟩ := ih (addPrivate proxy result p)
    rw [foldl_cons, hadded, addPrivate]
    split
    · refine ⟨p :: added, by simp, fun q hq => ?_⟩
      rcases mem_cons.mp hq with rfl | hq
      · simp
      · exact mem_cons_of_mem _ (hmem q hq)
    · exact ⟨added, rfl, fun q hq => mem_cons_of_mem _ (hmem q hq)⟩

theorem buildPolicy_lines (mode : VpnMode) (direct proxy userDirect userProxy : List Bytes) :
    ∃ added, (∀ p ∈ added, p ∈ defaultPrivateExclusions) ∧
      buildPolicy mode.name direct proxy userDirect userProxy = nonEmpty (exclusionList mode direct proxy) ++ added
          ++ withSigil '!' (defaultList mode direct proxy) ++ withSigil '+' (exclusionList mode userDirect userProxy)
          ++ withSigil '^' (defaultList mode userDirect userProxy) := by
  cases mode with
  | general =>
    obtain ⟨added, hadded, hmem⟩ :=
      foldl_addPrivate proxy (nonEmpty direct) defaultPrivateExclusions
    have hmode : VpnMode.general.name ≠ ascii "selective" := by decide
    refine ⟨added, hmem, ?_⟩
    simp only [buildPolicy, buildExclusions, if_neg hmode, buildGeneralExclusions, hadded]
    rfl
  | selective =>
    refine ⟨[], by simp, ?_⟩
    simp only [append_nil]
    rfl

/-! ## The loaded policy -/

section Loaded

variable (net : NetLib) (mode : VpnMode)

theorem matchedDomainLength_congr {f g : DomainFilter} (h : f.tables.domains = g.tables.domains)
    (name : Bytes) : f.matchedDomainLength name = g.matchedDomainLength name := by
  have hseek : seekMatches f.tables = seekMatches g.tables := by
    funext domain www seek
    simp [seekMatches, h]
  simp [matchedDomainLength, hseek]

section

variable {ts : List Bytes} (hts : ∀ t ∈ ts, IsRuleToken net.toNetOps t) (name : Bytes)
include hts

theorem listMatch_eq : listMatch net.toNetOps mode ts name
      = (plainFilter net.toNetOps mode ts).matchedDomainLength name := by
  rw [listMatch, updateExclusions_eq, words_joinLines (isWord_tokens hts)]
  refine matchedDomainLength_congr ?_ name
  simp [filterOf, accepted_ordinary_tokens hts, plainFilter]

theorem matched_subFilter : (subFilter net.toNetOps mode ts).bind (·.matchedDomainLength name)
      = listMatch net.toNetOps mode ts name := by
  rw [listMatch_eq net mode hts]
  cases ts with
  | nil =>
    have hnone := domainHit_of_not_hasDomains (o := some (plainFilter net.toNetOps mode [])) rfl name
    have hmatch : (plainFilter net.toNetOps mode []).matchedDomainLength name = none := by
      simpa [domainHit] using hnone
    rw [hmatch]
    rfl
  | cons t ts =>
    have hne : (t :: ts).filter (fun w => !w.isEmpty) = t :: ts := nonEmpty_tokens hts
    simp [subFilter, hne]

theorem domainHit_subFilter :
    domainHit (subFilter net.toNetOps mode ts) name = (listMatch net.toNetOps mode ts name).isSome := by
  rw [← matched_subFilter net mode hts]
  cases subFilter net.toNetOps mode ts <;> rfl

end

omit net in
theorem tokens_of_lists {net : NetOps} {direct proxy userDirect userProxy : List Bytes}
    (htok : ∀ t ∈ direct ++ proxy ++ userDirect ++ userProxy, IsRuleToken net t) :
    (∀ t ∈ exclusionList mode direct proxy, IsRuleToken net t) ∧
    (∀ t ∈ defaultList mode direct proxy, IsRuleToken net t) ∧
    (∀ t ∈ exclusionList mode userDirect userProxy, IsRuleToken net t) ∧
    (∀ t ∈ defaultList mode userDirect userProxy, IsRuleToken net t) := by
  simp only [mem_append] at htok
  cases mode with
  | general => exact ⟨fun t h => htok t (.inl (.inl (.inl h))), fun t h => htok t (.inl (.inl (.inr h))),
      fun t h => htok t (.inl (.inr h)), fun t h => htok t (.inr h)⟩
  | selective => exact ⟨fun t h => htok t (.inl (.inl (.inr h))), fun t h => htok t (.inl (.inl (.inl h))),
      fun t h => htok t (.inr h), fun t h => htok t (.inl (.inr h))⟩

theorem policy_loaded (f : DomainFilter) {direct proxy userDirect userProxy : List Bytes}
    (htok : ∀ t ∈ direct ++ proxy ++ userDirect ++ userProxy, IsRuleToken net.toNetOps t) :
    let g := f.updateExclusions net.toNetOps mode (joinLines (buildPolicy mode.name direct proxy userDirect userProxy))
    g.tables.domains = (tablesOf net.toNetOps (exclusionList mode direct proxy)).domains ∧
    g.defaultOverrides = subFilter net.toNetOps mode (defaultList mode direct proxy) ∧
    g.explicitExclusions = subFilter net.toNetOps mode (exclusionList mode userDirect userProxy) ∧
    g.explicitDefaults = subFilter net.toNetOps mode (defaultList mode userDirect userProxy) := by
  obtain ⟨added, hadded, hlines⟩ := buildPolicy_lines mode direct proxy userDirect userProxy
  obtain ⟨he, hd, hue, hud⟩ := tokens_of_lists mode htok
  rw [nonEmpty_tokens he] at hlines
  have hplain : ∀ p ∈ added, classify p = (.ordinary, p) := fun p hp =>
    private_classify p (hadded p hp)
  have hwords : words isSpace (joinLines (buildPolicy mode.name direct proxy userDirect userProxy))
      = buildPolicy mode.name direct proxy userDirect userProxy := by
    refine words_joinLines fun t ht => ?_
    rw [hlines] at ht
    simp only [mem_append] at ht
    rcases ht with (((ht | ht) | ht) | ht) | ht
    · exact isWord_tokens he t ht
    · exact private_isWord t (hadded t ht)
    · exact isWord_withSigil hd (by decide) t ht
    · exact isWord_withSigil hue (by decide) t ht
    · exact isWord_withSigil hud (by decide) t ht
  -- the entries of one class, line by line
  have hclass : ∀ k, accepted net.toNetOps k
        (words isSpace (joinLines (buildPolicy mode.name direct proxy userDirect userProxy)))
      = accepted net.toNetOps k (exclusionList mode direct proxy) ++ accepted net.toNetOps k added
        ++ (if .defaultOverride = k then defaultList mode direct proxy else [])
        ++ (if .explicitExclusion = k then exclusionList mode userDirect userProxy else [])
        ++ (if .explicitDefault = k then defaultList mode userDirect userProxy else []) := by
    intro k
    rw [hwords, hlines]
    simp only [accepted_append]
    rw [accepted_withSigil hd (j := .defaultOverride) (by decide),
      accepted_withSigil hue (j := .explicitExclusion) (by decide),
      accepted_withSigil hud (j := .explicitDefault) (by decide)]
  have hsigil : ∀ k, k ≠ .ordinary → accepted net.toNetOps k (exclusionList mode direct proxy) = [] ∧
      accepted net.toNetOps k added = [] := fun k hk =>
    ⟨accepted_sigil_plain (classify_token he) hk, accepted_sigil_plain hplain hk⟩
  rw [updateExclusions_eq]
  simp only [filterOf, hclass]
  refine ⟨?_, ?_, ?_, ?_⟩
  · simp only [tablesOf, foldl_append, accepted_ordinary_tokens he, foldl_accepted_plain hplain]
    exact Tables.domains_skip (fun p hp => private_not_domain net.toNetOps p (hadded p hp)) _
  · simp [hsigil .defaultOverride]
  · simp [hsigil .explicitExclusion]
  · simp [hsigil .explicitDefault]

/-- The policy compiled from any four lists of rules, loaded by the core in either mode, gives
every name the route of the reference. -/
theorem matchDomain_buildPolicy (f : DomainFilter) (direct proxy userDirect userProxy : List Bytes)
    (htok : ∀ t ∈ direct ++ proxy ++ userDirect ++ userProxy, IsRuleToken net.toNetOps t) (name : Bytes) :
    (f.updateExclusions net.toNetOps mode
      (joinLines (buildPolicy mode.name direct proxy userDirect userProxy))).matchDomain name
      = referenceRoute net.toNetOps mode direct proxy userDirect userProxy name := by
  obtain ⟨hdom, hover, hexcl, hdef⟩ := policy_loaded net mode f htok
  obtain ⟨he, hd, hue, hud⟩ := tokens_of_lists mode htok
  have hexplicit : (f.updateExclusions net.toNetOps mode
      (joinLines (buildPolicy mode.name direct proxy userDirect userProxy))).matchExplicitDomain name
      = userRoute (listMatch net.toNetOps mode (exclusionList mode userDirect userProxy) name)
        (listMatch net.toNetOps mode (defaultList mode userDirect userProxy) name) := by
    rw [matchExplicitDomain, hexcl, hdef, matched_subFilter net mode hue, matched_subFilter net mode hud]
    generalize listMatch net.toNetOps mode (exclusionList mode userDirect userProxy) name = a
    generalize listMatch net.toNetOps mode (defaultList mode userDirect userProxy) name = b
    cases a with
    | none => cases b <;> rfl
    | some n =>
      cases b with
      | none => rfl
      | some m =>
        by_cases h : n > m
        all_goals simp [userRoute, h]
  have hown : (f.updateExclusions net.toNetOps mode
      (joinLines (buildPolicy mode.name direct proxy userDirect userProxy))).matchedDomainLength name
      = listMatch net.toNetOps mode (exclusionList mode direct proxy) name := by
    rw [listMatch_eq net mode he]
    exact matchedDomainLength_congr hdom name
  rw [matchDomain_eq (loaded_updateExclusions net f mode _), hexplicit, hown, hover, domainHit_subFilter net mode hd]
  rfl

end Loaded

/-- A user rule for one host, inside a user rule for the other subdomains, inside a group. -/
theorem vpnHost_route :
    let policy := joinLines (buildPolicy VpnMode.general.name [ascii "10.0.0.0/8"]
      [ascii "example.com"] [ascii "*.example.com"] [ascii "vpn.example.com"])
    let f := init.updateExclusions Ipv4.net.toNetOps .general policy
    f.matchDomain (ascii "mail.example.com") = .exclusion ∧
    f.matchDomain (ascii "VPN.example.com") = .defaultOverride ∧
    f.matchDomain (ascii "VPN.example.com") =
      referenceRoute Ipv4.net.toNetOps .general [ascii "10.0.0.0/8"] [ascii "example.com"]
        [ascii "*.example.com"] [ascii "vpn.example.com"] (ascii "VPN.example.com") :=
  ⟨by decide +kernel, by decide +kernel,
    matchDomain_buildPolicy Ipv4.net .general init [ascii "10.0.0.0/8"]
      [ascii "example.com"] [ascii "*.example.com"] [ascii "vpn.example.com"] (by decide +kernel)
      (ascii "VPN.example.com")⟩

end TrustTunnel.Filter
