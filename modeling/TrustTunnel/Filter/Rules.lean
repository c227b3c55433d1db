import TrustTunnel.Filter.Policy

/-!
# Filter.Rules

`routing_rules` and `domain_scope`: from the rules a user keeps, through the lists they name, to the
exclusion text of the core.
-/

namespace TrustTunnel.Filter

open Lib List

/-! ## Names -/

/-- One octet as the standard library of Rust reads it: no leading zero, at most three digits. -/
def isOctet (s : Bytes) : Bool :=
  s.length ≤ 3 && (s.length == 1 || s.head? != some (chr '0')) && (Ipv4.number s).any fun n => n ≤ 255

def isIpv4 (s : Bytes) : Bool :=
  match Ipv4.splitAt (chr '.') s with
  | (a, [b, c, d]) => [a, b, c, d].all isOctet
  | _ => false

/-- `is_plain_name`. An IPv6 literal has a colon, which the loop over the characters refuses. -/
def isPlainName (value : Bytes) : Bool :=
  if value.isEmpty || !value.contains (chr '.') then false
  else if isIpv4 value then false
  else validName (chr '.') value

def isAscii (value : Bytes) : Bool := value.all fun b => b < 128

inductive GroupCache where
  | missing
  | unreadable (reason : Bytes)
  | malformed (reason : Bytes)
  | domains (names : List Bytes)

/-- What resolving reads: the IDNA mapping, the two databases, and the cache of each group. -/
structure Sources where
  domainToAscii : Bytes → Option Bytes
  geoip : Bytes → Option (List Bytes)
  geosite : Bytes → Option (List Bytes)
  groupCache : Bytes → GroupCache

variable (src : Sources)

def toCoreAscii (value : Bytes) : Bytes :=
  if isAscii value then value
  else
    let (front, name) := if startsWith value wildcardPrefix
      then (wildcardPrefix, value.drop wildcardPrefix.length) else ([], value)
    match src.domainToAscii name with
    | some a => if isPlainName a then front ++ a else value
    | none => value

def expandDomainRule (v : Bytes) : List Bytes :=
  let value := toCoreAscii src v
  if !isPlainName value then [value] else [value, wildcardPrefix ++ value]

/-! ## Rules -/

inductive EntryType where
  | domain
  | ip
  | cidr
  | geoip
  | geosite
  | iplistGroup
  | unknown (name : Bytes)

structure RuleEntry where
  entryType : EntryType
  value : Bytes

structure RoutingRules where
  direct : List RuleEntry
  proxy : List RuleEntry
  processMode : Bytes
  processes : List Bytes

def stripPrefixOr (p value : Bytes) : Bytes :=
  if startsWith value p then value.drop p.length else value

/-- One pass of the loop of `resolve_entries_collecting`: the texts, and what did not resolve. -/
def resolveEntry (e : RuleEntry) : Except Bytes (List Bytes × List Bytes) :=
  match e.entryType with
  | .domain => .ok (expandDomainRule src e.value, [])
  | .ip | .cidr => .ok ([e.value], [])
  | .geoip =>
    let category := stripPrefixOr (ascii "geoip:") e.value
    match src.geoip category with
    | some cidrs => .ok (cidrs, [])
    | none => .ok ([], [ascii "geoip:" ++ category])
  | .geosite =>
    let category := stripPrefixOr (ascii "geosite:") e.value
    match src.geosite category with
    | some domains => .ok (domains, [])
    | none => .ok ([], [ascii "geosite:" ++ category])
  | .iplistGroup =>
    let group := stripPrefixOr (ascii "iplist_group:") e.value
    match src.groupCache group with
    | .missing => .ok ([], [ascii "iplist_group:" ++ group])
    | .unreadable reason =>
      .error (ascii "Failed to read group cache '" ++ group ++ ascii "': " ++ reason)
    | .malformed reason =>
      .error (ascii "Failed to parse group cache '" ++ group ++ ascii "': " ++ reason)
    | .domains names => .ok (names.flatMap (expandDomainRule src), [])
  | .unknown _ => .ok (expandDomainRule src e.value, [])

/-- `seen` of the source is the set of the texts in `result`. -/
def pushNew (result : List Bytes) (item : Bytes) : List Bytes :=
  if result.contains item then result else result ++ [item]

def resolveEntriesCollecting (src : Sources) :
    List RuleEntry → List Bytes → List Bytes → Except Bytes (List Bytes × List Bytes)
  | [], result, unresolved => .ok (result, unresolved)
  | e :: es, result, unresolved =>
    match resolveEntry src e with
    | .error message => .error message
    | .ok (items, missing) =>
      resolveEntriesCollecting src es (items.foldl pushNew result) (unresolved ++ missing)

/-- The texts that count as the user's own: names and addresses, not lists. -/
def explicitEntry (e : RuleEntry) : List Bytes :=
  match e.entryType with
  | .domain => expandDomainRule src e.value
  | .ip | .cidr => [e.value]
  | _ => []

def explicitEntries (entries : List RuleEntry) : List Bytes :=
  entries.flatMap (explicitEntry src)

/-- `resolve_process_rules`: the processes that go direct and those that go through the tunnel. -/
def resolveProcessRules (rules : RoutingRules) : Except Bytes (List Bytes × List Bytes) :=
  if rules.processMode = ascii "exclude" then .ok (rules.processes, [])
  else if rules.processMode = ascii "only" then .ok ([], rules.processes)
  else .error (ascii "Unsupported routing process mode; expected 'exclude' or 'only'")

structure Resolved where
  exclusions : Bytes
  processDirect : List Bytes
  processProxy : List Bytes

def resolveAndApply (mode : Bytes) (rules : RoutingRules) : Except Bytes Resolved := do
  let (processDirect, processProxy) ← resolveProcessRules rules
  let (direct, unresolved) ← resolveEntriesCollecting src rules.direct [] []
  let (proxy, unresolved) ← resolveEntriesCollecting src rules.proxy [] unresolved
  if unresolved.isEmpty then
    let policy := buildPolicy mode direct proxy (explicitEntries src rules.direct) (explicitEntries src rules.proxy)
    .ok ⟨joinLines policy, processDirect, processProxy⟩
  else
    .error (ascii "One or more routing lists could not be resolved; refusing a partial policy")

/-! ## What a rule contributes -/

inductive RuleList where
  | direct
  | proxy
  deriving DecidableEq

def RoutingRules.entries (rules : RoutingRules) : RuleList → List RuleEntry
  | .direct => rules.direct
  | .proxy => rules.proxy

def groupClass : VpnMode → RuleList → RuleClass
  | .general, .direct | .selective, .proxy => .ordinary
  | .general, .proxy | .selective, .direct => .defaultOverride

/-- The class in which the user's own texts of a list are written once more. -/
def explicitClass : VpnMode → RuleList → RuleClass
  | .general, .direct | .selective, .proxy => .explicitExclusion
  | .general, .proxy | .selective, .direct => .explicitDefault

def RuleClass.sigil : RuleClass → Bytes
  | .ordinary => []
  | .defaultOverride => [chr '!']
  | .explicitExclusion => [chr '+']
  | .explicitDefault => [chr '^']

def writeAs (k : RuleClass) (texts : List Bytes) : List Bytes :=
  (nonEmpty texts).map (k.sigil ++ ·)

def ruleTexts (e : RuleEntry) : List Bytes :=
  match resolveEntry src e with
  | .ok (items, _) => items
  | .error _ => []

def ruleLines (mode : VpnMode) (list : RuleList) (e : RuleEntry) : List Bytes :=
  writeAs (groupClass mode list) (ruleTexts src e) ++ writeAs (explicitClass mode list) (explicitEntry src e)

/-- The entries of class `k` that the core reads from the lines of one rule. -/
def contribution (net : NetOps) (src : Sources) (mode : VpnMode) (list : RuleList) (e : RuleEntry)
    (k : RuleClass) : List Bytes :=
  accepted net k ((ruleLines src mode list e).flatMap (words isSpace))

/-! ## The lines of the policy -/

theorem mem_pushNew (result items : List Bytes) (x : Bytes) :
    x ∈ items.foldl pushNew result ↔ x ∈ result ∨ x ∈ items := by
  induction items generalizing result with
  | nil => simp
  | cons item items ih =>
    rw [foldl_cons, ih, pushNew]
    split_ifs with h
    · simp only [contains_iff_mem] at h
      simp only [mem_cons]
      constructor
      · rintro (h1 | h1)
        · exact .inl h1
        · exact .inr (.inr h1)
      · rintro (h1 | rfl | h1)
        · exact .inl h1
        · exact .inl h
        · exact .inr h1
    · simp [or_assoc]

variable {src : Sources} {texts : List Bytes} {k : RuleClass} {rules : RoutingRules} {mode : VpnMode}
  {net : NetOps} {r v : Bytes}

theorem mem_resolveEntriesCollecting {es : List RuleEntry} {result unresolved missing : List Bytes}
    (h : resolveEntriesCollecting src es result unresolved = .ok (texts, missing)) (x : Bytes) :
    x ∈ texts ↔ x ∈ result ∨ ∃ e ∈ es, x ∈ ruleTexts src e := by
  induction es generalizing result unresolved with
  | nil =>
    simp only [resolveEntriesCollecting, Except.ok.injEq, Prod.mk.injEq] at h
    simp [h.1]
  | cons e es ih =>
    simp only [resolveEntriesCollecting] at h
    split at h
    · cases h
    rename_i items added he
    rw [ih h, mem_pushNew]
    have htexts : ruleTexts src e = items := by simp [ruleTexts, he]
    simp [exists_eq_or_imp, htexts, or_assoc]

theorem mem_foldl_addPrivate (proxy result ps : List Bytes) (x : Bytes) :
    x ∈ ps.foldl (addPrivate proxy) result ↔ x ∈ result ∨ (x ∈ ps ∧ x ∉ proxy) := by
  induction ps generalizing result with
  | nil => simp
  | cons p ps ih =>
    rw [foldl_cons, addPrivate]
    by_cases hp : p ∈ proxy
    · grind
    · by_cases hr : p ∈ result
      · grind
      · grind

theorem nonEmpty_eq_writeAs : nonEmpty texts = writeAs .ordinary texts := by
  simp [writeAs, RuleClass.sigil]

theorem mem_buildPolicy (direct proxy userDirect userProxy : List Bytes) (line : Bytes) :
    line ∈ buildPolicy mode.name direct proxy userDirect userProxy ↔
      line ∈ writeAs (groupClass mode .direct) direct ∨ line ∈ writeAs (groupClass mode .proxy) proxy ∨
      line ∈ writeAs (explicitClass mode .direct) userDirect ∨
      line ∈ writeAs (explicitClass mode .proxy) userProxy ∨
      (mode = .general ∧ line ∈ defaultPrivateExclusions ∧ line ∉ proxy) := by
  cases mode with
  | general =>
    have hmode : VpnMode.general.name ≠ ascii "selective" := by decide
    simp only [buildPolicy, buildExclusions, if_neg hmode, buildGeneralExclusions, nonEmpty_eq_writeAs, mem_append,
      mem_foldl_addPrivate]
    tauto
  | selective =>
    have hmode : VpnMode.selective.name = ascii "selective" := rfl
    simp only [buildPolicy, buildExclusions, if_pos hmode, nonEmpty_eq_writeAs, mem_append]
    tauto

theorem mem_writeAs {line : Bytes} : line ∈ writeAs k texts ↔ ∃ x ∈ texts, x ≠ [] ∧
    line = k.sigil ++ x := by
  simp only [writeAs, nonEmpty, mem_map, mem_filter, Bool.not_eq_true', isEmpty_eq_false_iff, and_assoc]
  constructor
  all_goals
    rintro ⟨x, hx, hne, rfl⟩
    exact ⟨x, hx, hne, rfl⟩

theorem resolveAndApply_ok {mode : Bytes} {out : Resolved} (h : resolveAndApply src mode rules = .ok out) :
    ∃ direct proxy missing, resolveEntriesCollecting src rules.direct [] [] = .ok (direct, missing) ∧
      resolveEntriesCollecting src rules.proxy [] missing = .ok (proxy, []) ∧
      out.exclusions = joinLines (buildPolicy mode direct proxy
        (explicitEntries src rules.direct) (explicitEntries src rules.proxy)) := by
  simp only [resolveAndApply, bind, Except.bind] at h
  split at h
  · cases h
  split at h
  · cases h
  rename_i first hdirect
  obtain ⟨direct, missing⟩ := first
  split at h
  · cases h
  rename_i second hproxy
  obtain ⟨proxy, unresolved⟩ := second
  split at h
  · rename_i hempty
    have hnil : unresolved = [] := by simpa using hempty
    subst hnil
    cases h
    exact ⟨direct, proxy, missing, hdirect, hproxy, rfl⟩
  · cases h

theorem mem_policy_lines {direct proxy missing : List Bytes}
    (hdirect : resolveEntriesCollecting src rules.direct [] [] = .ok (direct, missing))
    (hproxy : resolveEntriesCollecting src rules.proxy [] missing = .ok (proxy, [])) (line : Bytes) :
    line ∈ buildPolicy mode.name direct proxy (explicitEntries src rules.direct) (explicitEntries src rules.proxy) ↔
      (∃ list, ∃ e ∈ rules.entries list, line ∈ ruleLines src mode list e) ∨
      (mode = .general ∧ line ∈ defaultPrivateExclusions ∧ ∀ e ∈ rules.proxy, line ∉ ruleTexts src e) := by
  have hd := mem_resolveEntriesCollecting hdirect
  have hp := mem_resolveEntriesCollecting hproxy
  simp only [not_mem_nil, false_or] at hd hp
  have hlist : (∃ list, ∃ e ∈ rules.entries list, line ∈ ruleLines src mode list e) ↔
      (∃ e ∈ rules.direct, line ∈ ruleLines src mode .direct e) ∨
      (∃ e ∈ rules.proxy, line ∈ ruleLines src mode .proxy e) := by
    constructor
    · rintro ⟨list, e, he, hl⟩
      cases list with
      | direct => exact .inl ⟨e, he, hl⟩
      | proxy => exact .inr ⟨e, he, hl⟩
    · rintro (⟨e, he, hl⟩ | ⟨e, he, hl⟩)
      · exact ⟨.direct, e, he, hl⟩
      · exact ⟨.proxy, e, he, hl⟩
  have hlines : ∀ list es (texts : List Bytes), (∀ x, x ∈ texts ↔ ∃ e ∈ es, x ∈ ruleTexts src e) →
      ((∃ e ∈ es, line ∈ ruleLines src mode list e) ↔ line ∈ writeAs (groupClass mode list) texts ∨
        line ∈ writeAs (explicitClass mode list) (explicitEntries src es)) := by
    intro list es texts htexts
    simp only [ruleLines, mem_append, mem_writeAs, htexts, explicitEntries]
    grind
  rw [mem_buildPolicy, hlist, hlines .direct rules.direct direct hd, hlines .proxy rules.proxy proxy hp, hp]
  simp only [not_exists, not_and]
  tauto

/-! ## The entries that are loaded -/

theorem mem_accepted_flatMap {lines : List Bytes} : r ∈ accepted net k (lines.flatMap (words isSpace)) ↔
      ∃ line ∈ lines, r ∈ accepted net k (words isSpace line) := by
  simp only [accepted, mem_filterMap, mem_flatMap]
  constructor
  · rintro ⟨t, ⟨line, hline, ht⟩, hr⟩
    exact ⟨line, hline, t, ht, hr⟩
  · rintro ⟨line, hline, t, ht, hr⟩
    exact ⟨t, ⟨line, hline, ht⟩, hr⟩

theorem mem_accepted_private {p : Bytes} (hp : p ∈ defaultPrivateExclusions) :
    r ∈ accepted net k (words isSpace p) ↔ r = p ∧ k = .ordinary ∧ (parseEntry net p).isMalformed = false := by
  rw [words_word (private_isWord p hp)]
  simp only [accepted, mem_filterMap, mem_singleton, exists_eq_left,
    private_classify p hp, Option.ite_none_right_eq_some, Option.some.injEq]
  constructor
  · rintro ⟨⟨hk, hparse⟩, rfl⟩
    exact ⟨rfl, hk.symm, hparse⟩
  · rintro ⟨rfl, hk, hparse⟩
    exact ⟨⟨hk.symm, hparse⟩, rfl⟩

theorem mem_loaded (net : NetOps) {out : Resolved} (h : resolveAndApply src mode.name rules = .ok out)
    (k : RuleClass) (r : Bytes) : r ∈ accepted net k (words isSpace out.exclusions) ↔
      (∃ list, ∃ e ∈ rules.entries list, r ∈ contribution net src mode list e k) ∨
      (mode = .general ∧ k = .ordinary ∧ r ∈ defaultPrivateExclusions ∧
        (parseEntry net r).isMalformed = false ∧ ∀ e ∈ rules.proxy, r ∉ ruleTexts src e) := by
  obtain ⟨direct, proxy, missing, hdirect, hproxy, hout⟩ := resolveAndApply_ok h
  rw [hout, joinLines, words_lines (by decide), mem_accepted_flatMap]
  simp only [mem_policy_lines hdirect hproxy, contribution, mem_accepted_flatMap]
  constructor
  · rintro ⟨line, ⟨list, e, he, hl⟩ | ⟨hmode, hp, hnot⟩, hr⟩
    · exact .inl ⟨list, e, he, line, hl, hr⟩
    · obtain ⟨rfl, hk, hparse⟩ := (mem_accepted_private hp).mp hr
      exact .inr ⟨hmode, hk, hp, hparse, hnot⟩
  · rintro (⟨list, e, he, line, hl, hr⟩ | ⟨hmode, hk, hp, hparse, hnot⟩)
    · exact ⟨line, .inl ⟨list, e, he, hl⟩, hr⟩
    · exact ⟨r, .inr ⟨hmode, hp, hnot⟩, (mem_accepted_private hp).mpr ⟨rfl, hk, hparse⟩⟩

/-! ## Texts that stay in their class -/

structure Clean (v : Bytes) : Prop where
  noSpace : ∀ c ∈ v, isSpace c = false
  noSigil : v.head?.any isSigil = false

theorem classify_sigil (k : RuleClass) (hv : Clean v) : classify (k.sigil ++ v) = (k, v) := by
  cases k with
  | ordinary =>
    cases v with
    | nil => rfl
    | cons c rest => exact classify_of_not_sigil rest hv.noSigil
  | defaultOverride | explicitExclusion | explicitDefault => rfl

theorem isWord_sigil (k : RuleClass) (hv : Clean v) (hne : v ≠ []) : IsWord isSpace (k.sigil ++ v) := by
  refine ⟨by simp [hne], fun c hc => ?_⟩
  rcases mem_append.mp hc with hc | hc
  · have hsigil : k.sigil.all (!isSpace ·) = true := by cases k <;> rfl
    simpa using all_eq_true.mp hsigil c hc
  · exact hv.noSpace c hc

theorem accepted_writeAs {k' : RuleClass} {line : Bytes} (hclean : ∀ x ∈ texts, Clean x)
    (hline : line ∈ writeAs k' texts) (hr : r ∈ accepted net k (words isSpace line)) : k = k' ∧ r ∈ texts := by
  obtain ⟨x, hx, hne, rfl⟩ := mem_writeAs.mp hline
  rw [words_word (isWord_sigil k' (hclean x hx) hne)] at hr
  simp only [accepted, mem_filterMap, mem_singleton, exists_eq_left,
    classify_sigil k' (hclean x hx), Option.ite_none_right_eq_some, Option.some.injEq] at hr
  exact ⟨hr.1.1.symm, hr.2 ▸ hx⟩

theorem contribution_own_class {list : RuleList} {e : RuleEntry} (hclean : ∀ x ∈ ruleTexts src e, Clean x)
    (hr : r ∈ contribution net src mode list e k) :
    (k = groupClass mode list ∨ k = explicitClass mode list) ∧ r ∈ ruleTexts src e := by
  have hsub : ∀ x ∈ explicitEntry src e, x ∈ ruleTexts src e := by
    intro x hx
    unfold explicitEntry at hx
    split at hx
    · rename_i ht; simpa [ruleTexts, resolveEntry, ht] using hx
    · rename_i ht; simpa [ruleTexts, resolveEntry, ht] using hx
    · rename_i ht; simpa [ruleTexts, resolveEntry, ht] using hx
    · cases hx
  obtain ⟨line, hline, hr⟩ := mem_accepted_flatMap.mp hr
  rcases mem_append.mp hline with hline | hline
  · obtain ⟨hk, hmem⟩ := accepted_writeAs hclean hline hr
    exact ⟨.inl hk, hmem⟩
  · obtain ⟨hk, hmem⟩ := accepted_writeAs (fun x hx => hclean x (hsub x hx)) hline hr
    exact ⟨.inr hk, hsub r hmem⟩

/-! ## Rules that name their own value -/

def EntryType.namesValue : EntryType → Bool
  | .domain | .ip | .cidr | .unknown _ => true
  | .geoip | .geosite | .iplistGroup => false

theorem nameChar_plain {c : UInt8} (h : (!isAlnum c && c != chr '-' && c != chr '_' && c != chr '.') = false) :
    isSpace c = false ∧ isSigil c = false := by
  constructor
  · cases hs : isSpace c with
    | false => rfl
    | true =>
      simp [isSpace] at hs
      simp [isAlnum, isDigit, isUpper, isLower, chr] at h
      grind
  · cases hs : isSigil c with
    | false => rfl
    | true =>
      rcases isSigil_cases hs with rfl | rfl | rfl
      all_goals exact absurd h (by decide)

theorem mem_validName {last : UInt8} (h : validName last v = true) :
    ∀ c ∈ v, isSpace c = false ∧ isSigil c = false := by
  induction v generalizing last with
  | nil => simp
  | cons b rest ih =>
    simp only [validName] at h
    split at h
    · cases h
    rename_i hb
    split at h
    · cases h
    intro c hc
    rcases mem_cons.mp hc with rfl | hc
    · exact nameChar_plain (by simpa using hb)
    · exact ih h c hc

theorem clean_isPlainName (h : isPlainName v = true) : Clean v := by
  have hv : validName (chr '.') v = true := by
    unfold isPlainName at h
    split at h
    · cases h
    · split at h
      · cases h
      · exact h
  have hall := mem_validName hv
  refine ⟨fun c hc => (hall c hc).1, ?_⟩
  cases v with
  | nil => rfl
  | cons c rest => exact (hall c (by simp)).2

theorem clean_wildcard (h : Clean v) : Clean (wildcardPrefix ++ v) := by
  refine ⟨fun c hc => ?_, rfl⟩
  rcases mem_append.mp hc with hc | hc
  · have hstar : wildcardPrefix.all (!isSpace ·) = true := rfl
    simpa using all_eq_true.mp hstar c hc
  · exact h.noSpace c hc

theorem clean_toCoreAscii (src : Sources) (h : Clean v) : Clean (toCoreAscii src v) := by
  unfold toCoreAscii
  split
  · exact h
  dsimp only
  split
  · split
    · rename_i hplain
      have ha := clean_isPlainName hplain
      split
      · exact clean_wildcard ha
      · exact ha
    · exact h
  · exact h

theorem ruleTexts_value (src : Sources) {e : RuleEntry} (ht : e.entryType.namesValue = true)
    (hv : Clean e.value) : ∀ x ∈ ruleTexts src e, Clean x ∧
      (x = e.value ∨ x = toCoreAscii src e.value ∨ x = wildcardPrefix ++ toCoreAscii src e.value) := by
  have hexpand : ∀ x ∈ expandDomainRule src e.value, Clean x ∧ (x = e.value ∨ x = toCoreAscii src e.value ∨
        x = wildcardPrefix ++ toCoreAscii src e.value) := by
    have hcore := clean_toCoreAscii src hv
    intro x hx
    unfold expandDomainRule at hx
    dsimp only at hx
    split at hx
    · rw [mem_singleton.mp hx]
      exact ⟨hcore, .inr (.inl rfl)⟩
    rcases mem_cons.mp hx with rfl | hx
    · exact ⟨hcore, .inr (.inl rfl)⟩
    · rw [mem_singleton.mp hx]
      exact ⟨clean_wildcard hcore, .inr (.inr rfl)⟩
  intro x hx
  obtain ⟨type, value⟩ := e
  cases type with
  | domain | unknown name => exact hexpand x hx
  | ip | cidr => rw [mem_singleton.mp hx]; exact ⟨hv, .inl rfl⟩
  | geoip | geosite | iplistGroup => cases ht

def ownClasses (mode : VpnMode) (list : RuleList) : List RuleClass :=
  [groupClass mode list, explicitClass mode list]

theorem ownClasses_disjoint : ∀ (mode : VpnMode) (list other : RuleList), other ≠ list →
    ∀ k ∈ ownClasses mode list, k ∉ ownClasses mode other := by
  intro mode list other
  cases mode <;> cases list <;> cases other <;> decide

/-- The policy the core loads from a rules document is the private ranges and the contributions of
the rules. A rule whose texts are clean contributes entries of its own list's classes, none of the
other list's, with those texts; the texts of a rule that names a clean value are that value's. -/
theorem rule_own_class (net : NetLib) (src : Sources) (mode : VpnMode) (rules : RoutingRules)
    (out : Resolved) (h : resolveAndApply src mode.name rules = .ok out) (f : DomainFilter) :
    ∃ entries : RuleClass → List Bytes, f.updateExclusions net.toNetOps mode out.exclusions
        = filterOf net.toNetOps mode entries f.resolvedTags ∧ (∀ k r, r ∈ entries k ↔
        (∃ list, ∃ e ∈ rules.entries list, r ∈ contribution net.toNetOps src mode list e k) ∨
        (mode = .general ∧ k = .ordinary ∧ r ∈ defaultPrivateExclusions ∧
          (parseEntry net.toNetOps r).isMalformed = false ∧ ∀ e ∈ rules.proxy, r ∉ ruleTexts src e)) ∧
      (∀ list, ∀ e ∈ rules.entries list, (∀ x ∈ ruleTexts src e, Clean x) →
        ∀ k, ∀ r ∈ contribution net.toNetOps src mode list e k,
          k ∈ ownClasses mode list ∧ (∀ other, other ≠ list → k ∉ ownClasses mode other) ∧
          r ∈ ruleTexts src e) ∧ (∀ e : RuleEntry, e.entryType.namesValue = true → Clean e.value →
        ∀ x ∈ ruleTexts src e, Clean x ∧
          (x = e.value ∨ x = toCoreAscii src e.value ∨ x = wildcardPrefix ++ toCoreAscii src e.value)) := by
  refine ⟨fun k => accepted net.toNetOps k (words isSpace out.exclusions),
    updateExclusions_eq net f mode out.exclusions, fun k r => mem_loaded net.toNetOps h k r, ?_,
    fun e ht hv => ruleTexts_value src ht hv⟩
  intro list e _ hclean k r hr
  obtain ⟨hk, hmem⟩ := contribution_own_class hclean hr
  have hown : k ∈ ownClasses mode list := by simpa [ownClasses] using hk
  exact ⟨hown, fun other ho => ownClasses_disjoint mode list other ho k hown, hmem⟩

def noSources : Sources := ⟨fun _ => none, fun _ => none, fun _ => none, fun _ => .missing⟩

def rulesOf (direct proxy : List Bytes) : RoutingRules :=
  ⟨direct.map (⟨.domain, ·⟩), proxy.map (⟨.domain, ·⟩), ascii "exclude", []⟩

/-- A direct rule is written as an ordinary entry and once more with `+`. A direct rule of two words
writes an entry of its second word, with the sigil that word has. -/
theorem direct_rule_other_classes :
    (∃ out, resolveAndApply noSources VpnMode.general.name (rulesOf [ascii "a.com"] []) = .ok out ∧
      ascii "a.com" ∈ accepted Ipv4.ops .explicitExclusion (words isSpace out.exclusions)) ∧
    (∃ out, resolveAndApply noSources VpnMode.general.name (rulesOf [ascii "a.com ^b.com"] []) = .ok out ∧
      ascii "b.com" ∈ accepted Ipv4.ops .explicitDefault (words isSpace out.exclusions) ∧
      (DomainFilter.init.updateExclusions Ipv4.ops .general out.exclusions).matchDomain
        (ascii "b.com") = .defaultOverride) :=
  ⟨⟨_, rfl, by decide +kernel⟩, ⟨_, rfl, by decide +kernel, by decide +kernel⟩⟩

theorem oneRule_own_class : ∃ entries : RuleClass → List Bytes,
      DomainFilter.init.updateExclusions Ipv4.net.toNetOps .general
          (joinLines (buildPolicy VpnMode.general.name [ascii "a.com", ascii "*.a.com"] []
            [ascii "a.com", ascii "*.a.com"] [])) = filterOf Ipv4.net.toNetOps .general entries (fun _ => none) ∧
      ascii "a.com" ∈ entries .ordinary := by
  obtain ⟨entries, hload, hmem, -⟩ := rule_own_class Ipv4.net noSources .general
    (rulesOf [ascii "a.com"] []) _ rfl DomainFilter.init
  exact ⟨entries, hload, (hmem _ _).mpr (.inl ⟨.direct, _, mem_singleton.mpr rfl, by decide +kernel⟩)⟩

end TrustTunnel.Filter
