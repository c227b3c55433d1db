import TrustTunnel.Filter.Load

/-!
# Filter.Names

The names that an entry stands for, said without the table and the walk through it.

An entry is to stand for its name and `www.` before it, and `*.` with a name for what is below it
(`standsFor`). `matched_domain_length` cuts a leading `www.` off the name that it is given, as
`parse_entry` has cut one off the entry, and compares what is left: an entry with two of them in front
is met by names with two of them only. And the dot that a wildcard asks for may be the first character.
-/

namespace TrustTunnel.Filter

open List

def withoutWww (s : Bytes) : Bytes := if startsWith s wwwPrefix then s.drop wwwPrefix.length else s

/-- The name in an entry that matches the query: `*.d` matches what ends in `.d`, any other entry what
is the same but for a leading `www.` of either. -/
def matchedName (query entry : Bytes) : Option Bytes :=
  if startsWith (lower entry) wildcardPrefix then
    if (chr '.' :: (lower entry).drop 2) <:+ lower query then some ((lower entry).drop 2) else none
  else if withoutWww (lower query) = withoutWww (lower entry) then some (withoutWww (lower entry))
  else none

/-! ## The walk -/

open DomainFilter List

theorem mem_suffixes {d s : Bytes} : d ∈ suffixes s ↔ d ≠ [] ∧ (chr '.' :: d) <:+ s := by
  induction s with
  | nil => simp [suffixes]
  | cons c rest ih =>
    rw [suffix_cons_iff, cons.injEq, suffixes]
    split_ifs with hdot
    · rw [Bool.and_eq_true, beq_iff_eq, Bool.not_eq_true', isEmpty_eq_false_iff] at hdot
      rw [mem_cons, ih]
      constructor
      · rintro (rfl | ⟨hne, hsuffix⟩)
        · exact ⟨hdot.2, .inl ⟨hdot.1.symm, rfl⟩⟩
        · exact ⟨hne, .inr hsuffix⟩
      · rintro ⟨hne, ⟨-, rfl⟩ | hsuffix⟩
        · exact .inl rfl
        · exact .inr ⟨hne, hsuffix⟩
    · rw [ih]
      refine and_congr_right fun hne => ⟨.inr, fun h => h.resolve_left ?_⟩
      rintro ⟨rfl, rfl⟩
      exact hdot (by simp [hne])

theorem length_of_mem_suffixes {d s : Bytes} (h : d ∈ suffixes s) : d.length < s.length := by
  have hle := (mem_suffixes.mp h).2.length_le
  rwa [length_cons] at hle

theorem suffixes_pairwise (s : Bytes) : (s :: suffixes s).Pairwise fun a b => b.length ≤ a.length := by
  induction s with
  | nil => simp [suffixes]
  | cons c rest ih =>
    refine pairwise_cons.mpr ⟨fun d hd => Nat.le_of_lt (length_of_mem_suffixes hd), ?_⟩
    rw [suffixes]
    split
    · exact ih
    · exact (pairwise_cons.mp ih).2

theorem find?_longest {l : List Bytes} {p : Bytes → Bool} {s : Bytes}
    (hl : l.Pairwise fun a b => b.length ≤ a.length) (hs : l.find? p = some s) {d : Bytes} (hd : d ∈ l)
    (hp : p d = true) : d.length ≤ s.length := by
  induction l with
  | nil => cases hd
  | cons a l ih =>
    obtain ⟨ha, hl⟩ := pairwise_cons.mp hl
    rw [find?_cons] at hs
    split at hs
    · cases hs
      rcases mem_cons.mp hd with rfl | hd
      · exact Nat.le_refl _
      · exact ha d hd
    · rename_i hpa
      rcases mem_cons.mp hd with rfl | hd
      · rw [hp] at hpa
        cases hpa
      · exact ih hl hs hd

/-- The walk finds the longest of the names, when it passes by just these. -/
theorem find?_eq_max {l names : List Bytes} {p : Bytes → Bool} (hl : l.Pairwise fun a b => b.length ≤ a.length)
    (h : ∀ d, d ∈ names ↔ d ∈ l ∧ p d = true) : (l.find? p).map length = (names.map length).max? := by
  cases hf : l.find? p with
  | none =>
    have hnil : names = [] := eq_nil_iff_forall_not_mem.mpr fun d hd => by
      have hd := (h d).mp hd
      exact absurd hd.2 (find?_eq_none.mp hf d hd.1)
    rw [hnil]
    rfl
  | some s =>
    have hs := (h s).mpr ⟨mem_of_find?_eq_some hf, find?_some hf⟩
    refine (max?_eq_some_iff.mpr ⟨mem_map_of_mem hs, fun n hn => ?_⟩).symm
    obtain ⟨d, hd, rfl⟩ := mem_map.mp hn
    exact find?_longest hl hf ((h d).mp hd).1 ((h d).mp hd).2

/-! ## The table -/

variable (net : NetOps) (t : Tables)

def Tables.flags (name : Bytes) : MatchFlags := (t.domains.lookup name).getD ⟨false, false⟩

def entryFlags (entry name : Bytes) : MatchFlags :=
  match parseEntry net entry with
  | .domain text flags => if name = text then flags else ⟨false, false⟩
  | _ => ⟨false, false⟩

theorem entryFlags_cases (entry name : Bytes) : entryFlags net entry name = ⟨false, false⟩ ∨
      parseEntry net entry = .domain name (entryFlags net entry name) := by
  unfold entryFlags
  split
  · split
    · rename_i text flags hp hname
      exact .inr (hname ▸ hp)
    · exact .inl rfl
  · exact .inl rfl

theorem flags_add (entry name : Bytes) :
    (t.add net entry).flags name = (t.flags name).union (entryFlags net entry name) := by
  have hunion : ∀ flags : MatchFlags, flags.union ⟨false, false⟩ = flags := by
    simp [MatchFlags.union]
  unfold Tables.add entryFlags
  cases parseEntry net entry with
  | domain text flags =>
    dsimp only [Tables.flags]
    by_cases h : name = text
    · rw [if_pos h, h, AList.lookup_insert]
      rfl
    · rw [if_neg h, AList.lookup_insert_ne h, hunion]
  | _ => exact (hunion _).symm

theorem flags_foldl (entries : List Bytes) (t : Tables) (name : Bytes) : (entries.foldl (Tables.add net) t).flags name =
      ⟨(t.flags name).exact || entries.any fun e => (entryFlags net e name).exact,
        (t.flags name).subdomains || entries.any fun e => (entryFlags net e name).subdomains⟩ := by
  induction entries generalizing t with
  | nil => simp
  | cons e entries ih =>
    rw [foldl_cons, ih, flags_add]
    simp [MatchFlags.union, Bool.or_assoc]

theorem seekMatches_eq (domain : Bytes) (wwwPrefixed : Bool) (seek : Bytes) :
    seekMatches t domain wwwPrefixed seek = ((t.flags seek).exact && (seek.length == domain.length
        || (wwwPrefixed && seek.length + wwwPrefix.length == domain.length))
      || (t.flags seek).subdomains && seek.length < domain.length) := by
  unfold seekMatches Tables.flags
  cases t.domains.lookup seek with
  | none | some flags => rfl

theorem parseEntry_name {net : NetOps} {entry text : Bytes} {flags : MatchFlags}
    (h : parseEntry net entry = .domain text flags) :
    startsWith (lower entry) wildcardPrefix = true ∧ text = (lower entry).drop 2 ∧ text ≠ [] ∧
        flags = ⟨false, true⟩ ∨
      startsWith (lower entry) wildcardPrefix = false ∧ text = withoutWww (lower entry) ∧
        flags = ⟨true, false⟩ := by
  have hp := parseDomain_of_parseEntry h
  unfold parseDomain at hp
  unfold withoutWww
  cases hwild : startsWith (lower entry) wildcardPrefix with
  | true =>
    simp only [hwild, if_true] at hp
    split at hp
    · cases hp
    rename_i hne
    split at hp
    · cases hp
    · cases hp
      exact .inl ⟨rfl, rfl, fun h => hne (isEmpty_iff.mpr h), rfl⟩
  | false =>
    simp only [hwild, Bool.false_eq_true, if_false] at hp
    repeat' split at hp
    all_goals cases hp
    · exact .inr ⟨rfl, by rw [if_pos ‹_›], rfl⟩
    · exact .inr ⟨rfl, by rw [if_neg ‹_›], rfl⟩

/-! ## Matching -/

def visited (query : Bytes) : List Bytes :=
  withoutWww (lower query) :: suffixes (withoutWww (lower query))

theorem www_cases (s : Bytes) : startsWith s wwwPrefix = false ∧ withoutWww s = s ∨
    startsWith s wwwPrefix = true ∧ s = wwwPrefix ++ withoutWww s := by
  unfold withoutWww
  cases h : startsWith s wwwPrefix with
  | false => exact .inl ⟨rfl, rfl⟩
  | true =>
    obtain ⟨t, rfl⟩ := isPrefixOf_iff_prefix.mp h
    exact .inr ⟨rfl, by rw [if_pos rfl, drop_left]⟩

theorem whole_iff {query d : Bytes} (hd : d ∈ visited query) :
    (d.length == (lower query).length || (startsWith (lower query) wwwPrefix &&
      d.length + wwwPrefix.length == (lower query).length)) = true ↔ d = withoutWww (lower query) := by
  have hle : d = withoutWww (lower query) ∨ d.length < (withoutWww (lower query)).length :=
    (mem_cons.mp hd).imp_right length_of_mem_suffixes
  rw [Bool.or_eq_true, Bool.and_eq_true, beq_iff_eq, beq_iff_eq]
  rcases www_cases (lower query) with ⟨hwww, hsame⟩ | ⟨hwww, hcut⟩
  · rw [hsame] at hle ⊢
    rw [hwww]
    refine ⟨fun h => hle.resolve_right ?_, fun h => .inl (congrArg _ h)⟩
    rcases h with h | ⟨h, -⟩
    · omega
    · cases h
  · have hlen := congrArg length hcut
    rw [length_append] at hlen
    refine ⟨fun h => hle.resolve_right ?_, fun h => .inr ⟨hwww, ?_⟩⟩
    · rcases h with h | ⟨-, h⟩
      · omega
      · omega
    · rw [h]
      omega

theorem below_iff {query d : Bytes} (hd : d ≠ []) :
    d ∈ visited query ∧ d.length < (lower query).length ↔ (chr '.' :: d) <:+ lower query := by
  rw [visited, mem_cons, mem_suffixes]
  rcases www_cases (lower query) with ⟨-, hsame⟩ | ⟨-, hcut⟩
  · rw [hsame]
    constructor
    · rintro ⟨rfl | ⟨-, h⟩, hlt⟩
      · exact absurd hlt (Nat.lt_irrefl _)
      · exact h
    · intro h
      refine ⟨.inr ⟨hd, h⟩, ?_⟩
      have hle := h.length_le
      rwa [length_cons] at hle
  · -- the first name of the walk follows the dot of `www.`
    generalize withoutWww (lower query) = rest at hcut
    rw [hcut]
    have hsuffix : (chr '.' :: d) <:+ wwwPrefix ++ rest ↔ d = rest ∨ (chr '.' :: d) <:+ rest := by
      change (chr '.' :: d) <:+ chr 'w' :: chr 'w' :: chr 'w' :: chr '.' :: rest ↔ _
      simp only [suffix_cons_iff, cons.injEq]
      constructor
      · rintro (⟨h, -⟩ | ⟨h, -⟩ | ⟨h, -⟩ | ⟨-, h⟩ | h)
        · exact absurd h (by decide)
        · exact absurd h (by decide)
        · exact absurd h (by decide)
        · exact .inl h
        · exact .inr h
      · rintro (h | h)
        · exact .inr (.inr (.inr (.inl ⟨trivial, h⟩)))
        · exact .inr (.inr (.inr (.inr h)))
    rw [hsuffix]
    have hlen : (wwwPrefix ++ rest).length = 4 + rest.length := length_append
    constructor
    · rintro ⟨h | ⟨-, h⟩, -⟩
      · exact .inl h
      · exact .inr h
    · rintro (rfl | h)
      · exact ⟨.inl rfl, by omega⟩
      · have hle := h.length_le
        rw [length_cons] at hle
        exact ⟨.inr ⟨hd, h⟩, by omega⟩

/-- The walk stops at the names that entries match the query with. -/
theorem visited_iff {net : NetOps} {entries : List Bytes}
    (hentries : ∀ e ∈ entries, ∃ text flags, parseEntry net e = .domain text flags) (query d : Bytes) :
    d ∈ entries.filterMap (matchedName query) ↔ d ∈ visited query ∧
      seekMatches (tablesOf net entries) (lower query) (startsWith (lower query) wwwPrefix) d = true := by
  have hflags : (tablesOf net entries).flags d = ⟨entries.any fun e => (entryFlags net e d).exact,
      entries.any fun e => (entryFlags net e d).subdomains⟩ := flags_foldl net entries .empty d
  rw [seekMatches_eq, hflags, mem_filterMap, Bool.or_eq_true, Bool.and_eq_true, Bool.and_eq_true,
    any_eq_true, any_eq_true, decide_eq_true_eq]
  constructor
  · rintro ⟨e, he, hmatch⟩
    obtain ⟨text, flags, hp⟩ := hentries e he
    have hset : entryFlags net e text = flags := by rw [entryFlags, hp]; exact if_pos rfl
    unfold matchedName at hmatch
    rcases parseEntry_name hp with ⟨hwild, rfl, hne, rfl⟩ | ⟨hwild, rfl, rfl⟩
    · rw [if_pos hwild, Option.ite_none_right_eq_some] at hmatch
      obtain ⟨hsuffix, hd⟩ := hmatch
      cases hd
      obtain ⟨hmem, hlt⟩ := (below_iff hne).mpr hsuffix
      exact ⟨hmem, .inr ⟨⟨e, he, by rw [hset]⟩, hlt⟩⟩
    · rw [hwild, if_neg Bool.false_ne_true, Option.ite_none_right_eq_some] at hmatch
      obtain ⟨hsame, hd⟩ := hmatch
      cases hd
      have hmem : withoutWww (lower e) ∈ visited query := by rw [← hsame]; exact mem_cons_self
      exact ⟨hmem, .inl ⟨⟨e, he, by rw [hset]⟩, (whole_iff hmem).mpr hsame.symm⟩⟩
  · rintro ⟨hmem, ⟨⟨e, he, hflag⟩, hwhole⟩ | ⟨⟨e, he, hflag⟩, hlt⟩⟩
    · rcases entryFlags_cases net e d with hnone | hp
      · rw [hnone] at hflag
        cases hflag
      rcases parseEntry_name hp with ⟨-, -, -, hset⟩ | ⟨hwild, rfl, -⟩
      · rw [hset] at hflag
        cases hflag
      · refine ⟨e, he, ?_⟩
        rw [matchedName, hwild, if_neg Bool.false_ne_true, if_pos ((whole_iff hmem).mp hwhole).symm]
    · rcases entryFlags_cases net e d with hnone | hp
      · rw [hnone] at hflag
        cases hflag
      rcases parseEntry_name hp with ⟨hwild, rfl, hne, -⟩ | ⟨-, -, hset⟩
      · refine ⟨e, he, ?_⟩
        rw [matchedName, if_pos hwild, if_pos ((below_iff hne).mp ⟨hmem, hlt⟩)]
      · rw [hset] at hflag
        cases hflag

/-- The length of the longest name in an entry that matches the query. -/
theorem matchedDomainLength_eq (net : NetOps) (f : DomainFilter) (entries : List Bytes)
    (htables : f.tables = tablesOf net entries)
    (hentries : ∀ e ∈ entries, ∃ text flags, parseEntry net e = .domain text flags) (query : Bytes) :
    f.matchedDomainLength query = ((entries.filterMap (matchedName query)).map length).max? := by
  rw [← find?_eq_max (suffixes_pairwise (withoutWww (lower query))) (visited_iff hentries query), ← htables]
  unfold matchedDomainLength withoutWww
  dsimp only
  cases startsWith (lower query) wwwPrefix <;> rfl

/-! ## What the entries stand for -/

/-- The name in an entry that stands for the query: `*.d` for what has `.d` at its end and something before
it, any other entry for its name without one leading `www.`, and for `www.` and this name. -/
def standsFor (query entry : Bytes) : Option Bytes :=
  if startsWith (lower entry) wildcardPrefix then
    if (chr '.' :: (lower entry).drop 2) <:+ (lower query).tail then some ((lower entry).drop 2) else none
  else if lower query = withoutWww (lower entry) ∨ lower query = wwwPrefix ++ withoutWww (lower entry) then
    some (withoutWww (lower entry))
  else none

/-- The entry has `www.` before the query, which begins with one, or `*` before the query. -/
def Slips (query entry : Bytes) : Prop :=
  startsWith (lower query) wwwPrefix = true ∧ lower entry = wwwPrefix ++ lower query ∨
    lower entry = chr '*' :: lower query

section Slips

variable {query entry d : Bytes}

theorem parseEntry_head {net : NetOps} {text : Bytes} {flags : MatchFlags}
    (h : parseEntry net entry = .domain text flags) {c : UInt8} {rest : Bytes} (htext : text = c :: rest) :
    c ≠ chr '.' ∧ c ≠ chr '*' := by
  have hfirst : ∀ last rest, validName (chr '.') (chr '.' :: rest) = false ∧
      validName last (chr '*' :: rest) = false := fun _ _ => ⟨rfl, rfl⟩
  have hwww : ∀ c rest, validName (chr '.') (wwwPrefix ++ c :: rest) = validName (chr '.') (c :: rest) :=
    fun _ _ => rfl
  have hvalid : validName (chr '.') (c :: rest) = true := by
    have hp := parseDomain_of_parseEntry h
    unfold parseDomain at hp
    simp only at hp
    split_ifs at hp with hwild hempty hname hempty' hname' hpre
    · cases hp
      rw [← htext, show wildcardPrefix.length = 2 from rfl]
      simpa [hwild] using hname
    · cases hp
      have hcut := (www_cases (lower entry)).resolve_left fun h => by simp [hpre] at h
      rw [withoutWww, if_pos hpre, htext] at hcut
      rw [← hwww, ← hcut.2]
      simpa using hname'
    · cases hp
      rw [← htext]
      simpa using hname'
  constructor
  · rintro rfl
    cases hvalid.symm.trans (hfirst 0 rest).1
  · rintro rfl
    cases hvalid.symm.trans (hfirst _ rest).2

theorem matchedName_eq_standsFor (h : ¬Slips query entry) : matchedName query entry = standsFor query entry := by
  unfold matchedName standsFor
  split
  · rename_i hwild
    obtain ⟨name, hname⟩ := isPrefixOf_iff_prefix.mp hwild
    have hsame : (chr '.' :: (lower entry).drop 2) <:+ lower query ↔
        (chr '.' :: (lower entry).drop 2) <:+ (lower query).tail := by
      cases hq : lower query with
      | nil => rfl
      | cons c rest =>
        rw [suffix_cons_iff, or_iff_right, tail_cons]
        intro hwhole
        refine h (.inr ?_)
        rw [hq, ← hwhole, ← hname]
        rfl
    simp only [hsame]
  · have hsame : withoutWww (lower query) = withoutWww (lower entry) ↔
        lower query = withoutWww (lower entry) ∨ lower query = wwwPrefix ++ withoutWww (lower entry) := by
      rcases www_cases (lower query) with ⟨hwww, hcut⟩ | ⟨hwww, hcut⟩
      · rw [hcut, or_iff_left]
        intro hpre
        rw [hpre] at hwww
        exact absurd ( isPrefixOf_iff_prefix.mpr (prefix_append ..)) (by simpa [startsWith] using hwww)
      · rw [or_iff_right]
        · nth_rewrite 2 [hcut]
          exact (append_cancel_left_eq ..).symm.to_iff
        · intro hnested
          rcases www_cases (lower entry) with ⟨hno, hentry⟩ | ⟨-, hentry⟩
          · rw [← hentry, ← hnested, hwww] at hno
            cases hno
          · exact h (.inl ⟨hwww, by rw [hentry, ← hnested]⟩)
    simp only [hsame]

theorem length_matchedName (hwww : startsWith (lower query) wwwPrefix = true)
    (h : matchedName query entry = some d) : d.length < (lower query).length := by
  unfold matchedName at h
  split at h
  · rw [Option.ite_none_right_eq_some] at h
    obtain ⟨hsuffix, hd⟩ := h
    cases hd
    exact hsuffix.length_le
  · rw [Option.ite_none_right_eq_some] at h
    obtain ⟨hsame, hd⟩ := h
    cases hd
    have hcut := (www_cases (lower query)).resolve_left fun h => by simp [hwww] at h
    have hlen := congrArg length hcut.2
    rw [length_append, hsame] at hlen
    have hpos : wwwPrefix.length = 4 := rfl
    omega

theorem length_standsFor {net : NetOps} {text rest : Bytes} {flags : MatchFlags}
    (hp : parseEntry net entry = .domain text flags) (hq : lower query = chr '.' :: rest)
    (h : standsFor query entry = some d) : d.length < rest.length := by
  unfold standsFor at h
  rw [hq, tail_cons] at h
  split at h
  · rw [Option.ite_none_right_eq_some] at h
    obtain ⟨hsuffix, hd⟩ := h
    cases hd
    exact hsuffix.length_le
  · rename_i hwild
    rw [Option.ite_none_right_eq_some] at h
    rcases parseEntry_name hp with ⟨hyes, -⟩ | ⟨-, htext, -⟩
    · exact absurd hyes hwild
    rcases h.1 with hname | hwww
    · exact absurd rfl (parseEntry_head hp (htext.trans hname.symm)).1
    · cases hwww

theorem max?_ne {l l' : List Nat} {n : Nat} (hn : n ∈ l) (hlt : ∀ m ∈ l', m < n) : l.max? ≠ l'.max? := by
  intro heq
  cases hm : l'.max? with
  | none =>
    rw [hm, max?_eq_none_iff] at heq
    simp [heq] at hn
  | some m =>
    rw [hm, max?_eq_some_iff] at heq
    have hle := heq.2 n hn
    have hmem := (max?_eq_some_iff.mp hm).1
    exact absurd (hlt m hmem) (by omega)

end Slips

/-- The length is that of the longest name that stands for the query, if and only if no entry slips. -/
theorem matchedDomainLength_iff (net : NetOps) (f : DomainFilter) (entries : List Bytes)
    (htables : f.tables = tablesOf net entries)
    (hentries : ∀ e ∈ entries, ∃ text flags, parseEntry net e = .domain text flags) (query : Bytes) :
    f.matchedDomainLength query = ((entries.filterMap (standsFor query)).map length).max? ↔
      ¬∃ e ∈ entries, Slips query e := by
  rw [matchedDomainLength_eq net f entries htables hentries]
  constructor
  · rintro hsame ⟨e, he, ⟨hwww, hnested⟩ | hdot⟩
    · refine max?_ne (n := (lower query).length) (mem_map_of_mem (mem_filterMap.mpr ⟨e, he, ?_⟩)) ?_ hsame.symm
      · have hcut : withoutWww (wwwPrefix ++ lower query) = lower query := rfl
        have hname : ¬startsWith (wwwPrefix ++ lower query) wildcardPrefix = true := Bool.false_ne_true
        rw [standsFor, hnested, hcut, if_neg hname, if_pos (.inl rfl)]
      · intro m hm
        obtain ⟨d, hd, rfl⟩ := mem_map.mp hm
        obtain ⟨e', -, hmatch⟩ := mem_filterMap.mp hd
        exact length_matchedName hwww hmatch
    · obtain ⟨text, flags, hp⟩ := hentries e he
      rcases parseEntry_name hp with ⟨hwild, rfl, -⟩ | ⟨-, htext, -⟩
      · obtain ⟨rest, hrest⟩ := isPrefixOf_iff_prefix.mp hwild
        rw [hdot] at hrest
        have hq : lower query = chr '.' :: rest := (cons.inj hrest).2.symm
        refine max?_ne (n := rest.length) (mem_map_of_mem (mem_filterMap.mpr ⟨e, he, ?_⟩)) ?_ hsame
        · rw [matchedName, if_pos hwild, hdot, hq]
          exact if_pos (suffix_refl _)
        · intro m hm
          obtain ⟨d, hd, rfl⟩ := mem_map.mp hm
          obtain ⟨e', he', hstands⟩ := mem_filterMap.mp hd
          obtain ⟨text, flags, hp'⟩ := hentries e' he'
          exact length_standsFor hp' hq hstands
      · rw [hdot] at htext
        exact absurd rfl (parseEntry_head hp htext).2
  · intro hno
    have hcongr : entries.filterMap (matchedName query) = entries.filterMap (standsFor query) :=
      filterMap_congr fun e he => matchedName_eq_standsFor fun hslips => hno ⟨e, he, hslips⟩
    rw [hcongr]

/-- A wildcard and a name, and a name that both match. -/
theorem matchedDomainLength_iff_two :
    (plainFilter Ipv4.net.toNetOps .general [ascii "*.b.c", ascii "www.a.b.c"]).matchedDomainLength
      (ascii "A.b.c") = some 5 := by
  rw [(matchedDomainLength_iff Ipv4.net.toNetOps _ [ascii "*.b.c", ascii "www.a.b.c"] rfl
    (by simp only [mem_cons, not_mem_nil, or_false, forall_eq_or_imp, forall_eq]
        exact ⟨⟨ascii "b.c", ⟨false, true⟩, by decide +kernel⟩, ascii "a.b.c",
          ⟨true, false⟩, by decide +kernel⟩)
    (ascii "A.b.c")).mpr (by simp only [Slips, mem_cons, not_mem_nil, or_false, exists_eq_or_imp, exists_eq_left]
                             decide +kernel)]
  decide +kernel

/-- The name in the first entry without its `www.` is the query, and is not found. The second finds a
query without anything in front of its dot. -/
theorem nested_www_unmatched :
    (plainFilter Ipv4.net.toNetOps .general [ascii "www.www.a.b"]).matchedDomainLength (ascii "www.a.b") = none ∧
    standsFor (ascii "www.a.b") (ascii "www.www.a.b") = some (ascii "www.a.b") ∧
    (plainFilter Ipv4.net.toNetOps .general [ascii "*.a.b"]).matchedDomainLength (ascii ".a.b") = some 3 ∧
    standsFor (ascii ".a.b") (ascii "*.a.b") = none := by
  decide +kernel

end TrustTunnel.Filter
