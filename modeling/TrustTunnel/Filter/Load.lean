import TrustTunnel.Filter.Filter

/-!
# Filter.Load

What `update_exclusions` makes of a text.
-/

namespace TrustTunnel.Filter

open Lib List

/-- The well-formed entries of one class, without their sigils, in order. -/
def accepted (net : NetOps) (k : RuleClass) (tokens : List Bytes) : List Bytes :=
  tokens.filterMap fun t =>
    if (classify t).1 = k ∧ (parseEntry net (classify t).2).isMalformed = false then
      some (classify t).2
    else none

def lines (entries : List Bytes) : Bytes := entries.flatMap (· ++ [chr '\n'])

def tablesOf (net : NetOps) (entries : List Bytes) : Tables :=
  entries.foldl (Tables.add net) .empty

def plainFilter (net : NetOps) (mode : VpnMode) (entries : List Bytes) : DomainFilter :=
  ⟨mode, tablesOf net entries, none, none, none, fun _ => none, fun _ => false⟩

def subFilter (net : NetOps) (mode : VpnMode) (entries : List Bytes) : Option DomainFilter :=
  if entries.isEmpty then none
  else some (plainFilter net mode (entries.filter (fun w => !w.isEmpty)))

def filterOf (net : NetOps) (mode : VpnMode) (entries : RuleClass → List Bytes)
    (resolvedTags : SockAddrTag → Option Bytes) : DomainFilter where
  mode := mode
  tables := tablesOf net (entries .ordinary)
  defaultOverrides := subFilter net mode (entries .defaultOverride)
  explicitExclusions := subFilter net mode (entries .explicitExclusion)
  explicitDefaults := subFilter net mode (entries .explicitDefault)
  resolvedTags := resolvedTags
  exclusionSuspects := fun _ => false

/-! ## Classes -/

theorem accepted_cons (net : NetOps) (k : RuleClass) (t : Bytes) (ts : List Bytes) :
    accepted net k (t :: ts) = accepted net k [t] ++ accepted net k ts := by
  simp only [accepted, filterMap_cons]
  split
  · simp
  · simp

theorem accepted_append (net : NetOps) (k : RuleClass) (ts us : List Bytes) :
    accepted net k (ts ++ us) = accepted net k ts ++ accepted net k us :=
  filterMap_append

theorem classify_ordinary {t : Bytes} (h : (classify t).1 = .ordinary) : (classify t).2 = t := by
  cases t with
  | nil => rfl
  | cons c rest =>
    cases hk : RuleClass.ofSigil c with
    | none => simp [classify, hk]
    | some k =>
      simp only [classify, hk] at h
      unfold RuleClass.ofSigil at hk
      repeat' split at hk
      all_goals simp_all

theorem classify_of_not_sigil {c : UInt8} (rest : Bytes) (h : isSigil c = false) :
    classify (c :: rest) = (.ordinary, c :: rest) := by
  have hc : RuleClass.ofSigil c = none := by simpa [isSigil] using h
  simp [classify, hc]

theorem classify_of_accepted (net : NetLib) {k : RuleClass} {ts : List Bytes} {r : Bytes}
    (hr : r ∈ accepted net.toNetOps k ts) : classify r = (.ordinary, r) := by
  simp only [accepted, mem_filterMap, Option.ite_none_right_eq_some] at hr
  obtain ⟨t, -, ⟨-, hp⟩, hrest⟩ := hr
  simp only [Option.some.injEq] at hrest
  rw [hrest] at hp
  cases r with
  | nil => rfl
  | cons c rest =>
    cases hc : isSigil c with
    | false => exact classify_of_not_sigil rest hc
    | true =>
      rw [parseEntry_sigil net rest hc] at hp
      cases hp

theorem mem_classify {t : Bytes} {b : UInt8} (h : b ∈ (classify t).2) : b ∈ t := by
  cases t with
  | nil => exact h
  | cons c rest =>
    simp only [classify] at h
    split at h
    · exact mem_cons_of_mem c h
    · exact h

theorem isWord_of_accepted {net : NetOps} {k : RuleClass} {text r : Bytes}
    (hr : r ∈ accepted net k (words isSpace text)) : r = [] ∨ IsWord isSpace r := by
  simp only [accepted, mem_filterMap, Option.ite_none_right_eq_some] at hr
  obtain ⟨t, ht, -, hrest⟩ := hr
  simp only [Option.some.injEq] at hrest
  by_cases hn : r = []
  · exact .inl hn
  · refine .inr ⟨hn, fun b hb => ?_⟩
    rw [← hrest] at hb
    exact (isWord_of_mem_words ht).plain b (mem_classify hb)

/-! ## The loop over the tokens -/

theorem Tables.add_malformed {net : NetOps} {t : Tables} {entry : Bytes}
    (h : (parseEntry net entry).isMalformed = true) : t.add net entry = t := by
  unfold Tables.add
  cases hp : parseEntry net entry with
  | malformed => rfl
  | address a | range r | domain text flags | port p => rw [hp] at h; cases h

theorem Loading.addEntry_eq (net : NetOps) (l : Loading) (t : Bytes) : l.addEntry net t =
      { tables := (accepted net .ordinary [t]).foldl (Tables.add net) l.tables
        overrides := l.overrides ++ lines (accepted net .defaultOverride [t])
        explicitExclusions := l.explicitExclusions ++ lines (accepted net .explicitExclusion [t])
        explicitDefaults := l.explicitDefaults ++ lines (accepted net .explicitDefault [t]) } := by
  have hord : (classify t).1 = .ordinary → (classify t).2 = t := classify_ordinary
  simp only [Loading.addEntry, accepted, filterMap_cons, filterMap_nil, lines]
  generalize classify t = p at hord
  obtain ⟨k, rest⟩ := p
  cases hm : (parseEntry net rest).isMalformed with
  | true =>
    cases k with
    | ordinary =>
      obtain rfl : rest = t := hord rfl
      simp [Tables.add_malformed hm]
    | defaultOverride | explicitExclusion | explicitDefault => simp [hm]
  | false =>
    cases k with
    | ordinary =>
      obtain rfl : rest = t := hord rfl
      simp
    | defaultOverride | explicitExclusion | explicitDefault => simp [hm]

theorem lines_append (a b : List Bytes) : lines (a ++ b) = lines a ++ lines b :=
  flatMap_append

theorem lines_isEmpty (ws : List Bytes) : (lines ws).isEmpty = ws.isEmpty := by
  cases ws with
  | nil => rfl
  | cons w ws => cases w <;> simp [lines]

theorem Loading.foldl_addEntry (net : NetOps) (ts : List Bytes) (l : Loading) : ts.foldl (Loading.addEntry net) l =
      { tables := (accepted net .ordinary ts).foldl (Tables.add net) l.tables
        overrides := l.overrides ++ lines (accepted net .defaultOverride ts)
        explicitExclusions := l.explicitExclusions ++ lines (accepted net .explicitExclusion ts)
        explicitDefaults := l.explicitDefaults ++ lines (accepted net .explicitDefault ts) } := by
  induction ts generalizing l with
  | nil => simp [accepted, lines]
  | cons t ts ih =>
    rw [foldl_cons, ih, Loading.addEntry_eq]
    simp [accepted_cons net _ t ts, foldl_append, lines_append, append_assoc]

/-! ## The filters that are loaded -/

section Plain

variable {net : NetOps} {ws : List Bytes} (hws : ∀ w ∈ ws, classify w = (.ordinary, w))
include hws

theorem accepted_sigil_plain {k : RuleClass} (hk : k ≠ .ordinary) : accepted net k ws = [] := by
  simp only [accepted, filterMap_eq_nil_iff]
  intro w hw
  rw [hws w hw, if_neg]
  rintro ⟨h, -⟩
  exact hk h.symm

theorem foldl_accepted_plain (t : Tables) :
    (accepted net .ordinary ws).foldl (Tables.add net) t = ws.foldl (Tables.add net) t := by
  induction ws generalizing t with
  | nil => rfl
  | cons w ws ih =>
    have ih' := ih fun v hv => hws v (mem_cons_of_mem w hv)
    rw [accepted_cons, foldl_append, ih']
    have hw := hws w (by simp)
    cases hm : (parseEntry net w).isMalformed with
    | true => simp [accepted, hw, hm, Tables.add_malformed hm]
    | false => simp [accepted, hw, hm]

theorem load_plain (fuel : Nat) (mode : VpnMode) {text : Bytes} (htext : words isSpace text = ws) :
    load net (fuel + 1) mode text = plainFilter net mode ws := by
  simp only [load, htext, Loading.foldl_addEntry, Loading.empty, plainFilter, tablesOf, foldl_accepted_plain hws]
  simp [accepted_sigil_plain hws, lines]

end Plain

theorem load_lines (net : NetLib) (fuel : Nat) (mode : VpnMode) (k : RuleClass) (text : Bytes) :
    load net.toNetOps (fuel + 1) mode (lines (accepted net.toNetOps k (words isSpace text)))
      = plainFilter net.toNetOps mode
          ((accepted net.toNetOps k (words isSpace text)).filter (fun w => !w.isEmpty)) := by
  refine load_plain ?_ fuel mode ?_
  · intro w hw
    exact classify_of_accepted net (mem_filter.mp hw).1
  · exact words_terminated (by decide) _ fun w hw => isWord_of_accepted hw

theorem updateExclusions_eq (net : NetLib) (f : DomainFilter) (mode : VpnMode) (text : Bytes) :
    f.updateExclusions net.toNetOps mode text =
      filterOf net.toNetOps mode (fun k => accepted net.toNetOps k (words isSpace text)) f.resolvedTags := by
  -- an entry with a sigil needs a text, and a text leaves fuel for the filter below
  have hsub : ∀ k, (if (lines (accepted net.toNetOps k (words isSpace text))).isEmpty then none
      else some (load net.toNetOps text.length mode (lines (accepted net.toNetOps k (words isSpace text)))))
      = subFilter net.toNetOps mode (accepted net.toNetOps k (words isSpace text)) := by
    intro k
    rw [lines_isEmpty, subFilter]
    cases text with
    | nil => simp [words_nil, accepted]
    | cons c cs => rw [length_cons, load_lines]
  simp only [DomainFilter.updateExclusions, load, Loading.foldl_addEntry, Loading.empty, nil_append, hsub]
  rfl

/-! ## The table of names -/

theorem Tables.domains_skip {net : NetOps} {ws : List Bytes}
    (hws : ∀ w ∈ ws, ∀ text flags, parseEntry net w ≠ .domain text flags) (t : Tables) :
    (ws.foldl (Tables.add net) t).domains = t.domains := by
  induction ws generalizing t with
  | nil => rfl
  | cons w ws ih =>
    rw [foldl_cons, ih fun v hv => hws v (mem_cons_of_mem w hv)]
    have hw := hws w (by simp)
    unfold Tables.add
    split
    · rfl
    · rename_i text flags hp
      exact absurd hp (hw text flags)
    · rfl
    · rfl
    · rfl

end TrustTunnel.Filter
