import Mathlib.Data.List.DropRight
import TrustTunnel.Gui.Failover
import TrustTunnel.Gui.Toml

/-!
# Gui.PathKey

Which paths name one file (`canonical_path_key` in `lifecycle.rs`, `normalizePath` in `samePath.ts`), and the
queue of servers that `failover_queue` builds with the key. The two keys trim other characters: Rust takes
U+0085 off the ends, and the frontend U+FEFF. Each drops one verbatim mark and does not look at what
it uncovers.
-/

namespace TrustTunnel.Gui

open List Toml

/-- White space for `str::trim` and for `String.prototype.trim`. -/
def isWhite (c : Char) : Bool :=
  (9 ≤ c.val && c.val ≤ 13) || c.val == 0x20 || c.val == 0xA0 || c.val == 0x1680 ||
    (0x2000 ≤ c.val && c.val ≤ 0x200A) || c.val == 0x2028 || c.val == 0x2029 || c.val == 0x202F ||
    c.val == 0x205F || c.val == 0x3000

def nextLine : Char := Char.ofNat 0x85

def byteOrderMark : Char := Char.ofNat 0xFEFF

def rustWhite (c : Char) : Bool := isWhite c || c == nextLine

/-- The white space and the line ends of ECMAScript. -/
def jsWhite (c : Char) : Bool := isWhite c || c == byteOrderMark

def trim (white : Char → Bool) (p : Text) : Text := (p.dropWhile white).rdropWhile white

/-- The mark of an extended-length path. -/
def verbatim : Text := ['/', '/', '?', '/']

def unc : Text := ['u', 'n', 'c', '/']

def dropVerbatim (unified : Text) : Text :=
  match unified.dropPrefix? (verbatim ++ unc) with
  | some rest => '/' :: '/' :: rest
  | none => (unified.dropPrefix? verbatim).getD unified

/-- `str::to_lowercase` and `String.prototype.toLowerCase` are the conversion of Unicode: it has nothing
left to do on what it yields, and neither makes nor loses what has no case. -/
structure Lowercase where
  lower : Text → Text
  stable : ∀ s t, t ⊆ lower s → lower t = t
  trimmed : ∀ s, trim rustWhite s = s → trim rustWhite (lower s) = lower s
  count : ∀ s, ∀ c ∈ ['\\', nextLine, byteOrderMark], (lower s).count c = s.count c

namespace Lowercase

variable (L : Lowercase)

def unify (white : Char → Bool) (p : Text) : Text :=
  L.lower ((trim white p).map fun c => if c = '\\' then '/' else c)

def canonicalPathKey (p : Text) : Text := dropVerbatim (L.unify rustWhite p)

def normalizePath (p : Text) : Text := dropVerbatim (L.unify jsWhite p)

end Lowercase

/-! ## Trimming -/

def AtEnd (c : Char) (p : Text) : Prop := c ∈ p.head? ∨ c ∈ p.getLast?

section Trim

variable {W W' : Char → Bool} {p : Text} {c : Char}

theorem trim_split (W : Char → Bool) (p : Text) : ∃ a b, a ++ (trim W p ++ b) = p ∧ ∀ c ∈ a ++ b,
    W c = true := by
  refine ⟨p.takeWhile W, (p.dropWhile W).rtakeWhile W, ?_, fun c hc => ?_⟩
  · rw [trim, rdropWhile_append_rtakeWhile, takeWhile_append_dropWhile]
  · rcases mem_append.mp hc with hc | hc
    · exact mem_takeWhile_imp hc
    · exact mem_rtakeWhile_imp hc

theorem trim_atEnd (h : AtEnd c (trim W p)) : W c = false := by
  rcases h with hc | hc
  · obtain ⟨b, hb⟩ := rdropWhile_prefix W (p.dropWhile W)
    have hnot := head?_dropWhile_not W p
    rw [← hb, head?_append, ← trim, Option.mem_def.mp hc] at hnot
    exact hnot
  · obtain ⟨hne, rfl⟩ := mem_getLast?_eq_getLast hc
    exact Bool.eq_false_iff.mpr (rdropWhile_last_not W _ hne)

theorem trim_eq_self : trim W p = p ↔ ∀ c, AtEnd c p → W c = false := by
  constructor
  · intro h
    rw [← h]
    exact fun c => trim_atEnd
  · intro h
    have hdrop : p.dropWhile W = p := by cases p <;> simp_all [AtEnd]
    rw [trim, hdrop, rdropWhile_eq_self_iff]
    intro hne
    simpa using h _ (.inr (getLast_mem_getLast? hne))

theorem trim_trim (h : ∀ c, W c = true → W' c = true) : trim W' (trim W p) = trim W' p := by
  obtain ⟨a, b, hp, hw⟩ := trim_split W p
  have ha : ∀ c ∈ a, W' c = true := fun c hc => h c (hw c (mem_append_left _ hc))
  have hb : ∀ c ∈ b, W' c = true := fun c hc => h c (hw c (mem_append_right _ hc))
  conv_rhs => rw [← hp, trim, dropWhile_append_of_pos ha, dropWhile_append]
  split
  next h => rw [trim, isEmpty_iff.mp h, dropWhile_eq_nil_iff.mpr hb]
  · rw [trim, rdropWhile, rdropWhile, reverse_append, dropWhile_append_of_pos (by simpa using hb)]

theorem not_atEnd_of_count (hc : W c = true) (h : (trim W p).count c = p.count c) : ¬ AtEnd c p := by
  obtain ⟨a, b, hp, -⟩ := trim_split W p
  have ht := mt (trim_atEnd (W := W) (p := p) (c := c)) (by simp [hc])
  generalize trim W p = t at *
  subst hp
  have ha : c ∉ a ++ b := by
    rw [← count_eq_zero]
    simp only [count_append] at h ⊢
    omega
  simp only [AtEnd, head?_append, getLast?_append, Option.mem_def, Option.or_eq_some_iff] at ht ⊢
  grind [mem_of_head?, mem_of_getLast?]

theorem count_trim (hc : W c = false) : (trim W p).count c = p.count c := by
  obtain ⟨a, b, hp, hw⟩ := trim_split W p
  grind

end Trim

/-! ## The key -/

theorem dropVerbatim_cases (u : Text) :
    (∃ rest, u = verbatim ++ (unc ++ rest) ∧ dropVerbatim u = '/' :: '/' :: rest) ∨
      (∃ rest, u = verbatim ++ rest ∧ ¬ unc <+: rest ∧ dropVerbatim u = rest) ∨
      ¬ verbatim <+: u ∧ dropVerbatim u = u := by
  rw [dropVerbatim]
  cases hunc : u.dropPrefix? (verbatim ++ unc) with
  | some rest => exact .inl ⟨rest, by simpa [dropPrefix?_eq_some_iff] using hunc, rfl⟩
  | none =>
    cases hbare : u.dropPrefix? verbatim with
    | some rest =>
      obtain rfl : u = verbatim ++ rest := by simpa [dropPrefix?_eq_some_iff] using hbare
      refine .inr (.inl ⟨rest, rfl, ?_, rfl⟩)
      rintro ⟨t, rfl⟩
      simp [verbatim, unc, dropPrefix?] at hunc
    | none =>
      refine .inr (.inr ⟨?_, rfl⟩)
      rintro ⟨t, rfl⟩
      simp [verbatim, dropPrefix?] at hbare

namespace Lowercase

variable {L : Lowercase} {W W' : Char → Bool} {p t : Text} {c : Char}

theorem unify_of_subset (h : t ⊆ L.unify W p) : L.unify W' t = trim W' t := by
  obtain ⟨a, b, ht, -⟩ := trim_split W' t
  have hsub : trim W' t ⊆ L.unify W p := fun c hc => h (by rw [← ht]; simp [hc])
  have hslash : '\\' ∉ L.unify W p := by
    rw [← count_eq_zero, unify, L.count _ _ (by simp), count_eq_zero]
    grind
  have hmap : (trim W' t).map (fun c => if c = '\\' then '/' else c) = trim W' t :=
    (map_congr_left fun c hc => if_neg fun hs : c = '\\' => hslash (hs ▸ hsub hc)).trans (map_id _)
  rw [unify, hmap]
  exact L.stable _ _ hsub

theorem trim_unify : trim rustWhite (L.unify rustWhite p) = L.unify rustWhite p := by
  refine L.trimmed _ (trim_eq_self.mpr fun c hc => ?_)
  obtain ⟨d, hd, rfl⟩ : ∃ d, AtEnd d (trim rustWhite p) ∧ (if d = '\\' then '/' else d) = c := by
    simpa [AtEnd, or_and_right, exists_or] using hc
  split
  · rfl
  · exact trim_atEnd hd

theorem count_key (hc : c ∈ [nextLine, byteOrderMark]) :
    (dropVerbatim (L.unify W p)).count c = (trim W p).count c := by
  have hnot : c ∉ verbatim ++ unc := by
    rw [mem_cons, mem_singleton] at hc
    rcases hc with rfl | rfl <;> decide
  have hdrop : (dropVerbatim (L.unify W p)).count c = (L.unify W p).count c := by
    obtain ⟨rest, hu, hd⟩ | ⟨rest, hu, -, hd⟩ | ⟨-, hd⟩ := dropVerbatim_cases (L.unify W p) <;>
      grind [verbatim, unc]
  rw [hdrop, unify, L.count _ _ (mem_cons_of_mem _ hc), List.count, countP_map]
  exact countP_congr fun x _ => by grind [nextLine, byteOrderMark]

/-- Behind a mark there is neither white space nor another mark. -/
def Settled (u : Text) : Prop :=
  ∀ rest, u = verbatim ++ rest →
    ¬ verbatim <+: rest ∧ ¬ unc ++ ['?', '/'] <+: rest ∧ ∀ c ∈ rest.head?, rustWhite c = false

theorem key_eq_self_iff (h : t ⊆ L.unify W p) :
    L.canonicalPathKey t = t ↔ trim rustWhite t = t ∧ ¬ verbatim <+: t := by
  rw [canonicalPathKey, unify_of_subset h]
  constructor
  · intro hkey
    obtain ⟨a, b, hsplit, -⟩ := trim_split rustWhite t
    have hlen : (dropVerbatim (trim rustWhite t)).length = a.length + ((trim rustWhite t).length + b.length) := by
      rw [hkey, ← length_append, ← length_append, hsplit]
    obtain ⟨rest, hu, hd⟩ | ⟨rest, hu, -, hd⟩ | ⟨hno, hd⟩ := dropVerbatim_cases (trim rustWhite t)
    · grind [verbatim, unc]
    · grind [verbatim]
    · rw [hd] at hkey
      exact ⟨hkey, hkey ▸ hno⟩
  · rintro ⟨htrim, hno⟩
    rw [htrim]
    obtain ⟨rest, hu, -⟩ | ⟨rest, hu, -⟩ | ⟨-, hd⟩ := dropVerbatim_cases t
    · exact absurd ⟨_, hu.symm⟩ hno
    · exact absurd ⟨_, hu.symm⟩ hno
    · exact hd

theorem key_key_iff : L.canonicalPathKey (L.canonicalPathKey p) = L.canonicalPathKey p ↔
    Settled (L.unify rustWhite p) := by
  have hends := trim_eq_self.mp (trim_unify (L := L) (p := p))
  obtain ⟨rest, hu, hd⟩ | ⟨rest, hu, hunc, hd⟩ | ⟨hno, hd⟩ := dropVerbatim_cases (L.unify rustWhite p) <;>
    rw [show L.canonicalPathKey p = _ from hd, key_eq_self_iff (W := rustWhite) (p := p) (by grind [verbatim])]
  · have hself : trim rustWhite ('/' :: '/' :: rest) = '/' :: '/' :: rest := by
      refine trim_eq_self.mpr fun c hc => ?_
      rcases hc with hc | hc
      · cases hc
        rfl
      · refine hends c (.inr ?_)
        rw [hu]
        cases rest <;> simpa [unc] using hc
    have hletter : rustWhite 'u' = false := rfl
    simp [Settled, hu, hself, verbatim, unc, hletter]
  · have hlast c (hc : c ∈ rest.getLast?) : rustWhite c = false :=
      hends c (.inr (by rw [hu, getLast?_append, Option.mem_def.mp hc]; rfl))
    have hmark : ¬ unc ++ ['?', '/'] <+: rest := fun h => hunc ((prefix_append _ _).trans h)
    simp only [Settled, hu, append_cancel_left_eq, forall_eq', trim_eq_self]
    exact ⟨fun h => ⟨h.2, hmark, fun c hc => h.1 c (.inl hc)⟩,
      fun h => ⟨fun c hc => hc.elim (h.2.2 c) (hlast c), h.1⟩⟩
  · exact iff_of_true ⟨trim_unify, hno⟩ fun rest hu => absurd ⟨rest, hu.symm⟩ hno

/-- Without the white space of both, the text has neither of the two characters at its ends. -/
def PlainEnds (p : Text) : Prop :=
  ¬ AtEnd nextLine (trim isWhite p) ∧ ¬ AtEnd byteOrderMark (trim isWhite p)

theorem normalizePath_iff : L.normalizePath p = L.canonicalPathKey p ↔ PlainEnds p := by
  have hrust : trim rustWhite (trim isWhite p) = trim rustWhite p := trim_trim fun c h => by simp [rustWhite, h]
  have hjs : trim jsWhite (trim isWhite p) = trim jsWhite p := trim_trim fun c h => by simp [jsWhite, h]
  constructor
  · intro h
    have hcount c (hc : c ∈ [nextLine, byteOrderMark]) :
        (trim jsWhite (trim isWhite p)).count c = (trim rustWhite (trim isWhite p)).count c := by
      rw [hrust, hjs, ← count_key (L := L) hc, ← count_key (L := L) hc]
      exact congrArg _ h
    have hline := hcount nextLine (by simp)
    have hmark := hcount byteOrderMark (by simp)
    rw [count_trim (by decide)] at hline
    rw [count_trim (W := rustWhite) (by decide)] at hmark
    exact ⟨not_atEnd_of_count (by decide) hline.symm, not_atEnd_of_count (by decide) hmark⟩
  · rintro ⟨hline, hmark⟩
    have hwhite c (hc : AtEnd c (trim isWhite p)) : isWhite c = false ∧ c ≠ nextLine ∧ c ≠ byteOrderMark :=
      ⟨trim_atEnd hc, fun h => hline (h ▸ hc), fun h => hmark (h ▸ hc)⟩
    rw [trim_eq_self.mpr fun c hc => by simp [rustWhite, hwhite c hc]] at hrust
    rw [trim_eq_self.mpr fun c hc => by simp [jsWhite, hwhite c hc]] at hjs
    rw [normalizePath, canonicalPathKey, unify, unify, ← hrust, ← hjs]

theorem pathKey_iff (L : Lowercase) (p : Text) : L.canonicalPathKey (L.canonicalPathKey p) = L.canonicalPathKey p ∧
        L.normalizePath p = L.canonicalPathKey p ↔ Settled (L.unify rustWhite p) ∧ PlainEnds p :=
  and_congr key_key_iff normalizePath_iff

/-- The conversion, on texts without capitals. -/
def small : Lowercase := ⟨id, fun _ _ _ => rfl, fun _ h => h, fun _ _ _ => rfl⟩

theorem key_unsettled :
    small.canonicalPathKey (small.canonicalPathKey "//?///?/c:/a") ≠ small.canonicalPathKey "//?///?/c:/a" ∧
      small.normalizePath (byteOrderMark :: ['a']) ≠ small.canonicalPathKey (byteOrderMark :: ['a']) := by
  decide +kernel

end Lowercase

/-! ## The queue -/

structure FailoverCandidate where
  id : Text
  path : Text
  order : Nat

def enqueue (key : Text → Text) (q : List Text × List Text) (e : FailoverCandidate) : List Text × List Text :=
  if q.2.contains (key e.path) then q else (q.1 ++ [e.path], q.2 ++ [key e.path])

def failoverQueue (L : Lowercase) (entries : List FailoverCandidate) (excludedIds : List Text) (origin : Text) :
    List Text :=
  let originKey := L.canonicalPathKey origin
  let tail := (entries.filter (L.canonicalPathKey ·.path ≠ originKey)).filter (!excludedIds.contains ·.id)
  ((tail.mergeSort fun a b => a.order ≤ b.order).foldl (enqueue L.canonicalPathKey)
    (if origin = [] then ([], []) else ([origin], [originKey]))).1

def failoverSwitchTarget (L : Lowercase) (outcome : Failover.SupervisorOutcome) (index : Nat)
    (queue : List Text) : Option Text :=
  if outcome ≠ .recovered ∨ index = 0 then none
  else do
    let target ← queue[index]?
    let origin ← queue.head?
    if L.canonicalPathKey target = L.canonicalPathKey origin then none else some target

theorem foldl_enqueue (key : Text → Text) (es : List FailoverCandidate) (q : List Text) : ∃ kept, kept <+ es ∧
      es.foldl (enqueue key) (q, q.map key) = (q ++ kept.map (·.path), (q ++ kept.map (·.path)).map key) ∧
      ((q.map key).Nodup → ((q ++ kept.map (·.path)).map key).Nodup) ∧
      ∀ e ∈ es, key e.path ∈ (q ++ kept.map (·.path)).map key := by
  induction es generalizing q with
  | nil => exact ⟨[], .slnil, by simp, by simp, nofun⟩
  | cons e es ih =>
    by_cases he : key e.path ∈ q.map key
    · obtain ⟨kept, hsub, hq, hnd, hall⟩ := ih q
      have hkeep : enqueue key (q, q.map key) e = (q, q.map key) :=
        if_pos (contains_iff_mem.mpr he)
      refine ⟨kept, hsub.cons e, by rw [foldl_cons, hkeep, hq], hnd, fun d hd => ?_⟩
      rcases mem_cons.mp hd with rfl | hd
      · rw [map_append]
        exact mem_append_left _ he
      · exact hall d hd
    · obtain ⟨kept, hsub, hq, hnd, hall⟩ := ih (q ++ [e.path])
      have hpush : enqueue key (q, q.map key) e = (q ++ [e.path], (q ++ [e.path]).map key) := by
        rw [enqueue, if_neg (mt contains_iff_mem.mp he), map_append]
        rfl
      rw [append_assoc] at hq hnd hall
      refine ⟨e :: kept, hsub.cons_cons e, by rw [foldl_cons, hpush, hq]; rfl, fun h => hnd ?_, fun d hd => ?_⟩
      · rw [map_append]
        exact nodup_append.mpr ⟨h, by simp, by grind⟩
      · rcases mem_cons.mp hd with rfl | hd
        · simp
        · exact hall d hd

theorem filter_mergeSort (es : List FailoverCandidate) (n : Nat) :
    (es.mergeSort fun a b => a.order ≤ b.order).filter (·.order = n) = es.filter (·.order = n) := by
  have hsub : es.filter (·.order = n) <+ es.mergeSort fun a b => a.order ≤ b.order :=
    sublist_mergeSort (by grind) (by grind) (pairwise_filter.mpr (pairwise_of_forall fun a b => by grind))
      filter_sublist
  have hfilter := hsub.filter (·.order = n)
  simp only [filter_filter, Bool.and_self] at hfilter
  exact (hfilter.eq_of_length ((mergeSort_perm es _).filter _).length_eq.symm).symm

theorem failoverQueue_spec (L : Lowercase) (entries : List FailoverCandidate) (excluded : List Text) (origin : Text) :
    ∃ kept : List FailoverCandidate,
      failoverQueue L entries excluded origin = (if origin = [] then [] else [origin]) ++ kept.map (·.path) ∧
      ((failoverQueue L entries excluded origin).map L.canonicalPathKey).Nodup ∧
      (∀ k, k ∈ kept.map (L.canonicalPathKey ·.path) ↔ k ≠ L.canonicalPathKey origin ∧
        ∃ e ∈ entries, e.id ∉ excluded ∧ L.canonicalPathKey e.path = k) ∧
      kept.Pairwise (·.order ≤ ·.order) ∧
      (∀ n, kept.filter (·.order = n) <+ entries.filter (!excluded.contains ·.id)) ∧ ∀ outcome index target,
        failoverSwitchTarget L outcome index (failoverQueue L entries excluded origin) = some target →
          L.canonicalPathKey target ≠ L.canonicalPathKey origin := by
  set key := L.canonicalPathKey with hkey
  set tail := (entries.filter (key ·.path ≠ key origin)).filter (!excluded.contains ·.id) with htail
  set head := if origin = [] then [] else [origin] with hhead
  have hmem e : e ∈ tail ↔ e ∈ entries ∧ key e.path ≠ key origin ∧ e.id ∉ excluded := by grind
  obtain ⟨kept, hsub, hq, hnd, hall⟩ := foldl_enqueue key (tail.mergeSort fun a b => a.order ≤ b.order) head
  have hqueue : failoverQueue L entries excluded origin = head ++ kept.map (·.path) := by
    have hstart : (if origin = [] then ([], []) else ([origin], [key origin])) = (head, head.map key) := by
      grind
    rw [failoverQueue, hstart, hq]
  have hkept e (he : e ∈ kept) : key e.path ≠ key origin :=
    ((hmem e).mp (mem_mergeSort.mp (hsub.subset he))).2.1
  refine ⟨kept, hqueue, ?_, fun k => ⟨fun hk => ?_, ?_⟩, ?_, fun n => ?_, fun outcome index target h => ?_⟩
  · rw [hqueue]
    exact hnd (by grind)
  · obtain ⟨e, he, rfl⟩ := mem_map.mp hk
    obtain ⟨hin, hne, hid⟩ := (hmem e).mp (mem_mergeSort.mp (hsub.subset he))
    exact ⟨hne, e, hin, hid, rfl⟩
  · rintro ⟨hne, e, hin, hid, rfl⟩
    have hqueued := hall e (mem_mergeSort.mpr ((hmem e).mpr ⟨hin, hne, hid⟩))
    rw [map_append, mem_append, map_map] at hqueued
    exact hqueued.resolve_left (by grind)
  · exact ((pairwise_mergeSort (by grind) (by grind) _).sublist hsub).imp (by simp)
  · have hrows := hsub.filter (·.order = n)
    rw [filter_mergeSort] at hrows
    exact (hrows.trans filter_sublist).trans (filter_sublist.filter _)
  · rw [hqueue, failoverSwitchTarget] at h
    split at h
    · cases h
    next hindex =>
    simp only [Option.bind_eq_bind, Option.bind_eq_some_iff] at h
    obtain ⟨t, ht, _, _, h⟩ := h
    obtain rfl : t = target := by grind
    rw [getElem?_append_right (by grind)] at ht
    obtain ⟨e, he, rfl⟩ := mem_map.mp (mem_of_getElem? ht)
    exact hkept e he

/-! ## The walk over the queue -/

open Failover

/-- Where the walk over the queue reports that it is exhausted, every server of the manifest that is neither
excluded nor the one that was lost has had an attempt, and was given up. -/
theorem exhausted_all_tried (L : Lowercase) (entries : List FailoverCandidate) (excluded : List Text)
    (origin : Text) (horigin : origin ≠ []) (script : Script) (captured : Nat) (kind : WalkKind) :
    let queue := failoverQueue L entries excluded origin
    let r := runFailoverWalk script captured kind queue.length
    r.1.queueExhausted = true →
      ∀ e ∈ entries, e.id ∉ excluded → L.canonicalPathKey e.path ≠ L.canonicalPathKey origin →
        ∃ i path, queue[i]? = some path ∧ L.canonicalPathKey path = L.canonicalPathKey e.path ∧
          .attempted i 1 ∈ r.2.log ∧ .ended i .gaveUp ∈ r.2.log := by
  intro queue r h e he hid hne
  have hpassed := walk_passed script captured kind queue.length
  obtain ⟨hlen, hgave⟩ := hpassed.exhausted.mp h
  obtain ⟨kept, -, hq, -, hall⟩ := foldl_enqueue L.canonicalPathKey
    (((entries.filter (L.canonicalPathKey ·.path ≠ L.canonicalPathKey origin)).filter
      (!excluded.contains ·.id)).mergeSort fun a b => a.order ≤ b.order) [origin]
  have hqueue : queue = origin :: kept.map (·.path) := by
    show failoverQueue L entries excluded origin = _
    rw [failoverQueue, if_neg horigin]
    exact congrArg Prod.fst hq
  obtain ⟨path, hpath, hkey⟩ := mem_map.mp (hall e (by simp [he, hid, hne]))
  obtain ⟨i, hi⟩ := mem_iff_getElem?.mp hpath
  replace hi : queue[i]? = some path := hqueue ▸ hi
  have hpos : 0 < i := by
    by_contra hzero
    obtain rfl : i = 0 := by omega
    rw [hqueue] at hi
    cases hi
    exact hne hkey.symm
  have hended := mem_endings.mp (hgave i (List.getElem?_eq_some_iff.mp hi).1)
  refine ⟨i, path, hi, hkey, tried_of_gaveUp hpassed hended ?_, hended⟩
  simp [perCandidateAttemptBudget, hpos, Nat.not_le.mpr hlen, failoverAttemptsPerCandidate]

theorem exhausted_all_tried_two :
    let r := runFailoverWalk (fun _ => ⟨false, 0, true, false, 0, none⟩) 0 .serverDrop
      (failoverQueue .small [⟨"1", "b", 0⟩] [] "a").length
    ∃ i : Nat, .attempted i 1 ∈ r.2.log ∧ .ended i .gaveUp ∈ r.2.log := by
  obtain ⟨i, -, -, -, h⟩ := exhausted_all_tried .small [⟨"1", "b", 0⟩] [] "a" (by decide)
    (fun _ => ⟨false, 0, true, false, 0, none⟩) 0 .serverDrop (by decide +kernel) ⟨"1", "b", 0⟩
    (by simp) (by simp)
    (by decide +kernel)
  exact ⟨i, h⟩

end TrustTunnel.Gui
