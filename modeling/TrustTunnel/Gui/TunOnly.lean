import TrustTunnel.Gui.ConfigEdit

/-!
# Gui.TunOnly

Whether a configuration that was normalized or saved can still start the local proxy. The listener is
looked at through `as_table_like` and changed through `as_table_mut`; the two differ for an inline table.
-/

namespace TrustTunnel.Gui

open Toml Option

/-! ## Statement -/

/-- A table `listener` without `socks` and with a table `tun`. -/
structure TunOnly (doc : Entries) : Prop where
  listener : doc.outline [Key.listener] = some .table
  socks : ∀ p, doc.outline (Key.listener :: Key.socks :: p) = none
  tun : doc.outline [Key.listener, Key.tun] = some .table

/-- A text that cannot start the proxy and that the startup sweep leaves alone. -/
def Settled {Source : Type} (c : Codec Source) (text : Source) : Prop :=
  ∃ doc, c.parse text = .ok doc ∧ TunOnly doc ∧ normalizeConfigSocksToTun c text = none

/-- An inline listener has to be right already; of any other the tun entry has to be a table if it is
there. -/
def listenerFits : Option Item → Bool
  | some (.table .inline es) => (es.get Key.socks).isNone && (es.get Key.tun).any Item.isTableLike
  | some (.table _ es) => (es.get Key.tun).all Item.isTableLike
  | _ => true

def tunFits (tun : Option Item) : Option Json → Bool
  | some (.object _) => true
  | some v => (jsonScalarToTomlEdit v).isNone && tun.all Item.isTableLike
  | none => tun.all Item.isTableLike

/-- The same for a save, from the listener on disk and that of the payload. -/
def editFits (listener : Option Item) : Option Json → Bool
  | some (.object m) =>
    tunFits ((listener.bind Item.asTable).bind fun p => p.2.get Key.tun) (m.get Key.tun)
  | some v => (jsonScalarToTomlEdit v).isSome || listenerFits listener
  | none => listenerFits listener

/-! ## The listener afterwards -/

theorem kind_eq_table {t : Item} : t.kind = .table ↔ t.isTableLike = true := by
  cases t with
  | table form es => exact ⟨fun _ => rfl, fun _ => rfl⟩
  | _ => exact ⟨fun h => (by cases h), fun h => (by cases h)⟩

variable {doc : Entries} {v : Json}

theorem tunOnly_of_get {form : Form} {es : Entries} (h : doc.get Key.listener = some (.table form es))
    (hseen : (Item.table form es).Seen) :
    TunOnly doc ↔ es.get Key.socks = none ∧ (es.get Key.tun).any Item.isTableLike = true := by
  have hout : ∀ k p, doc.outline (Key.listener :: k :: p) = ((es.get k).bind fun t => t.find p).map Item.kind :=
    fun k p => Entries.outline_of_get (k :: p) h hseen
  constructor
  · rintro ⟨-, hsocks, htun⟩
    constructor
    · have hnil := hsocks []
      rw [hout] at hnil
      cases hs : es.get Key.socks with
      | none => rfl
      | some t =>
        rw [hs] at hnil
        cases hnil
    · rw [hout] at htun
      cases ht : es.get Key.tun with
      | none =>
        rw [ht] at htun
        cases htun
      | some t =>
        rw [ht] at htun
        exact kind_eq_table.mp (Option.some.inj htun)
  · rintro ⟨hsocks, htun⟩
    refine ⟨Entries.outline_of_get [] h hseen, fun p => ?_, ?_⟩
    · rw [hout, hsocks]
      rfl
    rw [hout]
    cases ht : es.get Key.tun with
    | none =>
      rw [ht] at htun
      cases htun
    | some t =>
      rw [ht] at htun
      exact congrArg some (kind_eq_table.mpr htun)

theorem listener_tunOnly_iff {o : Option Item} (hseen : ∀ t, o = some t → t.Seen)
    (h : doc.get Key.listener = some (ensured o)) : TunOnly doc ↔ listenerFits o = true := by
  have hs := ensured_seen hseen
  have hfresh : ensured o = ensured none → TunOnly doc := by
    intro heq
    rw [heq] at h hs
    exact (tunOnly_of_get h hs).mpr ⟨rfl, rfl⟩
  cases o with
  | none => exact ⟨fun _ => rfl, fun _ => hfresh rfl⟩
  | some t =>
    cases t with
    | table form es =>
      have hblock : ensured (some (.table form es)) = ensured (some (.table .header es)) →
          listenerFits (some (.table form es)) = (es.get Key.tun).all Item.isTableLike →
          (TunOnly doc ↔ listenerFits (some (.table form es)) = true) := by
        intro hensured hfits
        rw [hensured] at h hs
        rw [tunOnly_of_get h hs, hfits]
        have hsocks : (es.remove Key.socks).get Key.socks = none := es.get_remove_self Key.socks
        have htun : (es.remove Key.socks).get Key.tun = es.get Key.tun :=
          es.get_remove_other Key.socks (by decide)
        rw [Entries.containsKey, htun]
        cases ht : es.get Key.tun with
        | none =>
          simp only [isSome_none, Bool.false_eq_true, if_false]
          rw [Entries.get_insert_other _ _ _ (by decide), hsocks, Entries.get_insert_self]
          exact ⟨fun _ => rfl, fun _ => ⟨rfl, rfl⟩⟩
        | some t =>
          simp only [isSome_some, if_true]
          rw [hsocks, htun, ht]
          exact ⟨fun hp => hp.2, fun hp => ⟨rfl, hp⟩⟩
      cases form with
      | inline =>
        rw [tunOnly_of_get h hs]
        simp [listenerFits]
      | header | implied => exact hblock rfl rfl
    | _ => exact ⟨fun _ => rfl, fun _ => hfresh rfl⟩

/-! ## A save -/

theorem jsonScalarToTomlEdit_not_tableLike {item : Item} (h : jsonScalarToTomlEdit v = some item) :
    item.isTableLike = false := by
  cases v with
  | null | object m => cases h
  | bool b | string s =>
    cases h
    rfl
  | number n =>
    cases n with
    | integer i =>
      cases h
      rfl
    | other f =>
      obtain ⟨bits, -, rfl⟩ := map_eq_some_iff.mp h
      rfl
  | array items =>
    obtain ⟨list, -, rfl⟩ := map_eq_some_iff.mp h
    rfl

theorem tunFits_mergedEntry (tun : Option Item) (v : Option Json) :
    (v.elim tun (mergedEntry tun)).all Item.isTableLike = tunFits tun v := by
  cases v with
  | none => rfl
  | some v =>
    cases hv : v.asObject with
    | some m =>
      cases v with
      | object m' => rfl
      | _ => cases hv
    | none =>
      have hfits : tunFits tun (some v) = ((jsonScalarToTomlEdit v).isNone && tun.all Item.isTableLike) := by
        cases v with
        | object m => cases hv
        | _ => rfl
      rw [hfits, elim_some, mergedEntry_of_not_object hv]
      cases hitem : jsonScalarToTomlEdit v with
      | none => rfl
      | some item => exact jsonScalarToTomlEdit_not_tableLike hitem

theorem listenerFits_mergedEntry (listener : Option Item) {v : Option Json} (hv : ∀ j, v = some j → j.Distinct) :
    listenerFits (v.elim listener (mergedEntry listener)) = editFits listener v := by
  cases v with
  | none => rfl
  | some v =>
    cases hobj : v.asObject with
    | some m =>
      cases v with
      | object m' =>
        have hm : m'.Distinct := hv _ rfl
        -- a header or dotted table is merged into, anything else is replaced by an empty one
        have hblock : ∀ (form : Form) (es : Entries), form ≠ .inline →
            listenerFits (some (.table form (mergeJsonIntoTable es [] m'))) =
              tunFits (es.get Key.tun) (m'.get Key.tun) := by
          intro form es hform
          rw [← tunFits_mergedEntry, ← get_mergeJsonIntoTable es (List.not_mem_nil) hm]
          cases form with
          | inline => exact absurd rfl hform
          | header | implied => rfl
        cases listener with
        | none => exact hblock .header .nil (by decide)
        | some t =>
          cases t with
          | table form es =>
            cases form with
            | inline => exact hblock .header .nil (by decide)
            | header => exact hblock .header es (by decide)
            | implied => exact hblock .implied es (by decide)
          | _ => exact hblock .header .nil (by decide)
      | _ => cases hobj
    | none =>
      have hfits : editFits listener (some v) = ((jsonScalarToTomlEdit v).isSome || listenerFits listener) := by
        cases v with
        | object m => cases hobj
        | _ => rfl
      rw [hfits, elim_some, mergedEntry_of_not_object hobj]
      cases hitem : jsonScalarToTomlEdit v with
      | none => rfl
      | some item =>
        have hitem' := jsonScalarToTomlEdit_not_tableLike hitem
        cases item with
        | table form es => cases hitem'
        | _ => rfl

theorem Members.Distinct.get {m : Members} (h : m.Distinct) {k : Text} (hk : m.get k = some v) : v.Distinct := by
  induction m with
  | nil => cases hk
  | cons j u rest ih =>
    obtain ⟨-, hu, hrest⟩ := h
    rw [Members.get] at hk
    split at hk
    · cases hk
      exact hu
    · exact ih hrest hk

theorem Payload.member_distinct (config : Payload) {k : Text} (h : config.json.member k = some v) : v.Distinct := by
  obtain ⟨json, hjson⟩ := config
  cases json with
  | object m => exact Members.Distinct.get hjson h
  | _ => cases h

/-! ## Texts -/

theorem not_hasSocks (hseen : doc.Seen) (h : TunOnly doc) : hasSocks doc = false := by
  cases hl : doc.get Key.listener with
  | none => simp [hasSocks, hl]
  | some t =>
    cases t with
    | table form es =>
      obtain ⟨hsocks, -⟩ := (tunOnly_of_get hl (hseen.get hl)).mp h
      simp [hasSocks, hl, Item.asTableLike, Entries.containsKey, hsocks]
    | _ => simp [hasSocks, hl, Item.asTableLike]

section Texts

variable {Source : Type} (c : Codec Source)

variable {doc : Entries}

theorem tunOnly_congr {doc' : Entries} (h : ∀ p, doc'.outline p = doc.outline p) : TunOnly doc' ↔ TunOnly doc := by
  constructor
  · exact fun ⟨hl, hs, ht⟩ => ⟨(h _).symm.trans hl, fun p => (h _).symm.trans (hs p), (h _).symm.trans ht⟩
  · exact fun ⟨hl, hs, ht⟩ => ⟨(h _).trans hl, fun p => (h _).trans (hs p), (h _).trans ht⟩

theorem settled_render (hread : ∃ doc', c.parse (c.render doc) = .ok doc' ∧ ∀ p, doc'.outline p = doc.outline p) :
    Settled c (c.render doc) ↔ TunOnly doc := by
  obtain ⟨doc', hparse, hout⟩ := hread
  constructor
  · rintro ⟨doc'', hparse', h, -⟩
    rw [hparse] at hparse'
    cases hparse'
    exact (tunOnly_congr hout).mp h
  · intro h
    have h' := (tunOnly_congr hout).mpr h
    refine ⟨doc', hparse, h', ?_⟩
    rw [normalizeConfigSocksToTun, hparse]
    simp [not_hasSocks (c.parse_prune hparse) h']

theorem normalize_settled_iff {text : Source} (hparse : c.parse text = .ok doc) (hsocks : hasSocks doc = true) :
    (∀ out, normalizeConfigSocksToTun c text = some out → Settled c out) ↔
      listenerFits (doc.get Key.listener) = true := by
  have hseen : doc.Seen := c.parse_prune hparse
  have hout : normalizeConfigSocksToTun c text = some (c.render (ensureTunListener doc)) := by
    rw [normalizeConfigSocksToTun, hparse]
    simp [hsocks]
  rw [← listener_tunOnly_iff (fun t ht => hseen.get ht) (get_ensureTunListener_self doc),
    ← settled_render c (c.parse_render hparse (.inl rfl))]
  constructor
  · exact fun h => h _ hout
  intro h out heq
  rw [hout] at heq
  cases heq
  exact h

theorem edit_settled_iff {text : Source} (hparse : c.parse text = .ok doc) (config : Payload) :
    (∀ out, applyConfigEdit c text config.json = .ok out → Settled c out) ↔
      editFits (doc.get Key.listener) (config.json.member Key.listener) = true := by
  have hseen : (merged doc config.json).Seen := seen_merged (c.parse_prune hparse) config.json
  have hout : applyConfigEdit c text config.json = .ok (c.render (edited doc config.json)) := by
    rw [applyConfigEdit, hparse]
  rw [← listenerFits_mergedEntry _ (fun j hj => config.member_distinct hj), ← get_merged doc config (by decide),
    ← listener_tunOnly_iff (fun t ht => hseen.get ht) (get_edited_listener doc config.json),
    ← settled_render c (c.parse_render hparse (.inr ⟨_, rfl⟩))]
  constructor
  · exact fun h => h _ hout
  intro h out heq
  rw [hout] at heq
  cases heq
  exact h

/-- A normalized or a saved text is tun only, and left alone by the next normalization, exactly when the
listener it was made from fits. -/
theorem tunOnly_iff (text : Source) (config : Payload) :
    ((∀ out, normalizeConfigSocksToTun c text = some out → Settled c out) ↔
      ∀ doc, c.parse text = .ok doc → hasSocks doc = true → listenerFits (doc.get Key.listener) = true) ∧
    ((∀ out, applyConfigEdit c text config.json = .ok out → Settled c out) ↔ ∀ doc, c.parse text = .ok doc →
        editFits (doc.get Key.listener) (config.json.member Key.listener) = true) := by
  cases hparse : c.parse text with
  | error e =>
    have hnone : normalizeConfigSocksToTun c text = none := by rw [normalizeConfigSocksToTun, hparse]
    have herror : applyConfigEdit c text config.json = .error ("Failed to parse existing config: " ++ e) := by
      rw [applyConfigEdit, hparse]
    rw [hnone, herror]
    exact ⟨⟨fun _ doc h => (by cases h), fun _ out h => (by cases h)⟩,
      ⟨fun _ doc h => (by cases h), fun _ out h => (by cases h)⟩⟩
  | ok doc =>
    constructor
    · by_cases hsocks : hasSocks doc = true
      · rw [normalize_settled_iff c hparse hsocks]
        constructor
        · intro h doc' hdoc _
          cases hdoc
          exact h
        · exact fun h => h doc rfl hsocks
      · have hnone : normalizeConfigSocksToTun c text = none := by
          rw [normalizeConfigSocksToTun, hparse]
          simp [hsocks]
        rw [hnone]
        constructor
        · intro _ doc' hdoc hsocks'
          cases hdoc
          exact absurd hsocks' hsocks
        · exact fun _ out h => (by cases h)
    · rw [edit_settled_iff c hparse config]
      constructor
      · intro h doc' hdoc
        cases hdoc
        exact h
      · exact fun h => h doc rfl

end Texts

/-- `listener = { socks = { address = "127.0.0.1:1080" } }` -/
def inlineSocks : Entries :=
  .cons Key.listener
    (.table .inline (.cons Key.socks (.table .inline (.cons "address" (.string "127.0.0.1:1080") .nil)) .nil)) .nil

/-- `{ "listener": { "tun": 5 } }` -/
def scalarTun : Json :=
  .object (.cons Key.listener (.object (.cons Key.tun (.number (.integer 5)) .nil)) .nil)

theorem not_settled_of_outline {p : List Text}
    (h : doc.outline (Key.listener :: Key.socks :: p) ≠ none ∨
      doc.outline [Key.listener, Key.tun] ≠ some .table) :
    ¬ Settled Codec.direct (some doc) := by
  intro hsettled
  obtain ⟨-, hsocks, htun⟩ := (settled_render Codec.direct ⟨doc.prune, rfl, doc.outline_prune⟩).mp hsettled
  rcases h with h | h
  · exact h (hsocks p)
  · exact h htun

/-- An inline listener is written back with its proxy, at every start again; a save keeps it, and writes a
`tun` that is no table. -/
theorem inline_socks_stays : normalizeConfigSocksToTun Codec.direct (some inlineSocks) = some (some inlineSocks) ∧
    ¬ Settled Codec.direct (some inlineSocks) ∧
    (∃ out, applyConfigEdit Codec.direct (some inlineSocks) (.object .nil) = .ok out ∧
      ¬ Settled Codec.direct out) ∧
    (∃ out, applyConfigEdit Codec.direct (some .nil) scalarTun = .ok out ∧ ¬ Settled Codec.direct out) := by
  refine ⟨rfl, not_settled_of_outline (p := []) (.inl ?_), ⟨_, rfl, ?_⟩, ⟨_, rfl, ?_⟩⟩
  · exact fun h => by cases h
  · exact not_settled_of_outline (p := []) (.inl fun h => by cases h)
  · exact not_settled_of_outline (p := []) (.inr fun h => by cases h)

end TrustTunnel.Gui
