import TrustTunnel.Gui.Toml

/-!
# Gui.ConfigEdit

Saving an edited configuration and the removal of the SOCKS listener (`merge_json_into_table`,
`ensure_tun_listener`, `normalize_config_socks_to_tun` and `apply_config_edit` in `config.rs`).
-/

namespace TrustTunnel.Gui

open Toml Option

/-! ## Payloads -/

namespace Json

/-- A number is an `i64`, or what it is as an `f64`. -/
inductive Number where
  | integer (i : Int)
  | other (asF64 : Option UInt64)

end Json

mutual

inductive Json where
  | null
  | bool (b : Bool)
  | number (n : Json.Number)
  | string (s : Text)
  | array (items : List Json)
  | object (members : Members)

inductive Members where
  | nil
  | cons (key : Text) (value : Json) (rest : Members)

end

def Members.get (k : Text) : Members → Option Json
  | .nil => none
  | .cons j v rest => if j = k then some v else rest.get k

mutual

def Json.Distinct : Json → Prop
  | .object m => m.Distinct
  | _ => True

def Members.Distinct : Members → Prop
  | .nil => True
  | .cons k v rest => rest.get k = none ∧ v.Distinct ∧ rest.Distinct

end

def Json.asObject : Json → Option Members
  | .object m => some m
  | _ => none

structure Payload where
  json : Json
  distinct : json.Distinct

/-! ## Code -/

namespace Key

def listener : Text := "listener"

def socks : Text := "socks"

def tun : Text := "tun"

def endpoint : Text := "endpoint"

def name : Text := "name"

def customSni : Text := "custom_sni"

def killswitchAllowPorts : Text := "killswitch_allow_ports"

end Key


def jsonElementToTomlEdit : Json → Option Item
  | .bool b => some (.boolean b)
  | .number (.integer i) => some (.integer i)
  | .number (.other f) => f.map fun bits => .scalar (.float bits)
  | .string s => some (.string s)
  | _ => none

def jsonScalarToTomlEdit : Json → Option Item
  | .null => none
  | .object _ => none
  | .array items => (items.mapM jsonElementToTomlEdit).map .array
  | v => jsonElementToTomlEdit v

mutual

def mergeJsonIntoTable (table : Entries) (skipKeys : List Text) : Members → Entries
  | .nil => table
  | .cons k v rest =>
    mergeJsonIntoTable (if k ∈ skipKeys then table else mergeMember table k v) skipKeys rest

def mergeMember (table : Entries) (k : Text) : Json → Entries
  | .object child =>
    (if (table.get k).any Item.isTable then table else table.insert k (.table .header .nil)).updateTable k
      fun form sub => .table form (mergeJsonIntoTable sub [] child)
  | .null => table
  | v => (jsonScalarToTomlEdit v).elim table fun item => table.insert k item

end

def defaultTunTable : Entries :=
  (((Entries.nil.insert "mtu_size" (.integer 1350)).insert "change_system_dns" (.boolean true)).insert
    "included_routes" (.array [.string "0.0.0.0/0", .string "::/1", .string "8000::/1"])).insert
    "excluded_routes" (.array [.string "::1/128", .string "fe80::/10", .string "ff00::/8", .string "fc00::/7"])

open Key

def ensureTunListener (doc : Entries) : Entries :=
  let doc :=
    if ((doc.get listener).bind Item.asTableLike).isNone then doc.insert listener (.table .header .nil)
    else doc
  doc.updateTable listener fun _ listener =>
    let listener := listener.remove socks
    .table .implied
      (if listener.containsKey tun then listener else listener.insert tun (.table .header defaultTunTable))

def hasSocks (doc : Entries) : Bool :=
  (((doc.get listener).bind Item.asTableLike).map fun t => t.containsKey socks).getD false

/-- Routing-managed keys belong to RoutingPanel. -/
def routingManaged : List Text :=
  ["exclusions", "exclusions_file", "blocked_file", "process_direct_file", "process_proxy_file",
    "process_block_file", "vpn_mode"]

/-- The ports that are in the list, and the DHCP ports. -/
def allowPorts (ports : Option Item) : List Int :=
  let ports := ((ports.bind Item.asArray).map fun a => a.filterMap Item.asInteger).getD []
  [67, 68].foldl (fun l p => if p ∈ l then l else l ++ [p]) ports

def ensureAllowPorts (doc : Entries) : Entries :=
  doc.insert killswitchAllowPorts (.array ((allowPorts (doc.get killswitchAllowPorts)).map Item.integer))

def withoutEmpty (key : Text) (table : Entries) : Entries :=
  if (table.get key).bind Item.asStr = some [] then table.remove key else table

def removeEmpty (key : Text) (doc : Entries) : Entries :=
  doc.updateTable endpoint fun form endpoint => .table form (withoutEmpty key endpoint)

def edited (doc : Entries) (config : Json) : Entries :=
  let doc := (config.asObject.map (mergeJsonIntoTable doc routingManaged)).getD doc
  removeEmpty name (removeEmpty customSni (ensureAllowPorts (ensureTunListener doc)))

/-- Reading and printing documents: `parse` and `to_string` of the crate. A document that was read has no
tables that would not be printed, and what the edits make of it is read back as it was printed. -/
structure Toml.Codec (Source : Type) where
  parse : Source → Except String Entries
  render : Entries → Source
  parse_prune : ∀ {text d}, parse text = .ok d → d.prune = d
  parse_render : ∀ {text d d'}, parse text = .ok d → d' = ensureTunListener d ∨ (∃ config, d' = edited d config) →
    ∃ d'', parse (render d') = .ok d'' ∧ ∀ p, d''.outline p = d'.outline p

theorem Toml.Entries.outline_prune (d : Entries) (p : List Text) : d.prune.outline p = d.outline p := by
  rw [outline, outline, d.prune_prune]

def Toml.Codec.direct : Codec (Option Entries) where
  parse
    | none => .error "expected a document"
    | some d => .ok d.prune
  render d := some d
  parse_prune := by
    intro text d h
    cases text with
    | none => cases h
    | some d' =>
      cases h
      exact d'.prune_prune
  parse_render {_ _ d'} _ _ := ⟨d'.prune, rfl, d'.outline_prune⟩

section Texts

variable {Source : Type} (c : Codec Source)

def normalizeConfigSocksToTun (text : Source) : Option Source :=
  match c.parse text with
  | .error _ => none
  | .ok doc => if hasSocks doc then some (c.render (ensureTunListener doc)) else none

def applyConfigEdit (existing : Source) (config : Json) : Except String Source :=
  match c.parse existing with
  | .error e => .error ("Failed to parse existing config: " ++ e)
  | .ok doc => .ok (c.render (edited doc config))

end Texts

/-! ## The merge, key by key -/

def mergedEntry (old : Option Item) : Json → Option Item
  | .object child =>
    let table := (old.bind Item.asTable).getD (.header, .nil)
    some (.table table.1 (mergeJsonIntoTable table.2 [] child))
  | v => (jsonScalarToTomlEdit v).or old

variable {v : Json} {k : Text}

theorem mergedEntry_of_not_object (h : v.asObject = none) (old : Option Item) :
    mergedEntry old v = (jsonScalarToTomlEdit v).or old := by
  cases v with
  | object child => cases h
  | _ => rfl

theorem mergeMember_of_not_object (h : v.asObject = none) (table : Entries) :
    mergeMember table k v = (jsonScalarToTomlEdit v).elim table fun item => table.insert k item := by
  cases v with
  | object child => cases h
  | _ => rfl

variable (key : Text) (table : Entries) (doc : Entries)

theorem get_mergeMember_other {j : Text} (v : Json) (h : j ≠ k) : (mergeMember table k v).get j = table.get j := by
  cases hv : v.asObject with
  | some child =>
    cases v with
    | object child =>
      rw [mergeMember, Entries.get_updateTable_other _ _ _ h]
      split
      · rfl
      · exact table.get_insert_other k _ h
    | _ => cases hv
  | none =>
    rw [mergeMember_of_not_object hv]
    cases jsonScalarToTomlEdit v with
    | none => rfl
    | some item => exact table.get_insert_other k item h

theorem get_mergeMember_self (k : Text) (v : Json) : (mergeMember table k v).get k = mergedEntry (table.get k) v := by
  cases hv : v.asObject with
  | some child =>
    cases v with
    | object child =>
      rw [mergeMember, Entries.get_updateTable_self, mergedEntry]
      cases hk : (table.get k).bind Item.asTable with
      | some p =>
        obtain ⟨t, ht, hp⟩ := bind_eq_some_iff.mp hk
        simp [ht, hp, Item.isTable]
      | none =>
        have hnot : (table.get k).any Item.isTable = false := by
          cases ht : table.get k with
          | none => rfl
          | some t =>
            rw [ht] at hk
            simpa [Item.isTable] using hk
        simp [hnot, Item.asTable]
    | _ => cases hv
  | none =>
    rw [mergeMember_of_not_object hv, mergedEntry_of_not_object hv]
    cases jsonScalarToTomlEdit v with
    | none => rfl
    | some item => exact table.get_insert_self k item

@[induction_eliminator]
theorem Members.induction {motive : Members → Prop} (nil : motive .nil)
    (cons : ∀ k v rest, motive rest → motive (.cons k v rest)) : ∀ m, motive m
  | .nil => nil
  | .cons k v rest => cons k v rest (induction nil cons rest)

theorem get_mergeJsonIntoTable {skipKeys : List Text} (h : k ∉ skipKeys) {m : Members} (hm : m.Distinct) :
    (mergeJsonIntoTable table skipKeys m).get k = (m.get k).elim (table.get k) (mergedEntry (table.get k)) := by
  induction m generalizing table with
  | nil => rfl
  | cons j v rest ih =>
    obtain ⟨hj, -, hrest⟩ := hm
    rw [mergeJsonIntoTable, ih _ hrest, Members.get]
    by_cases hjk : j = k
    · subst hjk
      rw [hj, if_neg h, if_pos rfl]
      exact get_mergeMember_self table j v
    · have hsame : (if j ∈ skipKeys then table else mergeMember table j v).get k = table.get k := by
        split
        · rfl
        · exact get_mergeMember_other table v (Ne.symm hjk)
      rw [hsame, if_neg hjk]

/-! ## Nothing is lost in printing -/

theorem mergeMember_ne_nil {table : Entries} (h : table ≠ .nil) (k : Text) (v : Json) :
    mergeMember table k v ≠ .nil := by
  cases hv : v.asObject with
  | some child =>
    cases v with
    | object child =>
      refine Entries.updateTable_ne_nil ?_
      split
      · exact h
      · exact Entries.insert_ne_nil
    | _ => cases hv
  | none =>
    rw [mergeMember_of_not_object hv]
    cases jsonScalarToTomlEdit v with
    | none => exact h
    | some item => exact Entries.insert_ne_nil

theorem mergeJsonIntoTable_ne_nil {table : Entries} (h : table ≠ .nil) (skipKeys : List Text) (m : Members) :
    mergeJsonIntoTable table skipKeys m ≠ .nil := by
  induction m generalizing table with
  | nil => exact h
  | cons k v rest ih =>
    refine ih ?_
    split
    · exact h
    · exact mergeMember_ne_nil h k v

theorem jsonElementToTomlEdit_seen {item : Item} (h : jsonElementToTomlEdit v = some item) : item.Seen := by
  unfold jsonElementToTomlEdit at h
  split at h
  · cases h
    exact ⟨rfl, rfl⟩
  · cases h
    exact ⟨rfl, rfl⟩
  · obtain ⟨bits, -, rfl⟩ := map_eq_some_iff.mp h
    exact ⟨rfl, rfl⟩
  · cases h
    exact ⟨rfl, rfl⟩
  · cases h

theorem jsonScalarToTomlEdit_seen {item : Item} (h : jsonScalarToTomlEdit v = some item) : item.Seen := by
  unfold jsonScalarToTomlEdit at h
  split at h
  · cases h
  · cases h
  · obtain ⟨items, -, rfl⟩ := map_eq_some_iff.mp h
    exact ⟨rfl, rfl⟩
  · exact jsonElementToTomlEdit_seen h

theorem seen_header : (Item.table .header .nil).Seen := ⟨rfl, rfl⟩

mutual

theorem seen_mergeJsonIntoTable {table : Entries} (h : table.Seen) (skipKeys : List Text) :
    ∀ m : Members, (mergeJsonIntoTable table skipKeys m).Seen
  | .nil => h
  | .cons k v rest => by
    rw [mergeJsonIntoTable]
    refine seen_mergeJsonIntoTable ?_ skipKeys rest
    split
    · exact h
    · exact seen_mergeMember h k v

theorem seen_mergeMember {table : Entries} (h : table.Seen) (k : Text) : ∀ v : Json, (mergeMember table k v).Seen
  | .object child => by
    rw [mergeMember]
    refine Entries.Seen.updateTable ?_ fun form sub hsub => ?_
    · split
      · exact h
      · exact h.insert seen_header
    · obtain ⟨hes, hnil⟩ := Item.seen_table.mp hsub
      exact Item.seen_table.mpr
        ⟨seen_mergeJsonIntoTable hes [] child, fun hform => mergeJsonIntoTable_ne_nil (hnil hform) [] child⟩
  | .null => h
  | .bool b => h.insert ⟨rfl, rfl⟩
  | .number n => by
    rw [mergeMember_of_not_object rfl]
    cases hn : jsonScalarToTomlEdit (.number n) with
    | none => exact h
    | some item => exact h.insert (jsonScalarToTomlEdit_seen hn)
  | .string s => h.insert ⟨rfl, rfl⟩
  | .array items => by
    rw [mergeMember_of_not_object rfl]
    cases ha : jsonScalarToTomlEdit (.array items) with
    | none => exact h
    | some item => exact h.insert (jsonScalarToTomlEdit_seen ha)

end

theorem seen_defaultTunTable : defaultTunTable.Seen := rfl

def ensured : Option Item → Item
  | some (.table .inline es) => .table .inline es
  | some (.table _ es) =>
    .table .implied (if (es.remove socks).containsKey tun then es.remove socks
        else (es.remove socks).insert tun (.table .header defaultTunTable))
  | _ => .table .implied (Entries.nil.insert tun (.table .header defaultTunTable))

theorem get_ensureTunListener_self :
    (ensureTunListener doc).get listener = some (ensured (doc.get listener)) := by
  rw [ensureTunListener, Entries.get_updateTable_self]
  cases hl : doc.get listener with
  | none => simp [Item.asTable, ensured, Entries.remove, Entries.containsKey, Entries.get]
  | some t =>
    cases t with
    | table form es =>
      cases form with
      | inline | header | implied => simp [Item.asTableLike, Item.asTable, ensured, hl]
    | _ => simp [Item.asTableLike, Item.asTable, ensured, Entries.remove, Entries.containsKey, Entries.get]

theorem ensured_seen {o : Option Item} (h : ∀ t, o = some t → t.Seen) : (ensured o).Seen := by
  have hfresh : (ensured none).Seen := ⟨rfl, rfl⟩
  cases o with
  | none => exact hfresh
  | some t =>
    have hblock : ∀ es : Entries, es.Seen → (ensured (some (.table .header es))).Seen := by
      intro es hes
      refine Item.seen_table.mpr ?_
      split_ifs with htun
      · refine ⟨hes.remove, fun _ => ?_⟩
        obtain ⟨tun, ht⟩ := isSome_iff_exists.mp htun
        exact Entries.ne_nil_of_get ht
      · exact ⟨hes.remove.insert (Item.seen_table.mpr ⟨seen_defaultTunTable, fun h => (by cases h)⟩),
          fun _ => Entries.insert_ne_nil⟩
    cases t with
    | table form es =>
      cases form with
      | inline => exact h _ rfl
      | header | implied => exact hblock es (Item.seen_table.mp (h _ rfl)).1
    | _ => exact hfresh

/-! ## A save, key by key -/

def merged (doc : Entries) (config : Json) : Entries :=
  (config.asObject.map (mergeJsonIntoTable doc routingManaged)).getD doc

theorem seen_merged {doc : Entries} (h : doc.Seen) (config : Json) : (merged doc config).Seen := by
  rw [merged]
  cases config.asObject with
  | none => exact h
  | some m => exact seen_mergeJsonIntoTable h routingManaged m

def Json.member (k : Text) (v : Json) : Option Json := v.asObject.bind (Members.get k)

theorem get_merged (config : Payload) (h : k ∉ routingManaged) :
    (merged doc config.json).get k = (config.json.member k).elim (doc.get k) (mergedEntry (doc.get k)) := by
  obtain ⟨v, hv⟩ := config
  cases hobj : v.asObject with
  | none => simp [merged, Json.member, hobj]
  | some m =>
    have hm : m.Distinct := by
      cases v with
      | object m' =>
        cases hobj
        exact hv
      | _ => cases hobj
    simp only [merged, Json.member, hobj]
    exact get_mergeJsonIntoTable doc h hm

theorem get_removeEmpty_other (h : k ≠ endpoint) : (removeEmpty key doc).get k = doc.get k :=
  doc.get_updateTable_other _ _ h

section Edited

variable (doc : Entries) (config : Json)

theorem edited_eq : edited doc config = removeEmpty name (removeEmpty customSni
      (ensureAllowPorts (ensureTunListener (merged doc config)))) := rfl

theorem get_edited_listener :
    (edited doc config).get listener = some (ensured ((merged doc config).get listener)) := by
  rw [edited_eq, get_removeEmpty_other _ _ (by decide), get_removeEmpty_other _ _ (by decide),
    ensureAllowPorts, Entries.get_insert_other _ _ _ (by decide), get_ensureTunListener_self]

end Edited

end TrustTunnel.Gui
