import Mathlib.Data.List.Basic

/-!
# Gui.Toml

Configuration documents, as `toml_edit` keeps them in memory: a tree that remembers how each table was
written, because `is_table` and `as_table_mut` accept fewer spellings than `as_table_like`. Reading and
printing texts is the crate's own business; what is used of it is the structure `Codec`.
-/

namespace TrustTunnel.Gui

abbrev Text := List Char

instance : Coe String Text := ⟨String.toList⟩

namespace Toml

inductive Scalar where
  | string (s : Text)
  | integer (i : Int)
  | float (bits : UInt64)
  | boolean (b : Bool)
  | datetime (s : Text)

inductive Form where
  /-- `[table]` -/
  | header
  /-- through a header or a dotted key below it; once nothing is in it, it is not written at all -/
  | implied
  /-- `{ … }` -/
  | inline
  deriving DecidableEq

mutual

inductive Item where
  | scalar (s : Scalar)
  | array (items : List Item)
  | table (form : Form) (entries : Entries)
  /-- `[[table]]` -/
  | tables (elements : List Entries)

/-- The entries of a table; of a key that stands twice the first entry counts. -/
inductive Entries where
  | nil
  | cons (key : Text) (item : Item) (rest : Entries)

end

namespace Item

def string (s : Text) : Item := .scalar (.string s)

def integer (i : Int) : Item := .scalar (.integer i)

def boolean (b : Bool) : Item := .scalar (.boolean b)

def asTableLike : Item → Option Entries
  | .table _ es => some es
  | _ => none

def isTableLike (t : Item) : Bool := t.asTableLike.isSome

/-- `as_table`, `as_table_mut`: an inline table is a value, not a table. -/
def asTable : Item → Option (Form × Entries)
  | .table .inline _ => none
  | .table form es => some (form, es)
  | _ => none

def isTable (t : Item) : Bool := t.asTable.isSome

def asArray : Item → Option (List Item)
  | .array items => some items
  | _ => none

def asInteger : Item → Option Int
  | .scalar (.integer i) => some i
  | _ => none

def asStr : Item → Option Text
  | .scalar (.string s) => some s
  | _ => none

end Item

namespace Entries

def get (k : Text) : Entries → Option Item
  | nil => none
  | cons j t es => if j = k then some t else es.get k

/-- In the place of the old entry, or at the end. -/
def insert (k : Text) (t : Item) : Entries → Entries
  | nil => cons k t nil
  | cons j u es => if j = k then cons j t es else cons j u (es.insert k t)

def remove (k : Text) : Entries → Entries
  | nil => nil
  | cons j t es => if j = k then es.remove k else cons j t (es.remove k)

def containsKey (k : Text) (es : Entries) : Bool := (es.get k).isSome

/-- `if let Some(t) = doc.get_mut(k).and_then(|i| i.as_table_mut()) { … }` -/
def updateTable (k : Text) (f : Form → Entries → Item) (es : Entries) : Entries :=
  match (es.get k).bind Item.asTable with
  | some (form, sub) => es.insert k (f form sub)
  | none => es

@[induction_eliminator]
theorem induction {motive : Entries → Prop} (nil : motive .nil)
    (cons : ∀ k t es, motive es → motive (.cons k t es)) : ∀ es, motive es
  | .nil => nil
  | .cons k t es => cons k t es (induction nil cons es)

section Get

variable (es : Entries) (k : Text) {j : Text} (t : Item)

@[simp]
theorem get_insert_self : (es.insert k t).get k = some t := by
  induction es with
  | nil => simp [insert, get]
  | cons j u es ih =>
    rw [insert]
    split_ifs with h
    · simp [get, h]
    · simp [get, h, ih]

@[simp]
theorem get_insert_other (h : j ≠ k) : (es.insert k t).get j = es.get j := by
  induction es with
  | nil => simp [insert, get, Ne.symm h]
  | cons i u es ih =>
    rw [insert]
    split_ifs with hi
    · simp [get, hi, Ne.symm h]
    · simp [get, ih]

@[simp]
theorem get_remove_self : (es.remove k).get k = none := by
  induction es with
  | nil => rfl
  | cons j u es ih =>
    rw [remove]
    split_ifs with h
    · exact ih
    · simp [get, h, ih]

@[simp]
theorem get_remove_other (h : j ≠ k) : (es.remove k).get j = es.get j := by
  induction es with
  | nil => rfl
  | cons i u es ih =>
    rw [remove]
    split_ifs with hi
    · rw [ih, get, if_neg (fun hij => h (hij.symm.trans hi))]
    · simp [get, ih]

theorem get_updateTable_self (f : Form → Entries → Item) : (es.updateTable k f).get k =
      (es.get k).map fun t => (t.asTable.map fun p => f p.1 p.2).getD t := by
  rw [updateTable]
  cases hk : es.get k with
  | none => simpa using hk
  | some t =>
    cases ht : t.asTable with
    | none => simp [ht, hk]
    | some p => simp [ht]

@[simp]
theorem get_updateTable_other (f : Form → Entries → Item)
    (h : j ≠ k) : (es.updateTable k f).get j = es.get j := by
  rw [updateTable]
  split
  · rw [get_insert_other _ _ _ h]
  · rfl

end Get

theorem remove_comm (es : Entries) (j k : Text) : (es.remove j).remove k = (es.remove k).remove j := by
  induction es with
  | nil => rfl
  | cons i t es ih =>
    by_cases hj : i = j
    · by_cases hk : i = k
      · simp [remove, if_pos hj, if_pos hk, ih]
      · simp [remove, if_pos hj, if_neg hk, ih]
    · by_cases hk : i = k
      · simp [remove, if_neg hj, if_pos hk, ih]
      · simp [remove, if_neg hj, if_neg hk, ih]

theorem remove_remove (es : Entries) (k : Text) : (es.remove k).remove k = es.remove k := by
  induction es with
  | nil => rfl
  | cons i t es ih =>
    by_cases hk : i = k
    · simp [remove, if_pos hk, ih]
    · simp [remove, if_neg hk, ih]

end Entries

/-! ## Printing -/

def Item.unseen : Item → Bool
  | .table .implied .nil => true
  | _ => false

mutual

def Item.prune : Item → Item
  | .table form es => .table form es.prune
  | t => t

def Entries.prune : Entries → Entries
  | .nil => .nil
  | .cons k t es => if t.prune.unseen then es.prune.remove k else .cons k t.prune es.prune

end

def Item.printed (t : Item) : Option Item := if t.prune.unseen then none else some t.prune

theorem Item.unseen_iff {t : Item} : t.unseen = true ↔ t = .table .implied .nil := by
  constructor
  · intro h
    unfold Item.unseen at h
    split at h
    · rfl
    · cases h
  · rintro rfl
    rfl

namespace Entries

theorem get_prune (es : Entries) (k : Text) : es.prune.get k = (es.get k).bind Item.printed := by
  induction es with
  | nil => rfl
  | cons j t es ih =>
    rw [prune, get]
    by_cases hj : j = k
    · subst hj
      by_cases ht : t.prune.unseen = true
      · simp [Item.printed, ht]
      · simp [Item.printed, ht, get]
    · by_cases ht : t.prune.unseen = true
      · simp [ht, hj, ih, Ne.symm hj]
      · simp [ht, hj, ih, get]

theorem prune_remove (es : Entries) (k : Text) : (es.remove k).prune = es.prune.remove k := by
  induction es with
  | nil => rfl
  | cons j t es ih =>
    by_cases hj : j = k
    · subst hj
      by_cases ht : t.prune.unseen = true
      · simp [remove, prune, ht, ih, remove_remove]
      · simp [remove, prune, ht, ih]
    · by_cases ht : t.prune.unseen = true
      · simp [remove, prune, hj, ht, ih, remove_comm es.prune j k]
      · simp [remove, prune, hj, ht, ih]

end Entries

mutual

theorem Item.prune_prune : ∀ t : Item, t.prune.prune = t.prune
  | .table form es => congrArg (Item.table form) es.prune_prune
  | .scalar _ => rfl
  | .array _ => rfl
  | .tables _ => rfl

theorem Entries.prune_prune : ∀ es : Entries, es.prune.prune = es.prune
  | .nil => rfl
  | .cons k t es => by
    by_cases ht : t.prune.unseen = true
    · simp only [Entries.prune, ht, if_true]
      rw [Entries.prune_remove, es.prune_prune]
    · simp only [Entries.prune, ht]
      simp [Entries.prune, t.prune_prune, es.prune_prune, ht]

end

/-- Nothing in it would be lost by printing. -/
def Entries.Seen (es : Entries) : Prop := es.prune = es

def Item.Seen (t : Item) : Prop := t.prune = t ∧ t.unseen = false

theorem Item.Seen.printed {t : Item} (h : t.Seen) : t.printed = some t := by
  rw [Item.printed, h.1, h.2]
  rfl

theorem Item.seen_table {form : Form} {es : Entries} :
    (Item.table form es).Seen ↔ es.Seen ∧ (form = .implied → es ≠ .nil) := by
  constructor
  · rintro ⟨hprune, hseen⟩
    refine ⟨(Item.table.inj hprune).2, ?_⟩
    rintro rfl rfl
    cases hseen
  · rintro ⟨hes, hnil⟩
    refine ⟨congrArg (Item.table form) hes, ?_⟩
    rw [← Bool.not_eq_true, Item.unseen_iff]
    intro heq
    cases heq
    exact hnil rfl rfl

namespace Entries

theorem seen_cons {k : Text} {t : Item} {es : Entries} : (cons k t es).Seen ↔ t.Seen ∧ es.Seen := by
  constructor
  · intro h
    rw [Seen, prune] at h
    split_ifs at h with ht
    · have hk := congrArg (get k) h
      rw [get_remove_self, get, if_pos rfl] at hk
      cases hk
    · obtain ⟨-, htprune, hes⟩ := cons.inj h
      rw [htprune] at ht
      exact ⟨⟨htprune, Bool.not_eq_true _ ▸ ht⟩, hes⟩
  · rintro ⟨⟨htprune, ht⟩, hes⟩
    rw [Seen, prune, htprune, ht, hes]
    rfl

variable {es : Entries} {k : Text} {t : Item}

theorem Seen.get (h : es.Seen) (hk : es.get k = some t) : t.Seen := by
  induction es with
  | nil => cases hk
  | cons j u es ih =>
    obtain ⟨hu, hes⟩ := seen_cons.mp h
    rw [Entries.get] at hk
    split at hk
    · cases hk
      exact hu
    · exact ih hes hk

theorem Seen.insert (h : es.Seen) (ht : t.Seen) : (es.insert k t).Seen := by
  induction es with
  | nil => exact seen_cons.mpr ⟨ht, rfl⟩
  | cons j u es ih =>
    obtain ⟨hu, hes⟩ := seen_cons.mp h
    rw [Entries.insert]
    split
    · exact seen_cons.mpr ⟨ht, hes⟩
    · exact seen_cons.mpr ⟨hu, ih hes⟩

theorem Seen.remove (h : es.Seen) : (es.remove k).Seen := by
  rw [Seen, prune_remove, h]

theorem insert_ne_nil : es.insert k t ≠ nil := by
  cases es with
  | nil => exact fun h => by cases h
  | cons j u es =>
    rw [Entries.insert]
    split <;> exact fun h => by cases h

theorem updateTable_ne_nil {f : Form → Entries → Item} (h : es ≠ nil) : es.updateTable k f ≠ nil := by
  rw [updateTable]
  split
  · exact insert_ne_nil
  · exact h

theorem ne_nil_of_get (h : es.get k = some t) : es ≠ nil := by
  rintro rfl
  cases h

theorem Seen.updateTable {f : Form → Entries → Item} (h : es.Seen)
    (hf : ∀ form sub, (Item.table form sub).Seen → (f form sub).Seen) : (es.updateTable k f).Seen := by
  rw [Entries.updateTable]
  split
  · rename_i form sub hk
    obtain ⟨t, ht, htable⟩ := Option.bind_eq_some_iff.mp hk
    refine h.insert (hf form sub ?_)
    have hseen := h.get ht
    cases t with
    | table form' es' =>
      cases form' with
      | inline => cases htable
      | header | implied =>
        cases htable
        exact hseen
    | _ => cases htable
  · exact h

end Entries

/-! ## Paths -/

/-- What stands at a path: a table of any spelling, or something that is none. -/
inductive Kind where
  | leaf (t : Item)
  | table

def Item.kind : Item → Kind
  | .table _ _ => .table
  | t => .leaf t

def Item.find : Item → List Text → Option Item
  | t, [] => some t
  | t, k :: p => (t.asTableLike.bind (Entries.get k)).bind fun u => u.find p

namespace Entries

def find (es : Entries) (p : List Text) : Option Item := (Item.table .header es).find p

def outline (es : Entries) (p : List Text) : Option Kind := (es.prune.find p).map Item.kind

theorem find_cons (es : Entries) (k : Text) (p : List Text) : es.find (k :: p) = (es.get k).bind fun t =>
    t.find p := rfl

end Entries

theorem Entries.outline_of_get {es : Entries} {k : Text} {t : Item} (p : List Text) (h : es.get k = some t)
    (ht : t.Seen) : es.outline (k :: p) = (t.find p).map Item.kind := by
  rw [outline, find_cons, get_prune, h, Option.bind_some, ht.printed, Option.bind_some]

end Toml
end TrustTunnel.Gui
