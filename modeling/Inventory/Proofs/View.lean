import Inventory.Proofs.Naming
import Inventory.Proofs.Rows

/-!
# What readers see

Readers see categories and entries, not rows. The view of sound tables is these two lists, and all
lookups are lookups in them.
-/

namespace Inventory

/-! ## Views -/

/-- What readers see: the categories in order of definition and the entries in order of insertion. -/
structure View where
  categories : List Category
  entries : List Entry

/-- An entry with one more field, which is null. -/
def Entry.withNull (e : Entry) (name : String) : Entry :=
  { e with fields := e.fields ++ [(name, .null)] }

namespace View

/-- The category with an id in any case. -/
def resolve (v : View) (id : String) : Except Fault Category :=
  match v.categories.find? (·.id == Text.lower id) with
  | some c => .ok c
  | none => .error (.categoryNotFound id)

def find (v : View) (key : String) : Except Fault Entry :=
  match v.entries.find? (·.key == key) with
  | some e => .ok e
  | none => .error (.entryNotFound key)

/-- The entries of a category. -/
def list (v : View) (id : String) : Except Fault (List Entry) :=
  (v.resolve id).map fun c => v.entries.filter (·.category == c.id)

/-- An entry in the place of the one with its key. -/
def replace (v : View) (e : Entry) : View :=
  { v with entries := v.entries.map fun other => if other.key = e.key then e else other }

/-- One more field of a category, which is null in all its entries. -/
def withField (v : View) (id : String) (f : FieldDef) : View where
  categories := v.categories.map fun c => if c.id = id then c.withField f else c
  entries := v.entries.map fun e => if e.category = id then e.withNull f.name else e

end View

namespace View

variable {v : View}

theorem mem_of_find {key : String} {e : Entry} (h : v.find key = .ok e) :
    e ∈ v.entries ∧ e.key = key := by
  unfold find at h
  split at h
  · next x hx =>
      cases h
      exact ⟨List.mem_of_find?_eq_some hx, by simpa using List.find?_some hx⟩
  · cases h

theorem mem_replace {e e' : Entry} (h : e' ∈ (v.replace e).entries) :
    e' = e ∨ e' ∈ v.entries ∧ e'.key ≠ e.key := by
  obtain ⟨x, hx, rfl⟩ := List.mem_map.1 h
  by_cases hkey : x.key = e.key
  · exact .inl (if_pos hkey)
  · rw [if_neg hkey]
    exact .inr ⟨hx, hkey⟩

theorem mem_of_resolve {id : String} {c : Category} (h : v.resolve id = .ok c) :
    c ∈ v.categories ∧ c.id = Text.lower id := by
  unfold resolve at h
  split at h
  · next x hx =>
      cases h
      exact ⟨List.mem_of_find?_eq_some hx, by simpa using List.find?_some hx⟩
  · cases h

/-- The case of an id does not matter. -/
theorem resolve_of_lower {id other : String} {c : Category} (h : v.resolve other = .ok c)
    (hlower : Text.lower id = Text.lower other) : v.resolve id = .ok c := by
  unfold resolve at h ⊢
  rw [hlower]
  split at h
  · exact h
  · cases h

end View

/-- The entry that a row is read as under its category. -/
def entryOf (cs : List Category) (row : EntryRow) : Entry :=
  ((cs.find? (·.id == row.categoryId)).getD ⟨row.categoryId, []⟩).entry row

@[simp] theorem entryOf_key (cs : List Category) (row : EntryRow) :
    (entryOf cs row).key = row.key :=
  rfl

@[simp] theorem entryOf_category (cs : List Category) (row : EntryRow) :
    (entryOf cs row).category = row.categoryId := by
  unfold entryOf
  cases hfind : cs.find? (·.id == row.categoryId) with
  | none => rfl
  | some c =>
      have hid : c.id = row.categoryId := by simpa using List.find?_some hfind
      exact hid

theorem Sound.entryOf_eq {cs : List Category} {db : Database} (h : Sound cs db) {c : Category}
    (hc : c ∈ cs) {row : EntryRow} (hid : row.categoryId = c.id) :
    entryOf cs row = c.entry row := by
  have hfind := h.resolve_of_mem hc
  rw [h.resolve_eq, (h.canonical c hc).id_lower] at hfind
  rw [entryOf, hid]
  split at hfind
  · next d hd =>
      cases hfind
      rw [hd, Option.getD_some]
  · cases hfind

/-- Readers of the tables see the view. -/
structure Database.Shows (db : Database) (v : View) : Prop where
  sound : Sound v.categories db
  named : ∀ c ∈ v.categories, c.Named
  entries : v.entries = db.entries.map (entryOf v.categories)

namespace Database.Shows

variable {db : Database} {v : View}

/-- Every entry is read from a row that its category describes. -/
theorem exists_row (h : db.Shows v) {e : Entry} (he : e ∈ v.entries) :
    ∃ row ∈ db.entries, ∃ c ∈ v.categories, c.Describes row ∧ e = c.entry row := by
  rw [h.entries] at he
  obtain ⟨row, hrow, rfl⟩ := List.mem_map.1 he
  obtain ⟨c, hc, hd⟩ := h.sound.described row hrow
  exact ⟨row, hrow, c, hc, hd, h.sound.entryOf_eq hc hd.category⟩

theorem keys_nodup (h : db.Shows v) : (v.entries.map (·.key)).Nodup := by
  rw [h.entries, List.map_map]
  exact h.sound.keys_nodup

theorem find_of_mem (h : db.Shows v) {e : Entry} (he : e ∈ v.entries) : v.find e.key = .ok e := by
  have hsome : (v.entries.find? (·.key == e.key)).isSome :=
    List.find?_isSome.2 ⟨e, he, by simp⟩
  obtain ⟨other, hother⟩ := Option.isSome_iff_exists.1 hsome
  have hkey : other.key = e.key := by simpa using List.find?_some hother
  rw [View.find, hother,
    List.inj_on_of_nodup_map h.keys_nodup (List.mem_of_find?_eq_some hother) he hkey]

theorem resolve_of_mem (h : db.Shows v) {c : Category} (hc : c ∈ v.categories) :
    v.resolve c.id = .ok c :=
  (h.sound.resolve_eq c.id).symm.trans (h.sound.resolve_of_mem hc)

/-! ### Lookups -/

theorem resolve_eq (h : db.Shows v) (id : String) : Tables.resolve id db = v.resolve id :=
  h.sound.resolve_eq id

theorem find_eq (h : db.Shows v) (key : String) : Tables.find key db = v.find key := by
  have hfirst : v.entries.find? (·.key == key) = (db.entry? key).map (entryOf v.categories) := by
    rw [h.entries, List.find?_map]
    rfl
  rw [View.find, hfirst]
  cases hentry : db.entry? key with
  | none =>
      rw [Tables.find, Database.record?, hentry]
      rfl
  | some row =>
      obtain ⟨hrow, rfl⟩ := Sound.mem_of_entry? hentry
      obtain ⟨c, hc, hd⟩ := h.sound.described row hrow
      rw [h.sound.find_of_mem hrow hc hd, Option.map_some, h.sound.entryOf_eq hc hd.category]

theorem list_eq (h : db.Shows v) (id : String) : Tables.list id db = v.list id := by
  rw [h.sound.list_eq, View.list, View.resolve]
  cases hfind : v.categories.find? (·.id == Text.lower id) with
  | none => rfl
  | some c =>
      have hc : c ∈ v.categories := List.mem_of_find?_eq_some hfind
      have hentries : v.entries.filter (·.category == c.id) =
          (db.entriesOf c.id).map (entryOf v.categories) := by
        rw [h.entries, List.filter_map, Database.entriesOf]
        simp only [Function.comp_def, entryOf_category]
      refine congrArg Except.ok (Eq.trans ?_ hentries.symm)
      refine List.map_congr_left fun row hrow => ?_
      obtain ⟨-, hid⟩ := List.mem_filter.1 hrow
      exact (h.sound.entryOf_eq hc (by simpa using hid)).symm

end Database.Shows

end Inventory
