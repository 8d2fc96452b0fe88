import Inventory.Proofs.Filed
import Inventory.Proofs.Loading

/-!
# Sound tables

The invariant that ties the tables together: categories are as they can be defined, and every row
of an entry is described by one of them. It is what every operation may rely on when it reads, and
what it must keep when it writes.
-/

namespace Inventory

open Database (Change)

/-- The tables hold the categories `cs`, and entries that they describe. -/
structure Sound (cs : List Category) (db : Database) : Prop where
  rows : db.categories = cs.map Tables.rowOf
  canonical : ∀ c ∈ cs, c.Canonical
  ids_nodup : (cs.map (·.id)).Nodup
  keys_nodup : (db.entries.map (·.key)).Nodup
  described : ∀ row ∈ db.entries, ∃ c ∈ cs, c.Describes row

/-- The items of field data that were not put there by hand. -/
def FieldData.items : FieldData → Mapping Value
  | .mapping m => m
  | .text _ => []

/-- The entry that a row is read as. -/
def Category.entry (c : Category) (row : EntryRow) : Entry :=
  ⟨row.key, c.id, row.location, row.quantity.toValue, c.values row.fields.items,
    some row.created, some row.modified⟩

/-! ## Reading -/

namespace Sound

variable {cs : List Category} {db : Database}

theorem filed (h : Sound cs db) : Filed cs db where
  rows := h.rows
  lower := fun c hc => (h.canonical c hc).id_lower
  ids_nodup := h.ids_nodup
  keys_nodup := h.keys_nodup
  owned := by
    intro row hrow
    obtain ⟨c, hc, hd⟩ := h.described row hrow
    exact ⟨c, hc, hd.category⟩

theorem categories_eq (h : Sound cs db) : Tables.categories db = .ok cs :=
  h.filed.categories_eq

theorem resolve_eq (h : Sound cs db) (id : String) :
    Tables.resolve id db =
      match cs.find? (·.id == Text.lower id) with
      | some c => .ok c
      | none => .error (.categoryNotFound id) :=
  h.filed.resolve_eq id

theorem category_unique (h : Sound cs db) {c d : Category} (hc : c ∈ cs) (hd : d ∈ cs)
    (hid : c.id = d.id) : c = d :=
  h.filed.category_unique hc hd hid

theorem mem_of_resolve (h : Sound cs db) {id : String} {c : Category}
    (hc : Tables.resolve id db = .ok c) : c ∈ cs ∧ c.id = Text.lower id :=
  h.filed.mem_of_resolve hc

theorem resolve_of_mem (h : Sound cs db) {c : Category} (hc : c ∈ cs) :
    Tables.resolve c.id db = .ok c :=
  h.filed.resolve_of_mem hc (h.canonical c hc).id_lower

theorem entry?_of_mem (h : Sound cs db) {row : EntryRow} (hrow : row ∈ db.entries) :
    db.entry? row.key = some row :=
  h.filed.entry?_of_mem hrow

theorem mem_of_entry? {key : String} {row : EntryRow} (h : db.entry? key = some row) :
    row ∈ db.entries ∧ row.key = key :=
  ⟨List.mem_of_find?_eq_some h, by simpa using List.find?_some h⟩

/-- The record of a row, with the items of its field data. -/
theorem record?_of_mem (h : Sound cs db) {row : EntryRow} (hrow : row ∈ db.entries)
    {m : Mapping Value} (hfields : row.fields = .mapping m) :
    db.record? row.key = .ok (some ⟨row.key, row.categoryId, row.location, row.quantity, m,
      row.created, row.modified⟩) := by
  rw [Database.record?, h.entry?_of_mem hrow]
  simp only [EntryRow.record, hfields, FieldData.value?]
  rfl

/-- A described row is loaded as its entry. -/
theorem find_of_mem (h : Sound cs db) {row : EntryRow} (hrow : row ∈ db.entries) {c : Category}
    (hc : c ∈ cs) (hd : c.Describes row) : Tables.find row.key db = .ok (c.entry row) := by
  obtain ⟨n, hquantity, hn, -⟩ := hd.quantity
  obtain ⟨m, hfields, hstores⟩ := hd.fields
  have howner : Tables.owner row.key row.categoryId db = .ok c := by
    rw [Tables.owner, hd.category, h.resolve_of_mem hc]
  rw [Tables.find, h.record?_of_mem hrow hfields]
  show (Tables.owner row.key row.categoryId db >>= _) = _
  rw [howner]
  show Record.load _ c = _
  rw [Record.load_of_stores (h.canonical c hc) hstores hquantity hn, Category.entry, hquantity,
    hfields]
  rfl

/-- Every stored key is found. -/
theorem find_of_key (h : Sound cs db) {key : String} (hkey : key ∈ db.entries.map (·.key)) :
    ∃ e, Tables.find key db = .ok e := by
  obtain ⟨row, hrow, rfl⟩ := List.mem_map.1 hkey
  obtain ⟨c, hc, hd⟩ := h.described row hrow
  exact ⟨c.entry row, h.find_of_mem hrow hc hd⟩

theorem exists_of_find (h : Sound cs db) {key : String} {e : Entry}
    (he : Tables.find key db = .ok e) :
    ∃ row ∈ db.entries, row.key = key ∧ ∃ c ∈ cs, c.Describes row ∧ e = c.entry row := by
  cases hentry : db.entry? key with
  | none =>
      rw [Tables.find, Database.record?, hentry] at he
      cases he
  | some row =>
      obtain ⟨hrow, rfl⟩ := mem_of_entry? hentry
      obtain ⟨c, hc, hd⟩ := h.described row hrow
      rw [h.find_of_mem hrow hc hd] at he
      cases he
      exact ⟨row, hrow, rfl, c, hc, hd, rfl⟩

end Sound

end Inventory
