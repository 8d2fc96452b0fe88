import Inventory.Proofs.Tables
import Mathlib.Data.List.Nodup

/-!
# Entries that are filed

Whatever a row holds, it is filed under one category, and categories are found by their ids in lower
case. This much is kept by every statement that the database accepts, also by statements that put
something into a row by hand: the database itself refuses a second row with a key, a row without its
category, and the removal of a category that has rows.
-/

namespace Inventory

open Database (Change)

/-- The tables hold the categories `cs`, and each row is filed under one of them. -/
structure Filed (cs : List Category) (db : Database) : Prop where
  rows : db.categories = cs.map Tables.rowOf
  lower : ∀ c ∈ cs, Text.lower c.id = c.id
  ids_nodup : (cs.map (·.id)).Nodup
  keys_nodup : (db.entries.map (·.key)).Nodup
  owned : ∀ row ∈ db.entries, ∃ c ∈ cs, row.categoryId = c.id

/-! ## Reading -/

namespace Tables

theorem readFields_codes (id : String) (fields : List FieldDef) :
    CategoryRow.readFields id (fields.map fun f => (f.name, f.type.code)) = .ok fields := by
  induction fields with
  | nil => rfl
  | cons f rest ih =>
      obtain ⟨name, type⟩ := f
      have hcode : FieldType.withCode? type.code = some type := by cases type <;> decide
      simp only [List.map_cons, CategoryRow.readFields, hcode, ih]
      rfl

theorem category_rowOf (c : Category) : (rowOf c).category = .ok c := by
  rw [CategoryRow.category, rowOf, readFields_codes]
  rfl

theorem readCategories_rows (cs : List Category) :
    Database.readCategories (cs.map rowOf) = .ok cs := by
  induction cs with
  | nil => rfl
  | cons c rest ih =>
      rw [List.map_cons, Database.readCategories, category_rowOf, ih]
      rfl

end Tables

namespace Filed

variable {cs : List Category} {db : Database}

theorem categories_eq (h : Filed cs db) : Tables.categories db = .ok cs := by
  rw [Tables.categories, h.rows, Tables.readCategories_rows]

theorem resolve_eq (h : Filed cs db) (id : String) :
    Tables.resolve id db =
      match cs.find? (·.id == Text.lower id) with
      | some c => .ok c
      | none => .error (.categoryNotFound id) := by
  rw [Tables.resolve, h.categories_eq]
  rfl

/-- Of two categories with one id there is only one. -/
theorem category_unique (h : Filed cs db) {c d : Category} (hc : c ∈ cs) (hd : d ∈ cs)
    (hid : c.id = d.id) : c = d :=
  List.inj_on_of_nodup_map h.ids_nodup hc hd hid

theorem mem_of_resolve (h : Filed cs db) {id : String} {c : Category}
    (hc : Tables.resolve id db = .ok c) : c ∈ cs ∧ c.id = Text.lower id := by
  rw [h.resolve_eq] at hc
  split at hc
  · next d hd =>
      cases hc
      exact ⟨List.mem_of_find?_eq_some hd, by simpa using List.find?_some hd⟩
  · cases hc

/-- A category is found by its id in any case. -/
theorem resolve_of_mem (h : Filed cs db) {c : Category} (hc : c ∈ cs) {id : String}
    (hid : Text.lower id = c.id) : Tables.resolve id db = .ok c := by
  rw [h.resolve_eq, hid]
  have hsome : (cs.find? (·.id == c.id)).isSome := List.find?_isSome.2 ⟨c, hc, by simp⟩
  obtain ⟨d, hd⟩ := Option.isSome_iff_exists.1 hsome
  have hid : d.id = c.id := by simpa using List.find?_some hd
  rw [hd, h.category_unique (List.mem_of_find?_eq_some hd) hc hid]

/-- The first row with a key is the only one. -/
theorem entry?_of_mem (h : Filed cs db) {row : EntryRow} (hrow : row ∈ db.entries) :
    db.entry? row.key = some row := by
  have hsome : (db.entry? row.key).isSome := List.find?_isSome.2 ⟨row, hrow, by simp⟩
  obtain ⟨other, hother⟩ := Option.isSome_iff_exists.1 hsome
  have hkey : other.key = row.key := by simpa using List.find?_some hother
  rw [hother, List.inj_on_of_nodup_map h.keys_nodup (List.mem_of_find?_eq_some hother) hrow hkey]

/-! ## Categories -/

theorem define (h : Filed cs db) {c : Category} (hc : Text.lower c.id = c.id)
    (hfresh : ∀ d ∈ cs, d.id ≠ c.id) :
    Filed (cs ++ [c]) { db with categories := db.categories ++ [Tables.rowOf c] } where
  rows := by simp [h.rows]
  lower := by
    intro d hd
    rcases List.mem_append.1 hd with hd | hd
    · exact h.lower d hd
    · rw [List.mem_singleton.1 hd]
      exact hc
  ids_nodup := by
    rw [List.map_append]
    refine List.nodup_append.2 ⟨h.ids_nodup, by simp, ?_⟩
    rintro id hid _ hc' rfl
    obtain ⟨d, hd, hid⟩ := List.mem_map.1 hid
    simp only [List.map_cons, List.map_nil, List.mem_singleton] at hc'
    exact hfresh d hd (hid.trans hc')
  keys_nodup := h.keys_nodup
  owned := by
    intro row hrow
    obtain ⟨d, hd, hid⟩ := h.owned row hrow
    exact ⟨d, List.mem_append_left _ hd, hid⟩

theorem extend (h : Filed cs db) (id : String) (f : FieldDef) :
    Filed (cs.map fun d => if d.id = id then d.withField f else d)
      { db with categories := db.categories.map fun row =>
          if row.id == id then { row with fields := row.fields ++ [(f.name, f.type.code)] }
          else row } where
  rows := by
    rw [h.rows, List.map_map, List.map_map]
    refine List.map_congr_left fun d _ => ?_
    by_cases hid : d.id = id
    · simp [hid, Tables.rowOf, Category.withField]
    · simp [hid, Tables.rowOf]
  lower := by
    intro d' hd'
    obtain ⟨d, hd, rfl⟩ := List.mem_map.1 hd'
    by_cases hid : d.id = id
    · rw [if_pos hid]
      exact h.lower d hd
    · rw [if_neg hid]
      exact h.lower d hd
  ids_nodup := by
    have hids : (cs.map fun d => if d.id = id then d.withField f else d).map (·.id) =
        cs.map (·.id) := by
      rw [List.map_map]
      refine List.map_congr_left fun d _ => ?_
      by_cases hid : d.id = id <;> simp [hid, Category.withField]
    rw [hids]
    exact h.ids_nodup
  keys_nodup := h.keys_nodup
  owned := by
    intro row hrow
    obtain ⟨d, hd, hid⟩ := h.owned row hrow
    refine ⟨_, List.mem_map_of_mem hd, ?_⟩
    split <;> exact hid

/-- A category without rows can go. -/
theorem remove (h : Filed cs db) {id : String} (hempty : db.entriesOf id = []) :
    Filed (cs.filter (·.id != id))
      { db with categories := db.categories.filter (·.id != id) } where
  rows := by
    rw [h.rows, List.filter_map]
    rfl
  lower := fun c hc => h.lower c (List.mem_of_mem_filter hc)
  ids_nodup := (List.filter_sublist.map _).nodup h.ids_nodup
  keys_nodup := h.keys_nodup
  owned := by
    intro row hrow
    obtain ⟨c, hc, hid⟩ := h.owned row hrow
    refine ⟨c, List.mem_filter.2 ⟨hc, ?_⟩, hid⟩
    have hother := List.filter_eq_nil_iff.1 hempty row hrow
    rw [hid] at hother
    simpa using hother

/-! ## Entries -/

theorem insert (h : Filed cs db) {row : EntryRow} (howned : ∃ c ∈ cs, row.categoryId = c.id)
    (hkey : db.hasKey row.key = false) : Filed cs { db with entries := db.entries ++ [row] } where
  rows := h.rows
  lower := h.lower
  ids_nodup := h.ids_nodup
  keys_nodup := by
    rw [List.map_append]
    refine List.nodup_append.2 ⟨h.keys_nodup, by simp, ?_⟩
    rintro key hmem _ hrow rfl
    obtain ⟨other, hother, rfl⟩ := List.mem_map.1 hmem
    simp only [List.map_cons, List.map_nil, List.mem_singleton] at hrow
    have hany := List.any_eq_false.1 hkey other hother
    simp [hrow] at hany
  owned := by
    intro other hother
    rcases List.mem_append.1 hother with hother | hother
    · exact h.owned other hother
    · rw [List.mem_singleton.1 hother]
      exact howned

/-- A row may be changed if it keeps its key or gets one that no row has, and stays under a
category. -/
theorem changeEntry (h : Filed cs db) {key : String} {change : EntryRow → EntryRow}
    (hkey : ∀ row ∈ db.entries, row.key = key →
      (change row).key = key ∨ db.hasKey (change row).key = false)
    (howned : ∀ row ∈ db.entries, row.key = key → ∃ c ∈ cs, (change row).categoryId = c.id) :
    Filed cs (db.changeEntry key change).db := by
  have hsame {a b : EntryRow} (ha : a ∈ db.entries) (hb : b ∈ db.entries) (hab : a.key = b.key) :
      a = b := List.inj_on_of_nodup_map h.keys_nodup ha hb hab
  -- no other row has the key that the changed row comes to have
  have hapart {a b : EntryRow} (ha : a ∈ db.entries) (hb : b ∈ db.entries) (hak : a.key = key)
      (hbk : b.key ≠ key) : (change a).key ≠ b.key := by
    intro heq
    rcases hkey a ha hak with hk | hk
    · exact hbk (heq.symm.trans hk)
    · exact absurd (beq_iff_eq.2 heq.symm) (List.any_eq_false.1 hk b hb)
  unfold Database.changeEntry
  split
  · exact h
  refine ⟨h.rows, h.lower, h.ids_nodup, ?_, ?_⟩
  · rw [List.map_map]
    refine (List.nodup_map_iff_inj_on h.keys_nodup.of_map).2 fun a ha b hb hab => ?_
    by_cases hak : a.key = key <;> by_cases hbk : b.key = key
    · exact hsame ha hb (hak.trans hbk.symm)
    · simp only [Function.comp, hak, hbk, beq_self_eq_true, if_true, beq_iff_eq, if_false] at hab
      exact absurd hab (hapart ha hb hak hbk)
    · simp only [Function.comp, hak, hbk, beq_self_eq_true, if_true, beq_iff_eq, if_false] at hab
      exact absurd hab.symm (hapart hb ha hbk hak)
    · simp only [Function.comp, hak, hbk, beq_iff_eq, if_false] at hab
      exact hsame ha hb hab
  · intro row' hrow'
    obtain ⟨row, hrow, rfl⟩ := List.mem_map.1 hrow'
    split
    · next hk => exact howned row hrow (eq_of_beq hk)
    · exact h.owned row hrow

theorem delete (h : Filed cs db) (key : String) :
    Filed cs { db with entries := db.entries.filter (·.key != key) } where
  rows := h.rows
  lower := h.lower
  ids_nodup := h.ids_nodup
  keys_nodup := (List.filter_sublist.map _).nodup h.keys_nodup
  owned := fun row hrow => h.owned row (List.mem_of_mem_filter hrow)

end Filed

end Inventory
