import Inventory.Proofs.Preservation

/-!
# Rows of entries

What the operations do to the rows of entries when the tables are sound, with all that was checked
in between, and what readers see of them: the entries of a category are its rows in order.
-/

namespace Inventory

open Database (Change)

/-! ## What was checked -/

namespace Store

theorem checkText_ok {s t what : String} (h : checkText s what = .ok t) : t = s := by
  unfold checkText at h
  split at h <;> cases h
  rfl

theorem checkKey_ok {v : Value} {key : String} (h : checkKey v = .ok key) : v = .text key := by
  unfold checkKey at h
  split at h
  · split at h
    · cases h
    · rw [checkText_ok h]
  · cases h

theorem checkLocation_ok {v : Value} {place : String} (h : checkLocation v = .ok place) :
    v = .text place := by
  unfold checkLocation at h
  split at h
  · rw [checkText_ok h]
  · cases h

theorem checkQuantity_ok {v : Value} {n : Int} (h : checkQuantity v = .ok n) :
    v = .int n ∧ 0 ≤ n ∧ n ≤ int64Max := by
  unfold checkQuantity at h
  split at h
  · simp only [bind_eq_ok_iff] at h
    obtain ⟨m, hm, h⟩ := h
    obtain ⟨rfl, hrange⟩ := FieldType.checkRange_ok hm
    split at h
    · cases h
    · cases h
      simp only [inInt64, Bool.and_eq_true, decide_eq_true_eq] at hrange
      exact ⟨rfl, by omega, hrange.2⟩
  · cases h

end Store

/-! ## Changed rows -/

/-- The tables after a change of the rows with a key, of which there is at most one. -/
def Database.withRow (db : Database) (key : String) (f : EntryRow → EntryRow) : Database :=
  { db with entries := db.entries.map fun row => if row.key = key then f row else row }

namespace Tables

theorem changeEntry_db (key : String) (f : EntryRow → EntryRow) (db : Database) :
    (db.changeEntry key f).db = db.withRow key f := by
  unfold Database.changeEntry Database.withRow
  split
  · next hnone =>
      -- no row has the key, so all rows stay as they are
      have hsame : ∀ row ∈ db.entries, (if row.key = key then f row else row) = row := by
        intro row hrow
        have hkey := List.find?_eq_none.1 hnone row hrow
        rw [if_neg (by simpa using hkey)]
      rw [List.map_congr_left hsame, List.map_id']
      rfl
  · simp

end Tables

/-- The row of a new entry. -/
def Category.newRow (c : Category) (key place : String) (quantity : Int) (values : Mapping Value)
    (now : String) : EntryRow :=
  ⟨key, c.id, place, .int quantity,
    .mapping (Store.stored (Mapping.update (c.fieldNames.map (·, .null)) values)), now, now⟩

/-- A row with another location, quantity and fields. -/
def Category.updatedRow (c : Category) (row : EntryRow) (place : String) (quantity : Int)
    (values : Mapping Value) (now : String) : EntryRow :=
  { row with
    location := place, quantity := .int quantity,
    fields := .mapping (Store.stored ((c.values row.fields.items).update values)),
    modified := now }

/-- A row with another quantity. -/
def EntryRow.withQuantity (row : EntryRow) (n : Int) (now : String) : EntryRow :=
  { row with quantity := .int n, modified := now }

namespace Sound

variable {cs : List Category} {db : Database}

/-- At a key there is only one row. -/
theorem row_unique (h : Sound cs db) {row other : EntryRow} (hrow : row ∈ db.entries)
    (hother : other ∈ db.entries) (hkey : other.key = row.key) : other = row :=
  List.inj_on_of_nodup_map h.keys_nodup hother hrow hkey

theorem withRow_congr (h : Sound cs db) {row : EntryRow} (hrow : row ∈ db.entries)
    {f g : EntryRow → EntryRow} (hfg : f row = g row) :
    db.withRow row.key f = db.withRow row.key g := by
  have hsame : ∀ other ∈ db.entries,
      (if other.key = row.key then f other else other) =
        if other.key = row.key then g other else other := by
    intro other hother
    by_cases hkey : other.key = row.key
    · rw [if_pos hkey, if_pos hkey, h.row_unique hrow hother hkey, hfg]
    · rw [if_neg hkey, if_neg hkey]
  rw [Database.withRow, Database.withRow, List.map_congr_left hsame]

theorem modification_row (h : Sound cs db) {key : String} {updates : Mapping Value}
    {now : String} {x : Nat} {change : Change}
    (hop : Tables.modification key updates now db = .ok (x, change)) :
    ∃ row ∈ db.entries, row.key = key ∧ ∃ c ∈ cs, c.Describes row ∧ ∃ place n values,
      Store.newLocation (c.entry row) (Store.lowerNames updates) = .ok place ∧
      Store.newQuantity (c.entry row) (Store.lowerNames updates) = .ok (.int n) ∧
      Store.coerceUpdates c []
        (((Store.lowerNames updates).erase "location").erase "quantity") = .ok values ∧
      change.db = db.withRow key fun other => c.updatedRow other place n values now := by
  obtain ⟨e, c', place, quantity, values, cell, he, hc', hplace, hquantity, hvalues, hcell, rfl⟩ :=
    Tables.modification_ok hop
  obtain ⟨row, hrow, rfl, c, hc, hd, rfl⟩ := h.exists_of_find he
  have hsame : c' = c := by
    have hresolve : Tables.resolve c.id db = .ok c' := hc'
    rw [h.resolve_of_mem hc] at hresolve
    cases hresolve
    rfl
  subst hsame
  obtain ⟨old, hold, -⟩ := hd.quantity
  obtain ⟨n, rfl⟩ := Tables.newQuantity_int hquantity (congrArg Cell.toValue hold)
  obtain ⟨rfl, -⟩ := Tables.quantityCell_int hcell
  refine ⟨row, hrow, rfl, c', hc, hd, place, n, values, hplace, hquantity, hvalues, ?_⟩
  rw [Tables.changeEntry_db]
  exact h.withRow_congr hrow rfl

/-- A row takes a sum that is none below zero, and no row takes another one. -/
theorem adjustQuantity_eq (h : Sound cs db) {row : EntryRow} (hrow : row ∈ db.entries) {n d : Int}
    (hn : row.quantity = .int n) (hd : inInt64 d) (hadd : (Cell.int n).add d = .int (n + d))
    (now : String) :
    Database.adjustQuantity now row.key d db = .ok (if 0 ≤ n + d then
      db.changeEntry row.key fun other =>
        { other with quantity := (Cell.int (n + d)).kept, modified := now }
      else db.unchanged) := by
  simp only [Database.adjustQuantity, hd, h.entry?_of_mem hrow, hn, hadd, Cell.isNonnegative]
  by_cases hpos : 0 ≤ n + d <;> simp [hpos]

/-- Which sums are refused, and what is changed by one that is not. -/
theorem sum_eq (h : Sound cs db) {row : EntryRow} (hrow : row ∈ db.entries) {n : Int}
    (hn : row.quantity = .int n) {d : Int} (hd : inInt64 d) (now : String) :
    (∃ change, Tables.sum row.key d now db = .ok ((), change) ∧ 0 ≤ n + d ∧ n + d ≤ int64Max ∧
        change.db = db.withRow row.key (·.withQuantity (n + d) now)) ∨
      (Tables.sum row.key d now db = .error (.insufficientQuantity row.key (.int n) d) ∧
        n + d < 0) ∨
      (Tables.sum row.key d now db = .error (.quantityOverflow row.key (.int n) d) ∧
        int64Max < n + d) := by
  obtain ⟨c, -, hdescribes⟩ := h.described row hrow
  obtain ⟨n', hn', hlow, -⟩ := hdescribes.quantity
  obtain ⟨m, hfields, -⟩ := hdescribes.fields
  cases hn.symm.trans hn'
  have hsum : Tables.sum row.key d now db = Tables.addition row.key
      ⟨row.key, row.categoryId, row.location, row.quantity, m, row.created, row.modified⟩ d now
        db := by
    rw [Tables.sum, h.record?_of_mem hrow hfields]
    rfl
  rw [hsum]
  simp only [Tables.addition, hn]
  by_cases hmax : int64Max < n + d
  · refine .inr (.inr ⟨?_, hmax⟩)
    simp only [Store.overflows, hmax, decide_true]
    rfl
  · have hoverflow : Store.overflows (.int n) d = .ok false := by
      simp only [Store.overflows, hmax, decide_false]
    obtain ⟨hadd, hle⟩ := Tables.add_of_overflows hlow hd hoverflow
    simp only [hoverflow, h.adjustQuantity_eq hrow hn hd hadd now]
    by_cases hpos : 0 ≤ n + d
    · have hrows : (db.changeEntry row.key fun other =>
          { other with quantity := (Cell.int (n + d)).kept, modified := now }).rows ≠ 0 := by
        simp [Database.changeEntry, h.entry?_of_mem hrow]
      refine .inl ⟨_, ?_, hpos, hle, Tables.changeEntry_db _ _ _⟩
      rw [if_pos hpos]
      show (if _ = 0 then _ else _) = _
      rw [if_neg hrows]
      rfl
    · refine .inr (.inl ⟨?_, Int.not_le.1 hpos⟩)
      rw [if_neg hpos]
      rfl

/-! ## Reading -/

theorem loadAll_rows {c : Category} (hc : c.Canonical) (rows : List EntryRow) :
    (∀ row ∈ rows, c.Describes row) →
      (Database.readRecords rows >>= Record.loadAll c) = .ok (rows.map c.entry) := by
  induction rows with
  | nil => exact fun _ => rfl
  | cons row rest ih =>
      intro h
      have hd := h row (by simp)
      obtain ⟨n, hquantity, hn, -⟩ := hd.quantity
      obtain ⟨m, hfields, hstores⟩ := hd.fields
      obtain ⟨records, hrecords, hrest⟩ :=
        bind_eq_ok_iff.1 (ih fun other hother => h other (List.mem_cons_of_mem _ hother))
      have hrecord : row.record = .ok ⟨row.key, row.categoryId, row.location, row.quantity, m,
          row.created, row.modified⟩ := by
        simp only [EntryRow.record, hfields, FieldData.value?]
      rw [Database.readRecords, hrecord, hrecords]
      show Record.loadAll c (_ :: records) = _
      rw [Record.loadAll, hrest, Record.load_of_stores hc hstores hquantity hn]
      simp only [List.map_cons, Category.entry, hquantity, hfields, FieldData.items]
      rfl

/-- The entries of a category are its rows in order. -/
theorem list_eq (h : Sound cs db) (id : String) :
    Tables.list id db =
      match cs.find? (·.id == Text.lower id) with
      | some c => .ok ((db.entriesOf c.id).map c.entry)
      | none => .error (.categoryNotFound id) := by
  rw [Tables.list, h.resolve_eq]
  cases hfind : cs.find? (·.id == Text.lower id) with
  | none => rfl
  | some c =>
      have hc : c ∈ cs := List.mem_of_find?_eq_some hfind
      refine loadAll_rows (h.canonical c hc) _ fun row hrow => ?_
      obtain ⟨hrow, hid⟩ := List.mem_filter.1 hrow
      obtain ⟨d, hd, hdescribes⟩ := h.described row hrow
      have hsame : d = c := by
        refine h.category_unique hd hc (hdescribes.category.symm.trans ?_)
        simpa using hid
      exact hsame ▸ hdescribes

end Sound

end Inventory
