import Inventory.Proofs.Fallible
import Inventory.Store

/-!
# What the registry and the store do to the tables

Each operation again, as a function of the tables alone: every lookup reads the categories from
the tables, and there is neither a cache nor a transaction. The theorems `does_…` say that this
is what the operations come to on sessions in order.
-/

namespace Inventory

open Database (Change)

namespace Tables

/-! ## Reading -/

def categories (db : Database) : Except Fault (List Category) :=
  Database.readCategories db.categories

def resolve (id : String) (db : Database) : Except Fault Category := do
  match (← categories db).find? (·.id == Text.lower id) with
  | some c => .ok c
  | none => .error (.categoryNotFound id)

def stats (db : Database) : Except Fault (List (Category × Nat)) := do
  let cs ← categories db
  return cs.map fun c => (c, db.countEntries c.id)

/-- The category of a row; a row whose category is gone is damaged. -/
def owner (key id : String) (db : Database) : Except Fault Category :=
  match resolve id db with
  | .ok c => .ok c
  | .error f => .error (if f.kind = .categoryNotFound then .missingCategory key id else f)

def find (key : String) (db : Database) : Except Fault Entry := do
  match ← db.record? key with
  | none => .error (.entryNotFound key)
  | some r =>
    let c ← owner key r.categoryId db
    r.load c

def list (id : String) (db : Database) : Except Fault (List Entry) := do
  let c ← resolve id db
  let records ← Database.readRecords (db.entriesOf c.id)
  Record.loadAll c records

def nextKeys (count : Nat) (start : Int) (db : Database) : Except Fault (List String) :=
  if count = 0 then .ok []
  else do
    discard (Key.encode start)
    return Store.unusedKeys db count start.toNat

/-! ## Changing categories -/

/-- The row of a category. -/
def rowOf (c : Category) : CategoryRow :=
  ⟨c.id, c.fields.map fun f => (f.name, f.type.code)⟩

/-- Adds the row of a category with all its fields. -/
def addRow (c : Category) (db : Database) : Except Fault (Unit × Change) :=
  if (db.category? c.id).isSome then .error (Database.uniqueFailed "catagories.id")
  else .ok ((), ⟨1, true, { db with categories := db.categories ++ [rowOf c] }⟩)

def definition (id : Value) (fields : List (Value × FieldType)) (_now : String)
    (db : Database) : Except Fault (Category × Change) := do
  let c ← Category.define id fields
  let cs ← categories db
  if cs.any (·.id == c.id) then .error (.duplicateCategory c.id)
  else (addRow c db).map fun xc => (c, xc.2)

def extension (id : String) (name : Value) (type : FieldType) (_now : String) (db : Database) :
    Except Fault (Category × Change) := do
  let c ← resolve id db
  let name ← Name.checkField name
  if (c.field? name).isSome then .error (.duplicateField c.id name)
  else (Database.addField c.id ⟨name, type⟩ db).map fun change =>
    (c.withField ⟨name, type⟩, change)

def removal (id : String) (_now : String) (db : Database) : Except Fault (Unit × Change) := do
  let c ← resolve id db
  if db.countEntries c.id ≠ 0 then .error (.categoryNotEmpty c.id (db.countEntries c.id))
  else (Database.removeCategory c.id db).map fun change => ((), change)

/-! ## Changing entries -/

/-- A new row, whose key no other row has. -/
def insertion (c : Category) (key location : String) (quantity : Int) (values : Mapping Value)
    (now : String) (db : Database) : Except Fault (String × Change) :=
  if db.hasKey key then .error (.duplicateKey key)
  else
    (Database.addEntry now key c.id location (.int quantity)
      (Store.stored (Mapping.update (c.fieldNames.map (·, .null)) values)) db).map
        fun change => (key, change)

def creation (id : String) (key location quantity : Value) (fields : Mapping Value)
    (now : String) (db : Database) : Except Fault (String × Change) := do
  let c ← resolve id db
  let key ← Store.checkKey key
  let location ← Store.checkLocation location
  let quantity ← Store.checkQuantity quantity
  let values ← Store.coerceUpdates c [] fields
  insertion c key location quantity values now db

def modification (key : String) (updates : Mapping Value) (now : String) (db : Database) :
    Except Fault (Nat × Change) := do
  let e ← find key db
  let c ← resolve e.category db
  Store.checkMutable key (Store.lowerNames updates)
  let location ← Store.newLocation e (Store.lowerNames updates)
  let quantity ← Store.newQuantity e (Store.lowerNames updates)
  let values ←
    Store.coerceUpdates c [] (((Store.lowerNames updates).erase "location").erase "quantity")
  (Database.updateEntry now e.key location quantity (Store.stored (e.fields.update values)) db).map
    fun change => (change.rows, change)

/-- The quantity of a record plus a number, if it stays in range. -/
def addition (key : String) (r : Record) (delta : Int) (now : String) (db : Database) :
    Except Fault (Unit × Change) := do
  if ← Store.overflows r.quantity delta then
    .error (.quantityOverflow key r.quantity.toValue delta)
  else
    let change ← Database.adjustQuantity now key delta db
    if change.rows = 0 then .error (.insufficientQuantity key r.quantity.toValue delta)
    else .ok ((), change)

/-- The change that is made after the number has been checked. -/
def sum (key : String) (delta : Int) (now : String) (db : Database) :
    Except Fault (Unit × Change) := do
  match ← db.record? key with
  | none => .error (.entryNotFound key)
  | some r => addition key r delta now db

def adjustment (key : String) (v : Value) (now : String) (db : Database) :
    Except Fault (Unit × Change) := do
  sum key (← Store.checkDelta key v) now db

/-- Giving or taking an amount: `signed` makes it the number that is added. -/
def transfer (signed : Int → Int) (key : String) (amount : Value) (now : String)
    (db : Database) : Except Fault (Unit × Change) := do
  adjustment key (.int (signed (← Store.checkQuantity amount))) now db

def deletion (key : String) (_now : String) (db : Database) : Except Fault (Unit × Change) := do
  let change ← Database.deleteEntry key db
  if change.rows = 0 then .error (.entryNotFound key) else .ok ((), change)

/-! ## A statement about no row changes nothing -/

theorem changeEntry_none {key : String} {f : EntryRow → EntryRow} {db : Database}
    (h : (db.changeEntry key f).rows = 0) : db.changeEntry key f = db.unchanged := by
  unfold Database.changeEntry at h ⊢
  split at h
  · rfl
  · cases h

theorem adjustQuantity_none {now key : String} {delta : Int} {db : Database} {c : Change}
    (h : Database.adjustQuantity now key delta db = .ok c) (hrows : c.rows = 0) :
    c = db.unchanged := by
  simp only [Database.adjustQuantity, refuse_eq_ok_iff] at h
  obtain ⟨-, h⟩ := h
  split at h
  · cases h
    rfl
  · split at h
    · cases h
      exact changeEntry_none hrows
    · cases h
      rfl

theorem deleteEntry_none {key : String} {db : Database} {c : Change}
    (h : Database.deleteEntry key db = .ok c) (hrows : c.rows = 0) : c = db.unchanged := by
  unfold Database.deleteEntry at h
  split at h
  · cases h
    cases hrows
  · cases h
    rfl

/-! ## What statements do when they succeed -/

/-- The column of quantities takes a whole number only if it is in range, and keeps it. -/
theorem quantityCell_int {parameter : Nat} {n : Int} {cell : Cell}
    (h : Database.quantityCell parameter (.int n) = .ok cell) :
    cell = .int n ∧ 0 ≤ n ∧ n ≤ int64Max := by
  simp only [Database.quantityCell, bind_eq_ok_iff] at h
  obtain ⟨bound, hbound, h⟩ := h
  simp only [Cell.bind] at hbound
  split at hbound
  · next hrange =>
      cases hbound
      simp only [inInt64, Bool.and_eq_true, decide_eq_true_eq] at hrange
      simp only [Cell.kept, Cell.isNonnegative, decide_eq_true_eq] at h
      split at h
      · cases h
        exact ⟨rfl, ‹_›, hrange.2⟩
      · cases h
  · cases hbound

/-- A whole quantity that does not overflow stays one. -/
theorem add_of_overflows {n delta : Int} (hn : 0 ≤ n) (hdelta : inInt64 delta)
    (h : Store.overflows (.int n) delta = .ok false) :
    (Cell.int n).add delta = .int (n + delta) ∧ n + delta ≤ int64Max := by
  have hmax : n + delta ≤ int64Max := by
    simp only [Store.overflows, Except.ok.injEq, decide_eq_false_iff_not] at h
    omega
  have hrange : inInt64 (n + delta) := by
    simp only [inInt64, Bool.and_eq_true, decide_eq_true_eq] at hdelta ⊢
    omega
  exact ⟨by rw [Cell.add, Cell.addNumber, if_pos hrange]; nofun, hmax⟩

theorem record_quantity {row : EntryRow} {r : Record} (h : row.record = .ok r) :
    r.quantity = row.quantity := by
  unfold EntryRow.record at h
  split at h
  · cases h
  · cases h
    rfl
  · cases h

theorem addEntry_ok {now key id location : String} {quantity : Value} {fields : Mapping Value}
    {db : Database} {c : Change}
    (h : Database.addEntry now key id location quantity fields db = .ok c) :
    ∃ cell, Database.quantityCell 4 quantity = .ok cell ∧ db.hasKey key = false ∧
      c = ⟨1, true, { db with
        entries := db.entries ++ [⟨key, id, location, cell, .mapping fields, now, now⟩] }⟩ := by
  simp only [Database.addEntry, bind_eq_ok_iff, guard_eq_ok_iff] at h
  obtain ⟨-, -, cell, hcell, hkey, -, h⟩ := h
  cases h
  exact ⟨cell, hcell, by simpa using hkey, rfl⟩

theorem updateEntry_ok {now key location : String} {quantity : Value} {fields : Mapping Value}
    {db : Database} {c : Change}
    (h : Database.updateEntry now key location quantity fields db = .ok c) :
    ∃ cell, Database.quantityCell 2 quantity = .ok cell ∧
      c = db.changeEntry key fun row =>
        { row with location, quantity := cell, fields := .mapping fields, modified := now } := by
  simp only [Database.updateEntry, bind_eq_ok_iff] at h
  obtain ⟨-, -, cell, hcell, h⟩ := h
  cases h
  exact ⟨cell, hcell, rfl⟩

theorem adjustQuantity_ok {now key : String} {delta : Int} {db : Database} {c : Change}
    (h : Database.adjustQuantity now key delta db = .ok c) (hrows : c.rows ≠ 0) :
    inInt64 delta ∧ ∃ row, db.entry? key = some row ∧ (row.quantity.add delta).isNonnegative ∧
      c = db.changeEntry key fun other =>
        { other with quantity := (row.quantity.add delta).kept, modified := now } := by
  simp only [Database.adjustQuantity, refuse_eq_ok_iff] at h
  obtain ⟨hdelta, h⟩ := h
  refine ⟨by simpa using hdelta, ?_⟩
  split at h
  · cases h
    exact absurd rfl hrows
  · next row hrow =>
      split at h
      · next hsum =>
          cases h
          exact ⟨row, hrow, hsum, rfl⟩
      · cases h
        exact absurd rfl hrows

theorem deleteEntry_ok {key : String} {db : Database} {c : Change}
    (h : Database.deleteEntry key db = .ok c) (hrows : c.rows ≠ 0) :
    c = ⟨1, true, { db with entries := db.entries.filter (·.key != key) }⟩ := by
  unfold Database.deleteEntry at h
  split at h
  · cases h
    rfl
  · cases h
    exact absurd rfl hrows

theorem addField_ok {id : String} {f : FieldDef} {db : Database} {c : Change}
    (h : Database.addField id f db = .ok c) :
    c = ⟨1, true, { db with
      categories := db.categories.map fun row =>
        if row.id == id then { row with fields := row.fields ++ [(f.name, f.type.code)] }
        else row }⟩ := by
  unfold Database.addField at h
  split at h
  · cases h
  · rw [refuse_eq_ok_iff] at h
    cases h.2
    rfl

theorem removeCategory_ok {id : String} {db : Database} {c : Change}
    (h : Database.removeCategory id db = .ok c) :
    (db.category? id = none ∧ c = db.unchanged) ∨
      c = ⟨1, true, { db with categories := db.categories.filter (·.id != id) }⟩ := by
  unfold Database.removeCategory at h
  split at h
  · next hnone =>
      cases h
      exact .inl ⟨by simpa using hnone, rfl⟩
  · rw [refuse_eq_ok_iff] at h
    cases h.2
    exact .inr rfl

theorem changeEntry_categories (key : String) (f : EntryRow → EntryRow) (db : Database) :
    (db.changeEntry key f).db.categories = db.categories := by
  unfold Database.changeEntry
  split <;> rfl

/-- A change of rows that keeps keys keeps all keys. -/
theorem changeEntry_keys (key : String) {f : EntryRow → EntryRow}
    (hf : ∀ row, (f row).key = row.key) (db : Database) :
    (db.changeEntry key f).db.entries.map (·.key) = db.entries.map (·.key) := by
  unfold Database.changeEntry
  split
  · rfl
  · rw [List.map_map]
    refine List.map_congr_left fun row _ => ?_
    by_cases hkey : row.key = key <;> simp [hkey, hf]

/-! ## What operations do when they succeed -/

theorem definition_ok {id : Value} {fields : List (Value × FieldType)} {now : String}
    {db : Database} {c : Category} {change : Change}
    (h : definition id fields now db = .ok (c, change)) :
    Category.define id fields = .ok c ∧
      (∃ cs, categories db = .ok cs ∧ ∀ d ∈ cs, d.id ≠ c.id) ∧
      change = ⟨1, true, { db with categories := db.categories ++ [rowOf c] }⟩ := by
  simp only [definition, addRow, bind_eq_ok_iff, refuse_eq_ok_iff, map_eq_ok_iff] at h
  obtain ⟨c, hc, cs, hcs, hany, xc, ⟨-, hadd⟩, h⟩ := h
  cases hadd
  cases h
  exact ⟨hc, ⟨cs, hcs, by simpa using hany⟩, rfl⟩

theorem extension_ok {id : String} {name : Value} {type : FieldType} {now : String}
    {db : Database} {x : Category} {change : Change}
    (h : extension id name type now db = .ok (x, change)) :
    ∃ c canonical, resolve id db = .ok c ∧ Name.checkField name = .ok canonical ∧
      c.field? canonical = none ∧ x = c.withField ⟨canonical, type⟩ ∧
      change = ⟨1, true, { db with
        categories := db.categories.map fun row =>
          if row.id == c.id then { row with fields := row.fields ++ [(canonical, type.code)] }
          else row }⟩ := by
  simp only [extension, bind_eq_ok_iff, refuse_eq_ok_iff, map_eq_ok_iff] at h
  obtain ⟨c, hc, canonical, hname, hfield, change, hadd, h⟩ := h
  cases h
  exact ⟨c, canonical, hc, hname, by simpa using hfield, rfl, addField_ok hadd⟩

theorem removal_ok {id now : String} {db : Database} {x : Unit} {change : Change}
    (h : removal id now db = .ok (x, change)) :
    ∃ c, resolve id db = .ok c ∧ db.entriesOf c.id = [] ∧
      ((db.category? c.id = none ∧ change = db.unchanged) ∨
        change = ⟨1, true, { db with categories := db.categories.filter (·.id != c.id) }⟩) := by
  simp only [removal, bind_eq_ok_iff, refuse_eq_ok_iff, map_eq_ok_iff] at h
  obtain ⟨c, hc, hcount, change, hremove, h⟩ := h
  cases h
  have hlength : (db.entriesOf c.id).length = 0 := by simpa [Database.countEntries] using hcount
  exact ⟨c, hc, List.length_eq_zero_iff.1 hlength, removeCategory_ok hremove⟩

theorem creation_ok {id : String} {key location quantity : Value} {fields : Mapping Value}
    {now : String} {db : Database} {x : String} {change : Change}
    (h : creation id key location quantity fields now db = .ok (x, change)) :
    ∃ c place n values cell, resolve id db = .ok c ∧ Store.checkKey key = .ok x ∧
      Store.checkLocation location = .ok place ∧ Store.checkQuantity quantity = .ok n ∧
      Store.coerceUpdates c [] fields = .ok values ∧
      Database.quantityCell 4 (.int n) = .ok cell ∧ db.hasKey x = false ∧
      change = ⟨1, true, { db with
        entries := db.entries ++ [⟨x, c.id, place, cell,
          .mapping (Store.stored (Mapping.update (c.fieldNames.map (·, .null)) values)),
          now, now⟩] }⟩ := by
  simp only [creation, insertion, bind_eq_ok_iff, refuse_eq_ok_iff, map_eq_ok_iff] at h
  obtain ⟨c, hc, key, hkey, place, hplace, n, hn, values, hvalues, -, change, hadd, h⟩ := h
  cases h
  obtain ⟨cell, hcell, hfresh, hchange⟩ := addEntry_ok hadd
  exact ⟨c, place, n, values, cell, hc, hkey, hplace, hn, hvalues, hcell, hfresh, hchange⟩

theorem modification_ok {key : String} {updates : Mapping Value} {now : String} {db : Database}
    {x : Nat} {change : Change} (h : modification key updates now db = .ok (x, change)) :
    ∃ e c place quantity values cell, find key db = .ok e ∧ resolve e.category db = .ok c ∧
      Store.newLocation e (Store.lowerNames updates) = .ok place ∧
      Store.newQuantity e (Store.lowerNames updates) = .ok quantity ∧
      Store.coerceUpdates c []
        (((Store.lowerNames updates).erase "location").erase "quantity") = .ok values ∧
      Database.quantityCell 2 quantity = .ok cell ∧
      change = db.changeEntry e.key fun row =>
        { row with
          location := place, quantity := cell,
          fields := .mapping (Store.stored (e.fields.update values)), modified := now } := by
  simp only [modification, bind_eq_ok_iff, map_eq_ok_iff] at h
  obtain ⟨e, he, c, hc, -, -, place, hplace, quantity, hquantity, values, hvalues, change,
    hupdate, h⟩ := h
  cases h
  obtain ⟨cell, hcell, hchange⟩ := updateEntry_ok hupdate
  exact ⟨e, c, place, quantity, values, cell, he, hc, hplace, hquantity, hvalues, hcell, hchange⟩

/-- A quantity that was a whole number is one after updates. -/
theorem newQuantity_int {e : Entry} {updates : Mapping Value} {v : Value} {n : Int}
    (h : Store.newQuantity e updates = .ok v) (hn : e.quantity = .int n) : ∃ m, v = .int m := by
  unfold Store.newQuantity at h
  split at h
  · simp only [bind_eq_ok_iff] at h
    obtain ⟨w, -, m, -, h⟩ := h
    cases h
    exact ⟨m, rfl⟩
  · cases h
    exact ⟨n, hn⟩

theorem sum_ok {key : String} {delta : Int} {now : String} {db : Database} {x : Unit}
    {change : Change} (h : sum key delta now db = .ok (x, change)) :
    ∃ row r, db.entry? key = some row ∧ row.record = .ok r ∧
      Store.overflows r.quantity delta = .ok false ∧ inInt64 delta ∧
      (row.quantity.add delta).isNonnegative ∧
      change = db.changeEntry key fun other =>
        { other with quantity := (row.quantity.add delta).kept, modified := now } := by
  simp only [sum, addition, bind_eq_ok_iff] at h
  obtain ⟨r?, hr?, h⟩ := h
  cases r? with
  | none => cases h
  | some r =>
      simp only [bind_eq_ok_iff, refuse_eq_ok_iff] at h
      obtain ⟨b, hoverflow, hb, change, hadjust, hrows, h⟩ := h
      cases h
      obtain ⟨hdelta, row, hrow, hsum, hchange⟩ := adjustQuantity_ok hadjust hrows
      -- the record that was read is that of the row that was changed
      rw [Database.record?, hrow] at hr?
      obtain ⟨r, hrecord, heq⟩ := map_eq_ok_iff.1 hr?
      cases heq
      cases b with
      | true => exact absurd rfl hb
      | false => exact ⟨row, r, hrow, hrecord, hoverflow, hdelta, hsum, hchange⟩

theorem adjustment_ok {key : String} {v : Value} {now : String} {db : Database} {x : Unit}
    {change : Change} (h : adjustment key v now db = .ok (x, change)) :
    ∃ delta, Store.checkDelta key v = .ok delta ∧ sum key delta now db = .ok (x, change) :=
  bind_eq_ok_iff.1 h

theorem transfer_ok {signed : Int → Int} {key : String} {amount : Value} {now : String}
    {db : Database} {x : Unit} {change : Change}
    (h : transfer signed key amount now db = .ok (x, change)) :
    ∃ n, Store.checkQuantity amount = .ok n ∧
      adjustment key (.int (signed n)) now db = .ok (x, change) :=
  bind_eq_ok_iff.1 h

theorem deletion_ok {key now : String} {db : Database} {x : Unit} {change : Change}
    (h : deletion key now db = .ok (x, change)) :
    change = ⟨1, true, { db with entries := db.entries.filter (·.key != key) }⟩ := by
  simp only [deletion, bind_eq_ok_iff, refuse_eq_ok_iff] at h
  obtain ⟨change, hdelete, hrows, h⟩ := h
  cases h
  exact deleteEntry_ok hdelete hrows

/-! ## Changes of entries leave the categories alone -/

theorem creation_categories {id : String} {key location quantity : Value}
    {fields : Mapping Value} {now : String} {db : Database} {x : String} {change : Change}
    (h : creation id key location quantity fields now db = .ok (x, change)) :
    change.db.categories = db.categories := by
  obtain ⟨c, place, n, values, cell, -, -, -, -, -, -, -, rfl⟩ := creation_ok h
  rfl

theorem insertion_categories {c : Category} {key location : String} {quantity : Int}
    {values : Mapping Value} {now : String} {db : Database} {x : String} {change : Change}
    (h : insertion c key location quantity values now db = .ok (x, change)) :
    change.db.categories = db.categories := by
  simp only [insertion, refuse_eq_ok_iff, map_eq_ok_iff] at h
  obtain ⟨-, change, hadd, h⟩ := h
  cases h
  obtain ⟨cell, -, -, rfl⟩ := addEntry_ok hadd
  rfl

theorem modification_categories {key : String} {updates : Mapping Value} {now : String}
    {db : Database} {x : Nat} {change : Change}
    (h : modification key updates now db = .ok (x, change)) :
    change.db.categories = db.categories := by
  obtain ⟨e, c, place, quantity, values, cell, -, -, -, -, -, -, rfl⟩ := modification_ok h
  exact changeEntry_categories e.key _ db

theorem sum_categories {key : String} {delta : Int} {now : String} {db : Database} {x : Unit}
    {change : Change} (h : sum key delta now db = .ok (x, change)) :
    change.db.categories = db.categories := by
  obtain ⟨row, r, -, -, -, -, -, rfl⟩ := sum_ok h
  exact changeEntry_categories key _ db

theorem adjustment_categories {key : String} {v : Value} {now : String} {db : Database}
    {x : Unit} {change : Change} (h : adjustment key v now db = .ok (x, change)) :
    change.db.categories = db.categories := by
  obtain ⟨delta, -, hsum⟩ := adjustment_ok h
  exact sum_categories hsum

theorem transfer_categories {signed : Int → Int} {key : String} {amount : Value}
    {now : String} {db : Database} {x : Unit} {change : Change}
    (h : transfer signed key amount now db = .ok (x, change)) :
    change.db.categories = db.categories := by
  obtain ⟨n, -, hadjust⟩ := transfer_ok h
  exact adjustment_categories hadjust

theorem deletion_categories {key now : String} {db : Database} {x : Unit} {change : Change}
    (h : deletion key now db = .ok (x, change)) : change.db.categories = db.categories := by
  rw [deletion_ok h]

end Tables

end Inventory
