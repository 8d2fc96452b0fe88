import Inventory.Database.Cell
import Inventory.Json
import Inventory.Query.Comparison
import Inventory.Schema.Category

/-!
The tables of an inventory as lists of rows in order of insertion, and the statements that read
and change them. A statement that breaks a constraint changes nothing.
-/
namespace Inventory

/-- The field data of an entry: a mapping, or a text that was put there by hand and is decoded
when it is read. -/
inductive FieldData where
  | mapping (items : Mapping Value)
  | text (raw : String)

/-- A category row with the names and type codes of its fields by position. -/
structure CategoryRow where
  id : String
  fields : List (String × String)
  deriving DecidableEq

structure EntryRow where
  key : String
  categoryId : String
  location : String
  quantity : Cell
  fields : FieldData
  created : String
  modified : String

structure Database where
  /-- The names of the tables and indexes that exist. -/
  objects : List String
  /-- The migrations that were applied, and when. -/
  versions : List (Int × String)
  categories : List CategoryRow
  entries : List EntryRow

/-- An entry as it is stored, with decoded field data. -/
structure Record where
  key : String
  categoryId : String
  location : String
  quantity : Cell
  fields : Mapping Value
  created : String
  modified : String

/-- The value of field data; none if it is no JSON text. -/
def FieldData.value? : FieldData → Option Value
  | .mapping items => some (.mapping items)
  | .text raw => Json.read? raw

/-- Field data as they are stored. -/
def FieldData.toText : FieldData → String
  | .mapping items => Json.write (.mapping items)
  | .text raw => raw

/-- The two rows are stored as the same. -/
def EntryRow.isStoredAs (a b : EntryRow) : Bool :=
  a.key == b.key && a.categoryId == b.categoryId && a.location == b.location &&
    a.quantity = b.quantity && a.fields.toText == b.fields.toText && a.created == b.created &&
    a.modified == b.modified

/-- The record of a row. Field data must be a mapping. -/
def EntryRow.record (row : EntryRow) : Except Fault Record :=
  match row.fields.value? with
  | none => .error (.unreadableFields row.key)
  | some (.mapping items) =>
    .ok ⟨row.key, row.categoryId, row.location, row.quantity, items, row.created, row.modified⟩
  | some _ => .error (.fieldsNotMapping row.key)

/-- Reads type codes of the fields of a category. -/
def CategoryRow.readFields (id : String) : List (String × String) → Except Fault (List FieldDef)
  | [] => .ok []
  | (name, code) :: rest =>
    match FieldType.withCode? code with
    | none => .error (.unreadableFieldType id code)
    | some type => do return ⟨name, type⟩ :: (← readFields id rest)

/-- The category of a row. -/
def CategoryRow.category (row : CategoryRow) : Except Fault Category := do
  return ⟨row.id, ← readFields row.id row.fields⟩

/-- Where a message of a statement comes from: the database, or the interface to it. -/
inductive StatementOrigin where
  | interface
  | database
  deriving DecidableEq, Repr

/-- The words by which the database says that its file is damaged. -/
def damageWords : List String :=
  ["malformed", "not a database", "corrupt"]

/-- The fault that a message of a statement stands for. Only the database can tell that its file
is damaged. -/
def Fault.ofStatement (origin : StatementOrigin) (message : String) : Fault :=
  let lowered := (Text.lower message).toList
  if origin = .database && damageWords.any fun word => Text.occursIn word.toList lowered then
    .corrupt message
  else .unavailable message

namespace Database

def empty : Database :=
  ⟨[], [], [], []⟩

/-! ### Reading -/

def readCategories : List CategoryRow → Except Fault (List Category)
  | [] => .ok []
  | row :: rest => do return (← row.category) :: (← readCategories rest)

def category? (db : Database) (id : String) : Option CategoryRow :=
  db.categories.find? (·.id == id)

/-- The row with a key. -/
def entry? (db : Database) (key : String) : Option EntryRow :=
  db.entries.find? (·.key == key)

def hasKey (db : Database) (key : String) : Bool :=
  db.entries.any (·.key == key)

/-- The rows filed under a category, in order of insertion. -/
def entriesOf (db : Database) (id : String) : List EntryRow :=
  db.entries.filter (·.categoryId == id)

def countEntries (db : Database) (id : String) : Nat :=
  (db.entriesOf id).length

/-- The record with a key, if there is one. -/
def record? (db : Database) (key : String) : Except Fault (Option Record) :=
  match db.entry? key with
  | none => .ok none
  | some row => row.record.map some

def readRecords : List EntryRow → Except Fault (List Record)
  | [] => .ok []
  | row :: rest => do return (← row.record) :: (← readRecords rest)

/-! ### Changing -/

/-- What a statement did. -/
structure Change where
  /-- How many rows it was about. -/
  rows : Nat
  /-- Something was written. A row is not, if it stays as it was and keeps its place in indexes. -/
  isWritten : Bool
  db : Database

/-- A change of the tables; with a fault it changes nothing. -/
abbrev Statement := Database → Except Fault Change

/-- No row was there to be changed. -/
def unchanged (db : Database) : Change :=
  ⟨0, false, db⟩

def foreignKeyFailed : Fault :=
  .ofStatement .database "FOREIGN KEY constraint failed"

def uniqueFailed (columns : String) : Fault :=
  .ofStatement .database ("UNIQUE constraint failed: " ++ columns)

def nullFailed (column : String) : Fault :=
  .ofStatement .database ("NOT NULL constraint failed: entries." ++ column)

def checkFailed : Fault :=
  .ofStatement .database "CHECK constraint failed: quantity >= 0"

/-- Adds a category that has no fields yet. -/
def addCategory (id : String) : Statement := fun db =>
  if (db.category? id).isSome then .error (uniqueFailed "catagories.id")
  else .ok ⟨1, true, { db with categories := db.categories ++ [⟨id, []⟩] }⟩

/-- Adds a field after the others of a category. -/
def addField (id : String) (f : FieldDef) : Statement := fun db =>
  match db.category? id with
  | none => .error foreignKeyFailed
  | some row =>
    if row.fields.any (·.1 == f.name) then
      .error (uniqueFailed "catagory_fields.catagory_id, catagory_fields.name")
    else
      .ok ⟨1, true, { db with
        categories := db.categories.map fun row =>
          if row.id == id then { row with fields := row.fields ++ [(f.name, f.type.code)] }
          else row }⟩

/-- Removes a category with its fields, unless entries are filed under it. -/
def removeCategory (id : String) : Statement := fun db =>
  if (db.category? id).isNone then .ok db.unchanged
  else if !(db.entriesOf id).isEmpty then .error foreignKeyFailed
  else .ok ⟨1, true, { db with categories := db.categories.filter (·.id != id) }⟩

/-- The cell that the quantity column keeps of a parameter's value. -/
def quantityCell (parameter : Nat) (v : Value) : Except Fault Cell := do
  match ← Cell.bind parameter v with
  | none => throw (nullFailed "quantity")
  | some cell => if cell.kept.isNonnegative then return cell.kept else throw checkFailed

/-- The text that a column of texts keeps of a parameter's value. -/
def textCell (column : String) (parameter : Nat) (v : Value) : Except Fault String := do
  match ← Cell.bind parameter v with
  | none => throw (nullFailed column)
  | some cell => return cell.toText

/-- Field data can be stored if all their numbers can be written. -/
def checkFields (fields : Mapping Value) : Except Fault Unit :=
  if Value.pairsWritable fields then .ok () else .error .unwritable

/-- Adds an entry at the end. -/
def addEntry (now key categoryId location : String) (quantity : Value) (fields : Mapping Value) :
    Statement := fun db => do
  checkFields fields
  let cell ← quantityCell 4 quantity
  if db.hasKey key then throw (uniqueFailed "entries.key")
  if (db.category? categoryId).isNone then throw foreignKeyFailed
  return ⟨1, true, { db with
    entries := db.entries ++ [⟨key, categoryId, location, cell, .mapping fields, now, now⟩] }⟩

/-- Changes the row with a key, if there is one. -/
def changeEntry (key : String) (change : EntryRow → EntryRow) (db : Database) : Change :=
  match db.entry? key with
  | none => db.unchanged
  | some row =>
    ⟨1, !(change row).isStoredAs row,
      { db with entries := db.entries.map fun row => if row.key == key then change row else row }⟩

/-- Changes what the row with a key is found by, if there is such a row. -/
def fileEntry (key : String) (change : EntryRow → EntryRow) (db : Database) : Change :=
  let c := db.changeEntry key change
  { c with isWritten := 0 < c.rows }

/-- Overwrites location, quantity and fields of an entry. -/
def updateEntry (now key location : String) (quantity : Value) (fields : Mapping Value) :
    Statement := fun db => do
  checkFields fields
  let cell ← quantityCell 2 quantity
  return db.changeEntry key fun row =>
    { row with location := location, quantity := cell, fields := .mapping fields, modified := now }

/-- Adds to the quantity of an entry unless the sum would be negative. -/
def adjustQuantity (now key : String) (delta : Int) : Statement := fun db =>
  if !inInt64 delta then .error .beyondStorage
  else
    match db.entry? key with
    | none => .ok db.unchanged
    | some row =>
      let sum := row.quantity.add delta
      if sum.isNonnegative then
        .ok (db.changeEntry key fun row => { row with quantity := sum.kept, modified := now })
      else .ok db.unchanged

/-- Removes the entry with a key, if there is one. -/
def deleteEntry (key : String) : Statement := fun db =>
  if db.hasKey key then .ok ⟨1, true, { db with entries := db.entries.filter (·.key != key) }⟩
  else .ok db.unchanged

/-! ### Changing by hand -/

/-- Puts something into the row with a key; `read` is applied to a value only if there is one. -/
def putValue (read : Value → Except Fault α) (put : α → Database → Change) (key : String)
    (v : Value) : Statement := fun db => do
  if !db.hasKey key then
    discard (Cell.bind 1 v)
    return db.unchanged
  return put (← read v) db

/-- Puts a text into a column that no index holds. -/
def putText (column : String) (change : String → EntryRow → EntryRow) (key : String) :
    Value → Statement :=
  putValue (textCell column 1) (fun text => changeEntry key (change text)) key

/-- Puts a quantity into a row without the checks of the store. -/
def putQuantity (key : String) : Value → Statement :=
  putValue (quantityCell 1) (fun cell => changeEntry key ({ · with quantity := cell })) key

/-- Puts field data into a row as a text. -/
def putFields : (key : String) → Value → Statement :=
  putText "fields" fun raw row => { row with fields := .text raw }

def putLocation : (key : String) → Value → Statement :=
  putText "location" fun text row => { row with location := text }

def putCreated : (key : String) → Value → Statement :=
  putText "created" fun text row => { row with created := text }

def putModified : (key : String) → Value → Statement :=
  putText "modified" fun text row => { row with modified := text }

/-- Files a row under another category, which must exist. -/
def moveEntry (key : String) (id : Value) : Statement := fun db =>
  let read (v : Value) : Except Fault String := do
    let id ← textCell "catagory_id" 1 v
    if (db.category? id).isNone then throw foreignKeyFailed
    return id
  putValue read (fun id => fileEntry key ({ · with categoryId := id })) key id db

/-- Gives a row another key, which no other row has. -/
def renameEntry (key : String) (newKey : Value) : Statement := fun db =>
  let read (v : Value) : Except Fault String := do
    let newKey ← textCell "key" 1 v
    if newKey != key && db.hasKey newKey then throw (uniqueFailed "entries.key")
    return newKey
  putValue read (fun newKey => fileEntry key ({ · with key := newKey })) key newKey db

/-- Files a row under a category that need not exist. -/
def putCategory (key id : String) : Statement := fun db =>
  .ok (db.fileEntry key ({ · with categoryId := id }))

/-- Gives a field another type code, which need not be one. -/
def putTypeCode (id field code : String) : Statement := fun db =>
  let hits := (db.categories.filter (·.id == id)).flatMap fun row =>
    row.fields.filter (·.1 == field)
  .ok ⟨hits.length, hits.any (·.2 != code), { db with
    categories := db.categories.map fun row =>
      if row.id == id then
        { row with fields := row.fields.map fun f => if f.1 == field then (field, code) else f }
      else row }⟩

end Database

end Inventory
