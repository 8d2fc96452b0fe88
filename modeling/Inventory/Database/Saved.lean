import Inventory.Database.Table

/-!
Saved inventories: the bytes of a file that holds a database. A title line comes first and tells
such a file from any other; the tables follow as one JSON document.
-/
namespace Inventory.Database

/-- The first line of a saved inventory. -/
def title : String := "pinv inventory\n"

/-! ### Writing -/

def textPair (pair : String × String) : Value :=
  .list [.text pair.1, .text pair.2]

def fieldDataValue : FieldData → Value
  | .mapping items => .mapping items
  | .text raw => .text raw

def categoryRowValue (row : CategoryRow) : Value :=
  .list [.text row.id, .list (row.fields.map textPair)]

def entryRowValue (row : EntryRow) : Value :=
  .list [.text row.key, .text row.categoryId, .text row.location, row.quantity.toValue,
    fieldDataValue row.fields, .text row.created, .text row.modified]

def toValue (db : Database) : Value :=
  .list [.list (db.objects.map .text),
    .list (db.versions.map fun (v, applied) => .list [.int v, .text applied]),
    .list (db.categories.map categoryRowValue), .list (db.entries.map entryRowValue)]

/-- The text of a file that holds the database. -/
def save (db : Database) : String :=
  title ++ Json.write db.toValue

/-! ### Reading -/

def text? : Value → Option String
  | .text s => some s
  | _ => none

/-- The items of a list, each one read. -/
def items? (read : Value → Option α) : Value → Option (List α)
  | .list items => items.mapM read
  | _ => none

def textPair? : Value → Option (String × String)
  | .list [.text a, .text b] => some (a, b)
  | _ => none

def version? : Value → Option (Int × String)
  | .list [.int v, .text applied] => some (v, applied)
  | _ => none

def cell? : Value → Option Cell
  | .int n => some (.int n)
  | .real x => some (.real x)
  | .text s => some (.text s)
  | _ => none

def fieldData? : Value → Option FieldData
  | .mapping items => some (.mapping items)
  | .text raw => some (.text raw)
  | _ => none

def categoryRow? : Value → Option CategoryRow
  | .list [.text id, fields] => (items? textPair? fields).map (⟨id, ·⟩)
  | _ => none

def entryRow? : Value → Option EntryRow
  | .list [.text key, .text categoryId, .text location, quantity, fields, .text created,
      .text modified] => do
    return ⟨key, categoryId, location, ← cell? quantity, ← fieldData? fields, created, modified⟩
  | _ => none

def ofValue? : Value → Option Database
  | .list [objects, versions, categories, entries] => do
    return ⟨← items? text? objects, ← items? version? versions, ← items? categoryRow? categories,
      ← items? entryRow? entries⟩
  | _ => none

/-- The database in the text of a file, if the file holds one. -/
def load? (text : String) : Option Database := do
  let document ← Json.afterWord? title.toList text.toList
  ofValue? (← Json.read? (String.ofList document))

end Inventory.Database
