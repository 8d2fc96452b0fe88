import Inventory.Database.Session

/-!
Direct access to the rows, past the checks and the cache of the store.
-/
namespace Inventory.Direct

/-- Adds a row as it is given. -/
def addEntry (key categoryId : String) (location quantity : Value) (fields : Mapping Value) :
    Action Unit :=
  Action.transaction do
    discard <| Action.write fun now db => do
      Database.checkFields fields
      let location ← Database.textCell "location" 3 location
      Database.addEntry now key categoryId location quantity fields db

/-- The record with a key, if there is one. -/
def record? (key : String) : Action (Option Record) :=
  Action.read (·.record? key)

/-- The records filed under a category with exactly this id, in order of insertion. -/
def records (categoryId : String) : Action (List Record) :=
  Action.read fun db => Database.readRecords (db.entriesOf categoryId)

/-- Adds to a quantity unless the sum would be negative; tells whether it did. -/
def adjust (key : String) (delta : Int) : Action Bool :=
  Action.transaction do
    return (← Action.write fun now => Database.adjustQuantity now key delta) = 1

/-- The category with exactly this id, if there is one. -/
def category? (id : String) : Action (Option Category) :=
  Action.read fun db =>
    match db.category? id with
    | some row => row.category.map some
    | none => .ok none

/-- Those of the given keys that entries have, in order. -/
def existingKeys (keys : List String) : Action (List String) := do
  let db := (← get).db
  return (keys.eraseDups.filter db.hasKey).mergeSort (· ≤ ·)

/-- Changes rows at once, whatever the store would say; gives the number of rows. -/
def change (f : Database.Statement) : Action Nat :=
  Action.transaction (Action.write fun _ => f)

end Inventory.Direct
