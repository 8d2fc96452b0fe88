import Inventory.Command.Assignment
import Inventory.Command.Run
import Inventory.Console.View
import Inventory.Import.Creation
import Inventory.Store

/-!
The commands about entries: adding, importing, showing, changing, deleting, listing and
searching them.
-/
namespace Inventory.Command

open Console Run

/-- The values that assignments give; the first text that is no assignment is shown. -/
def readAssignments (texts : List String) : Run (Mapping Value) :=
  match Assignment.readAll texts with
  | .ok values => return values.map fun (name, value) => (name, .text value)
  | .error text => fail (Message.badAssignment text)

def addEntry (database : Option Path) (category key location : String) (quantity : Int)
    (assignments : List String) : Run Unit := do
  let values ← readAssignments assignments
  let db ← openInventory database
  let e ← perform db (Store.create category (.text key) (.text location) (.int quantity) values)
  showTable (entryTable e)
  showDone ("Added " ++ escape e.key ++ " to " ++ escape e.category)

def findEntry (database : Option Path) (key : String) : Run Unit := do
  let db ← openInventory database
  showTable (entryTable (← perform db (Store.find key)))

def modifyEntry (database : Option Path) (key : String) (assignments : List String) : Run Unit := do
  let values ← readAssignments assignments
  let db ← openInventory database
  let e ← perform db (Store.modify key values)
  showTable (entryTable e)
  showDone ("Modified " ++ escape e.key)

/-- Changes a quantity and shows what it is then. -/
def changeQuantity (database : Option Path) (change : Action Entry) : Run Unit := do
  let db ← openInventory database
  let e ← perform db change
  showDone (escape e.key ++ ": quantity " ++ e.quantity.shown)

def deleteEntry (database : Option Path) (key : String) (sure : Bool) : Run Unit := do
  let db ← openInventory database
  let e ← perform db (Store.find key)
  showTable (entryTable e)
  if !sure then
    showLine Message.deletionIsFinal
    confirmed "Delete this entry?" "[dim]Cancelled.[/]"
  perform db (Store.delete e.key)
  showDone ("Deleted " ++ escape e.key)

def listEntries (database : Option Path) (category : String) : Run Unit := do
  let db ← openInventory database
  let c ← perform db (Registry.resolve category)
  showTable (entriesTable c (← perform db (Store.list c.id)))

def searchEntries (database : Option Path) (category : String) (constraints : List String) :
    Run Unit := do
  let db ← openInventory database
  let c ← perform db (Registry.resolve category)
  let matching ← perform db (Store.search c.id constraints)
  if matching.isEmpty then showLine "[dim]No matching entries.[/]"
  else showTable (entriesTable c matching)

/-! ### Importing -/

/-- The path says that a directory is meant. -/
def meansDirectory (text : String) : Bool :=
  text.endsWith "/" || text.endsWith "/."

/-- The batch in a file. That there is no file is a fault of the command line. -/
def readBatch (file : String) : Run ImportBatch := do
  let s ← surroundings
  let p := Path.ofText file
  match s.disk.file? s.work p with
  | .error _ | .ok none => exit 2
  | .ok (some content) =>
    if meansDirectory file then exit 2
    accepted [.importFormat, .notUtf8] (ImportBatch.ofBytes p.toText content.toBytes)

/-- Shows the message of a fault and where it arose. -/
def failAt (f : Fault) : Run α := do
  showLine (Message.ofFault f)
  for note in f.notes do
    showLine ("  [dim]" ++ escape note ++ "[/]")
  exit 1

def importEntries (database : Option Path) (file : String) : Run Unit := do
  let batch ← readBatch file
  let db ← openInventory database
  let created ← orFault FaultKind.isOwn failAt (← attempt db batch.create)
  showDone (s!"Imported {created.length} entries into " ++ escape batch.category)

end Inventory.Command
