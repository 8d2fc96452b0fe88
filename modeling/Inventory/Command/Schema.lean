import Inventory.Command.Run
import Inventory.Console.View
import Inventory.Registry

/-!
The commands about categories: defining, extending, removing and listing them.
-/
namespace Inventory.Command

open Console Run

/-- The field that a text defines; a fault is shown. -/
def readField (text : String) : Run FieldDef :=
  orFault (fun _ => true) (fun f => fail (Message.invalidInput f.message)) (FieldDef.ofText text)

def defineCategory (database : Option Path) (category : String) (fields : List String) :
    Run Unit := do
  let db ← openInventory database
  let defs ← fields.mapM readField
  let c ← perform db
    (Registry.define (.text category) (defs.map fun f => (.text f.name, f.type)))
  showTable (categoryTable c)
  showDone ("Added catagory " ++ escape c.id)

def extendCategory (database : Option Path) (category field : String) : Run Unit := do
  let f ← readField field
  let db ← openInventory database
  let c ← perform db (Registry.addField category (.text f.name) f.type)
  showTable (categoryTable c)
  showDone ("Added field " ++ escape f.name ++ " to " ++ escape c.id)

def dropCategory (database : Option Path) (category : String) (sure : Bool) : Run Unit := do
  let db ← openInventory database
  let c ← perform db (Registry.resolve category)
  showTable (categoryTable c)
  if !sure then confirmed "Remove this catagory?" "[dim]Cancelled.[/]"
  perform db (Registry.remove c.id)
  showDone ("Removed catagory " ++ escape c.id)

def listCategories (database : Option Path) : Run Unit := do
  let db ← openInventory database
  let stats ← perform db Registry.stats
  if stats.isEmpty then
    showLine "[dim]No catagories yet.[/]  Run:  pinv add-catagory NAME FIELD:TYPE ..."
  else showTable (categoriesTable stats)

end Inventory.Command
