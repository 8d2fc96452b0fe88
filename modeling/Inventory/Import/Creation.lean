import Inventory.Import.Batch
import Inventory.Store

/-!
Creating the entries of a batch, row by row. Each row is a change of its own: a fault
ends the import and says at which row, and the entries of the rows before it stay.
-/
namespace Inventory.ImportBatch

/-- The entry of one row. A fault of the inventory's own kinds says where it arose. -/
def createRow (category : String) (row : ImportRow) : Action Entry :=
  tryCatch
    (Store.create category (.text row.key) (.text row.location) (.int row.quantity)
      (row.fields.map fun (name, value) => (name, .text value)))
    fun f => throw (if f.kind.isOwn then .importing row.line row.key f else f)

def createRows (category : String) : List ImportRow → Action (List Entry)
  | [] => return []
  | row :: rest => do
    let e ← createRow category row
    return e :: (← createRows category rest)

/-- Creates an entry for each row, in order. -/
def create (batch : ImportBatch) : Action (List Entry) :=
  createRows batch.category batch.rows

end Inventory.ImportBatch
