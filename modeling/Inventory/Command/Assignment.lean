import Inventory.Text.Blank
import Inventory.Value

/-!
Assignments `name=value`, as commands take them for the fields of an entry. White space around
the name does not count, and the value is kept as it is.
-/
namespace Inventory.Assignment

/-- The name and the value of an assignment. -/
def read? (text : String) : Option (String × String) :=
  match text.toList.dropWhile (· != '=') with
  | [] => none
  | _ :: value =>
    let name := Text.trim (String.ofList (text.toList.takeWhile (· != '=')))
    if name.isEmpty then none else some (name, String.ofList value)

/-- The values by their names, or the first text that is no assignment. -/
def readAll (texts : List String) : Except String (Mapping String) := do
  let pairs ← texts.mapM fun text =>
    match read? text with
    | some pair => .ok pair
    | none => .error text
  return Mapping.ofPairs pairs

end Inventory.Assignment
