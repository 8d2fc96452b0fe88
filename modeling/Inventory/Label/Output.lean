import Inventory.Fault
import Inventory.File.Path

/-!
Where labels go. A relative output stays strictly below its directory, whatever steps upwards it
takes; an absolute one is taken as it is given.
-/
namespace Inventory.Label

/-- The ending that outputs must have, in any case. -/
def outputSuffix : String := ".svg"

/-- The place of an output given as a text, seen from a directory. -/
def output (text : String) (base : Path) : Except Fault Path :=
  let requested := Path.ofText text
  let root := base.resolve
  let target := (root.join requested).resolve
  if Text.lower requested.suffix != outputSuffix then .error (.outputNotSvg text)
  else if requested.holdsNull then .error .nullCharacter
  else if requested.isAbsolute || root.isAbove target then .ok target
  else .error (.outputOutside text root.toText)

end Inventory.Label
