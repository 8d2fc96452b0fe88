import Inventory.Label.Template
import Inventory.Store

/-!
What the placeholders of a label may name: the properties of an entry, and the fields of its
category as it is now.
-/
namespace Inventory

/-- The text of a value on a label; null is blank. -/
def Value.labelText : Value → String
  | .null => ""
  | v => v.shown

/-- The text of a value on a label, if the value can be written. -/
def Value.writeLabel (v : Value) : Except Fault String :=
  if v.isWritable then .ok v.labelText else .error .unwritable

namespace Entry

/-- The texts of an entry by the names of its properties and of the fields of a category. -/
def bindings (e : Entry) (c : Category) : Mapping String :=
  Mapping.ofPairs
    ((propertyNames.map fun name => (name, ((e.property? name).getD .null).labelText)) ++
      c.fieldNames.map fun name => (name, ((e.fields.get? name).getD .null).labelText))

end Entry

namespace Store

/-- The bindings of an entry under its category. -/
def bindings (e : Entry) : Action (Mapping String) := do
  return e.bindings (← Registry.resolve e.category)

/-- Fills a template with an entry. -/
def fill (t : Template) (e : Entry) (strict : Bool) : Action Label := do
  let bound ← bindings e
  Action.ofExcept (t.fill bound.get? strict)

end Store

end Inventory
