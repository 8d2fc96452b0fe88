import Inventory.Schema.Category

/-!
Entries as readers see them: one value for each field that the category declares, in the order of
declaration, beside the properties every entry has.
-/
namespace Inventory

structure Entry where
  key : String
  category : String
  location : String
  quantity : Value
  fields : Mapping Value
  created : Option String
  modified : Option String

namespace Entry

/-- A property that every entry has, by its name. -/
def property? (e : Entry) : (name : String) → Option Value
  | "key" => some (.text e.key)
  | "location" => some (.text e.location)
  | "quantity" => some e.quantity
  | "catagory" => some (.text e.category)
  | "created" => some (e.created.elim .null .text)
  | "modified" => some (e.modified.elim .null .text)
  | _ => none

/-- The names of the properties. -/
def propertyNames : List String :=
  ["key", "location", "quantity", "catagory", "created", "modified"]

/-- A property or a field by its name in any case; null if there is none. -/
def value (e : Entry) (name : String) : Value :=
  let lowered := Text.lower name
  (e.property? lowered).getD ((e.fields.get? lowered).getD .null)

end Entry

end Inventory
