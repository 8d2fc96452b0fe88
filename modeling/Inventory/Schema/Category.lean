import Inventory.Schema.Coercion
import Inventory.Schema.Name

/-!
Categories: an id and an ordered, non-empty list of typed fields with distinct names. Fields are
only ever added, at the end.
-/
namespace Inventory

structure FieldDef where
  name : String
  type : FieldType
  deriving DecidableEq, Repr

namespace FieldDef

/-- A field with a checked name; the type is read before the name is checked. -/
def create (name : Value) (type : String) : Except Fault FieldDef := do
  let type ← FieldType.ofText type
  let name ← Name.checkField name
  return ⟨name, type⟩

/-- A field from a definition `name:type`. -/
def ofText (text : String) : Except Fault FieldDef :=
  match text.toList.dropWhile (· != ':') with
  | ':' :: code =>
    if code.isEmpty || code.contains ':' then .error (.badFieldDefinition text)
    else create (.text (String.ofList (text.toList.takeWhile (· != ':')))) (String.ofList code)
  | _ => .error (.badFieldDefinition text)

/-- The definition of a field. -/
def toText (f : FieldDef) : String :=
  f.name ++ ":" ++ f.type.code

end FieldDef

structure Category where
  id : String
  fields : List FieldDef
  deriving DecidableEq, Repr

namespace Category

/-- Checks the names of fields that follow others with the names `seen`. -/
def checkFields (id : String) :
    (seen : List String) → List (Value × FieldType) → Except Fault (List FieldDef)
  | _, [] => .ok []
  | seen, (given, type) :: rest => do
    let name ← Name.checkField given
    if seen.contains name then throw (.repeatedField given.shown id)
    let others ← checkFields id (name :: seen) rest
    return ⟨name, type⟩ :: others

/-- A category from an id and fields in any case. That fields are missing is found before a
fault of the id. -/
def define (id : Value) (fields : List (Value × FieldType)) : Except Fault Category := do
  if fields.isEmpty then throw (.about id (.emptySchema id))
  let canonical ← Name.checkCategory id
  return ⟨canonical, ← checkFields id.shown [] fields⟩

/-- The field with a name, in any case. -/
def field? (c : Category) (name : String) : Option FieldDef :=
  let lowered := Text.lower name
  c.fields.find? (·.name == lowered)

def fieldNames (c : Category) : List String :=
  c.fields.map (·.name)

/-- The category with one more field. -/
def withField (c : Category) (f : FieldDef) : Category :=
  { c with fields := c.fields ++ [f] }

end Category

end Inventory
