import Inventory.Entry
import Inventory.Query.Comparison

/-!
Constraints: a field of an entry compared with an operand of its type. A null field satisfies no
comparison with a value, inequality included; a null operand asks whether the field is null or
not.
-/
namespace Inventory

structure Constraint where
  field : FieldDef
  comparison : Comparison
  operand : Value

namespace Constraint

/-- The properties of entries that can be constrained like fields. -/
def properties : List FieldDef :=
  [⟨"key", .text⟩, ⟨"location", .text⟩, ⟨"quantity", .integer⟩]

/-- A declared field or a property, by its name in any case. -/
def target? (c : Category) (name : String) : Option FieldDef :=
  (c.field? name).orElse fun _ => properties.find? (·.name == Text.lower name)

def target (c : Category) (name : String) : Except Fault FieldDef :=
  match target? c name with
  | some f => .ok f
  | none => .error (.unknownField c.id name)

/-- Names the field in a fault of its value's type; other faults pass. -/
def nameField (field : String) : Except Fault α → Except Fault α
  | .error f => .error (if f.kind = .typeMismatch then .inField field f else f)
  | r => r

/-- A constraint on a field, with an operand of any kind that the field's type can take. -/
def onField (f : FieldDef) (comparison : Comparison) (operand : Value) :
    Except Fault Constraint := do
  if !comparison.fits f.type then throw (.unfitOperator comparison.symbol f.name f.type)
  let operand ← nameField f.name (f.type.coerce operand)
  if operand.isNull && !comparison.takesNull then
    throw (.operandMissing comparison.symbol f.name)
  return ⟨f, comparison, operand⟩

/-- A constraint on the field with a name. -/
def make (c : Category) (name : String) (comparison : Comparison) (operand : Value) :
    Except Fault Constraint := do
  onField (← target c name) comparison operand

/-- A constraint whose comparison is given as a text. The name is looked up first. -/
def makeNamed (c : Category) (name operator : String) (operand : Value) :
    Except Fault Constraint := do
  let f ← target c name
  onField f (← Comparison.ofText operator) operand

/-- The comparison symbol at the head, the longer one of two that fit. -/
def symbol? : List Char → Option (Comparison × List Char)
  | '<' :: '=' :: rest => some (.le, rest)
  | '>' :: '=' :: rest => some (.ge, rest)
  | '!' :: '=' :: rest => some (.ne, rest)
  | '=' :: '=' :: rest => some (.eq, rest)
  | '=' :: rest => some (.eq, rest)
  | '<' :: rest => some (.lt, rest)
  | '>' :: rest => some (.gt, rest)
  | '~' :: rest => some (.contains, rest)
  | _ => none

/-- The name, the comparison and the operand's text of an expression `field<op>value`. -/
def split? (expression : String) : Option (String × Comparison × String) :=
  let cs := expression.toList.dropWhile Text.isBlank
  let name := cs.takeWhile Name.isPart
  if name.isEmpty then none
  else
    (symbol? ((cs.dropWhile Name.isPart).dropWhile Text.isBlank)).map fun (comparison, rest) =>
      (String.ofList name, comparison, Text.trim (String.ofList rest))

/-- A constraint from an expression; an empty operand is null. -/
def parse (c : Category) (expression : String) : Except Fault Constraint :=
  match split? expression with
  | none => .error (.badConstraint expression)
  | some (name, comparison, operand) => make c name comparison (.text operand)

/-- The expression of a constraint. -/
def toText (k : Constraint) : String :=
  k.field.name ++ k.comparison.symbol ++ (if k.operand.isNull then "" else k.operand.shown)

/-- The entry satisfies the constraint. -/
def holds (k : Constraint) (e : Entry) : Bool :=
  let value := e.value k.field.name
  if k.operand.isNull then
    if k.comparison = .eq then value.isNull else !value.isNull
  else !value.isNull && k.field.type.accepts value && k.comparison.holds value k.operand

end Constraint

/-- Constraints in the order they were added. -/
abbrev FilterSet := List Constraint

namespace FilterSet

def push (fs : FilterSet) (k : Constraint) : FilterSet :=
  fs ++ [k]

/-- The last constraint and the set without it; nothing changes when there is none. -/
def pop (fs : FilterSet) : Option Constraint × FilterSet :=
  (fs.getLast?, fs.dropLast)

/-- The entries that satisfy every constraint, in their order. -/
def apply (fs : FilterSet) (entries : List Entry) : List Entry :=
  entries.filter fun e => fs.all (·.holds e)

end FilterSet

end Inventory
