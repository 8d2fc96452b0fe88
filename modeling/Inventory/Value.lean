import Inventory.Number.Decimal
import Inventory.Text.Quoted

/-!
Values: what callers hand to an inventory and what field data hold. A mapping keeps its items in
order of insertion, and its keys are distinct when it is built with `Mapping.insert`.
-/
namespace Inventory

inductive Value where
  | null
  | bool (b : Bool)
  | int (n : Int)
  | real (x : Binary64)
  | text (s : String)
  | list (items : List Value)
  | mapping (items : List (String × Value))

/-- A mapping from names, in order of insertion. -/
abbrev Mapping (α : Type) := List (String × α)

namespace Mapping

/-- Gives a name a value: in its place if it is there, else at the end. -/
def insert (m : Mapping α) (name : String) (a : α) : Mapping α :=
  match m with
  | [] => [(name, a)]
  | (n, b) :: rest => if n = name then (n, a) :: rest else (n, b) :: insert rest name a

/-- The mapping of a list of pairs: a repeated name keeps its first place and takes its last
value. -/
def ofPairs (pairs : List (String × α)) : Mapping α :=
  pairs.foldl (fun m (name, a) => m.insert name a) []

/-- The value of a name. -/
def get? (m : Mapping α) (name : String) : Option α :=
  List.lookup name m

def names (m : Mapping α) : List String :=
  m.map Prod.fst

def contains (m : Mapping α) (name : String) : Bool :=
  m.names.contains name

/-- Puts all pairs of the second mapping into the first. -/
def update (m other : Mapping α) : Mapping α :=
  other.foldl (fun m (name, a) => m.insert name a) m

/-- The mapping without a name. -/
def erase (m : Mapping α) (name : String) : Mapping α :=
  m.filter (·.1 != name)

end Mapping

namespace Value

def isNull : Value → Bool
  | .null => true
  | _ => false

/-- The name of a value's kind, as messages give it. -/
def kindName : Value → String
  | .null => "NoneType"
  | .bool _ => "bool"
  | .int _ => "int"
  | .real _ => "float"
  | .text _ => "str"
  | .list _ => "list"
  | .mapping _ => "dict"

mutual

/-- The form of a value inside messages: texts are quoted. -/
def display : Value → String
  | .null => "None"
  | .bool b => if b then "True" else "False"
  | .int n => toString n
  | .real x => x.display
  | .text s => Text.quoted s
  | .list items => "[" ++ ", ".intercalate (displayItems items) ++ "]"
  | .mapping items => "\x7b" ++ ", ".intercalate (displayPairs items) ++ "\x7d"

def displayItems : List Value → List String
  | [] => []
  | v :: rest => v.display :: displayItems rest

def displayPairs : List (String × Value) → List String
  | [] => []
  | (name, v) :: rest => (Text.quoted name ++ ": " ++ v.display) :: displayPairs rest

end

mutual

/-- Every whole number in the value can be written. -/
def isWritable : Value → Bool
  | .int n => Numeral.isWritable n
  | .list items => allWritable items
  | .mapping items => pairsWritable items
  | _ => true

def allWritable : List Value → Bool
  | [] => true
  | v :: rest => v.isWritable && allWritable rest

def pairsWritable : List (String × Value) → Bool
  | [] => true
  | (_, v) :: rest => v.isWritable && pairsWritable rest

end

/-- The form of a value on its own: a text is itself. -/
def shown : Value → String
  | .text s => s
  | v => v.display

end Value

end Inventory
