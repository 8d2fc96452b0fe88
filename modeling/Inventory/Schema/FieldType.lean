/-!
The types a field can have, with their one-letter codes and their names.
-/
namespace Inventory

inductive FieldType where
  | text
  | integer
  | real
  deriving DecidableEq, Repr

namespace FieldType

def all : List FieldType :=
  [.text, .integer, .real]

/-- The letter that stands for the type in a definition. -/
def code : FieldType → String
  | .text => "t"
  | .integer => "i"
  | .real => "r"

/-- The name of the type inside a sentence. -/
def word : FieldType → String
  | .text => "text"
  | .integer => "integer"
  | .real => "real"

/-- The name of the type as a label. -/
def label : FieldType → String
  | .text => "TEXT"
  | .integer => "INTEGER"
  | .real => "REAL"

/-- The type with exactly this code. -/
def withCode? (code : String) : Option FieldType :=
  all.find? (·.code == code)

end FieldType

end Inventory
