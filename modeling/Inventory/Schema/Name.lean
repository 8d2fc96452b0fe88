import Inventory.Fault

/-!
Names of categories and fields: ASCII letters, digits and underscores, not starting with a
digit, kept in lower case. Field names share a space with the properties of an entry, so those
are reserved.
-/
namespace Inventory.Name

def isStart (c : Char) : Bool :=
  c.isAlpha || c == '_'

def isPart (c : Char) : Bool :=
  c.isAlphanum || c == '_'

/-- A text without the line feed at its end, if it has one there. -/
def body (s : String) : List Char :=
  match s.toList.getLast? with
  | some '\n' => s.toList.dropLast
  | _ => s.toList

/-- The text is a name in any case, with or without a line feed at the end. -/
def isName (s : String) : Bool :=
  match body s with
  | [] => false
  | c :: rest => isStart c && rest.all isPart

/-- The names of an entry's properties, and of the next unused key in a template. -/
def reserved : List String :=
  ["key", "location", "quantity", "catagory", "created", "modified", "next_key"]

/-- The canonical form of a name, which is in lower case. `what` says what the name is for. -/
def check (name : Value) (what : String) (allowReserved : Bool) : Except Fault String :=
  match name with
  | .text s =>
    if !isName s then .error (.badName name what)
    else
      let canonical := Text.lower s
      if !allowReserved && reserved.contains canonical then .error (.reservedName s what)
      else .ok canonical
  | _ => .error (.about name (.badName name what))

/-- The canonical form of a field name. -/
def checkField (name : Value) : Except Fault String :=
  check name "field name" false

/-- The canonical form of a category id. -/
def checkCategory (id : Value) : Except Fault String :=
  check id "catagory id" true

end Inventory.Name
