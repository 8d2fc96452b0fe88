import Inventory.Xml.Reference

/-!
Entities that a document declares: names for texts. The text of an entity may refer to other
entities, but never, on any way, to itself.
-/
namespace Inventory.Xml

structure Entities where
  /-- The texts by their names; none where the text is not in the document. -/
  texts : List (List Char × Option (List Char))
  /-- There may be declarations elsewhere, so an unknown name is no error everywhere. -/
  isPartial : Bool

namespace Entities

/-- A bound on the length of a chain of references in which no name comes twice. -/
def depth (e : Entities) : Nat :=
  e.texts.length + 1

/-- The text for which an entity stands in the value of an attribute. -/
def expand (e : Entities) : (depth : Nat) → (name : List Char) → Option (List Char)
  | 0, _ => none
  | depth + 1, name =>
    match e.texts.lookup name with
    | some (some text) => readValue (e.expand depth) text.length text
    | some none => none
    | none => if e.isPartial then some [] else none

def value? (e : Entities) (name : List Char) : Option (List Char) :=
  e.expand e.depth name

/-- Adds an entity unless there is one with its name. -/
def add (e : Entities) (name : List Char) (text : Option (List Char)) : Entities :=
  if (e.texts.lookup name).isSome then e else { e with texts := e.texts ++ [(name, text)] }

end Entities

end Inventory.Xml
