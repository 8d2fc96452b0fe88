import Inventory.Xml.Declaration
import Inventory.Xml.Growth

/-!
The type of a document, as far as the document itself declares it. Parts of it may be elsewhere;
they are not read, and then it is not known which entities there are.
-/
namespace Inventory.Xml

structure Doctype where
  entities : Entities
  attributeTypes : List AttributeType
  /-- How much entities added in defaults of attributes. -/
  added : Nat
  /-- The document says that it stands alone: declarations elsewhere do not matter to it. -/
  isAlone : Bool
  /-- Declarations are kept. They no longer are after a part that is elsewhere, unless the
  document stands alone. -/
  isKept : Bool

namespace Doctype

/-- The type of a document that declares nothing. -/
def bare (isAlone : Bool) : Doctype :=
  ⟨⟨[], false⟩, [], 0, isAlone, true⟩

/-- The type with a part elsewhere. -/
def withExternal (d : Doctype) : Doctype :=
  { d with entities := { d.entities with isPartial := !d.isAlone } }

/-- The type after a reference to a part that is not read. -/
def afterReference (d : Doctype) : Doctype :=
  { d.withExternal with isKept := d.isAlone }

/-- The type of an attribute, as it is declared first. -/
def attributeType? (d : Doctype) (element name : QualifiedName) : Option AttributeType :=
  d.attributeTypes.find? fun t => t.element = element ∧ t.name = name

/-- Adds attributes whose defaults still hold references. The first declaration of an attribute
counts. -/
def addAttributeTypes (d : Doctype) : List AttributeType → Option Doctype
  | [] => some d
  | new :: rest => do
    let raw := new.default?.getD []
    let value ← readValue d.entities.value? raw.length raw
    let type := { new with default? := new.default?.map fun _ => new.valueOf value }
    let more := Xml.added (d.entities.sizes d.entities.depth) (namesIn raw)
    let d := { d with added := d.added + more }
    addAttributeTypes
      (if (d.attributeType? new.element new.name).isSome then d
        else { d with attributeTypes := d.attributeTypes ++ [type] })
      rest

/-- The type with one more declaration. -/
def declare (d : Doctype) (keyword : List Char) (marks : List Mark) : Option Doctype :=
  match String.ofList keyword, marks with
  | "ENTITY", .word .name name none :: rest => do
    let text ← readEntityText d.isKept true rest
    return if d.isKept then { d with entities := d.entities.add name text } else d
  | "ENTITY", .percent :: .word .name _ none :: rest => do
    discard (readEntityText d.isKept false rest)
    return d
  | "ATTLIST", .word kind text none :: rest => do
    let types ← readAttributeTypes (← kind.toName text) rest.length rest
    if d.isKept then d.addAttributeTypes types else return d
  | "ELEMENT", marks => if isElement marks then some d else none
  | "NOTATION", marks => if isNotation marks then some d else none
  | _, _ => none

/-- Takes off declarations up to the bracket that closes them. -/
def readSubset : (fuel : Nat) → Doctype → List Char → Option (Doctype × List Char)
  | 0, _, _ => none
  | fuel + 1, d, cs =>
    match cs with
    | ']' :: rest => some (d, rest)
    | '%' :: rest => do
      let (_, rest) ← readName rest
      readSubset fuel d.afterReference (← strip? ";".toList rest)
    | '<' :: '!' :: '-' :: '-' :: rest => do readSubset fuel d (← skipComment rest)
    | '<' :: '?' :: rest => do readSubset fuel d (← skipInstruction rest)
    | '<' :: '!' :: rest => do
      let keyword := rest.takeWhile Char.isAlpha
      let rest := rest.dropWhile Char.isAlpha
      if !rest.head?.any isSpace then none
      else do
        let (marks, rest) ← readMarks rest.length rest
        readSubset fuel (← d.declare keyword marks) rest
    | c :: rest => if isSpace c then readSubset fuel d rest else none
    | [] => none

/-- Reads where the rest of the type is found, if it is somewhere. -/
def readExternal (d : Doctype) (cs : List Char) : Option (Doctype × List Char) :=
  match strip? "SYSTEM".toList cs, strip? "PUBLIC".toList cs with
  | some rest, _ => do
    let (_, rest) ← readLiteral rest
    return (d.withExternal, rest)
  | none, some rest => do
    let (name, rest) ← readLiteral rest
    if !name.all isPublic then none
    let (_, rest) ← readLiteral rest
    return (d.withExternal, rest)
  | none, none => some (d, cs)
where
  /-- A literal after space, which stands apart from what follows. -/
  readLiteral (cs : List Char) : Option (List Char × List Char) := do
    if !cs.head?.any isSpace then none
    let (value, rest) ← readQuoted (cs.dropWhile isSpace)
    if endsBefore ">[".toList rest then return (value, rest) else none

/-- Takes off the type of a document at the head, if there is one. -/
def read (isAlone : Bool) (cs : List Char) : Option (Doctype × List Char) :=
  match strip? "<!DOCTYPE".toList cs with
  | none => some (bare isAlone, cs)
  | some rest => do
    if !rest.head?.any isSpace then none
    let (_, rest) ← readQualifiedName (rest.dropWhile isSpace)
    let (d, rest) ←
      if rest.head?.any isSpace then (bare isAlone).readExternal (rest.dropWhile isSpace)
      else some (bare isAlone, rest)
    let (d, rest) ←
      match rest.dropWhile isSpace with
      | '[' :: rest => readSubset rest.length d rest
      | rest => some (d, rest)
    let rest ← strip? ">".toList (rest.dropWhile isSpace)
    return (d, rest)

end Doctype

end Inventory.Xml
