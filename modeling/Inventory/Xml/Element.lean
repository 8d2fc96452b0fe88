import Inventory.Xml.Reference

/-!
Tags of elements, and the namespaces that they declare. A qualifier must be bound by the element
itself or by one around it.
-/
namespace Inventory.Xml

structure Attribute where
  name : QualifiedName
  value : List Char

/-- The namespaces that qualifiers are bound to, innermost first. -/
abbrev Scope := List (List Char × List Char)

/-- The namespace of the qualifier `xml`. -/
def ownNamespace : List Char :=
  "http://www.w3.org/XML/1998/namespace".toList

/-- The namespace of the declarations of namespaces. -/
def declarationNamespace : List Char :=
  "http://www.w3.org/2000/xmlns/".toList

/-- The scope around a document. -/
def Scope.outermost : Scope :=
  [("xml".toList, ownNamespace)]

/-- Reads an attribute, with space around its equals sign or not. -/
def readAttribute (value? : List Char → Option (List Char)) (cs : List Char) :
    Option (Attribute × List Char) := do
  let (name, rest) ← readQualifiedName cs
  match rest.dropWhile isSpace with
  | '=' :: rest =>
    let (raw, rest) ← readQuoted (rest.dropWhile isSpace)
    return (⟨name, ← readValue value? raw.length raw⟩, rest)
  | _ => none

/-- Reads the attributes of a tag and its end; tells whether the tag is empty. Space must stand
in front of every attribute. -/
def readAttributes (value? : List Char → Option (List Char)) :
    (fuel : Nat) → List Char → Option (List Attribute × Bool × List Char)
  | 0, _ => none
  | fuel + 1, cs =>
    match cs.dropWhile isSpace with
    | '>' :: rest => some ([], false, rest)
    | '/' :: '>' :: rest => some ([], true, rest)
    | body =>
      if !cs.head?.any isSpace then none
      else do
        let (a, rest) ← readAttribute value? body
        let (others, isEmpty, rest) ← readAttributes value? fuel rest
        return (a :: others, isEmpty, rest)

/-- The qualifier that an attribute binds; the empty one stands for names without a qualifier. -/
def Attribute.declared? (a : Attribute) : Option (List Char) :=
  if a.name = ⟨none, "xmlns".toList⟩ then some []
  else if a.name.qualifier = some "xmlns".toList then some a.name.base
  else none

/-- A qualifier may be bound to a namespace: only the default may be bound to nothing, and what
belongs to markup itself stays as it is. -/
def mayBind (qualifier namespaceName : List Char) : Bool :=
  (qualifier.isEmpty || !namespaceName.isEmpty) && qualifier != "xmlns".toList &&
    !namespaceName.contains '}' &&
    (qualifier == "xml".toList) == (namespaceName == ownNamespace) &&
    namespaceName != declarationNamespace

/-- The scope inside a tag. -/
def Scope.enter (scope : Scope) : List Attribute → Option Scope
  | [] => some scope
  | a :: rest =>
    match a.declared? with
    | some qualifier =>
      if mayBind qualifier a.value then Scope.enter ((qualifier, a.value) :: scope) rest else none
    | none => Scope.enter scope rest

/-- The namespace of a qualifier; names without one have none. -/
def Scope.namespace? (scope : Scope) : Option (List Char) → Option (Option (List Char))
  | none => some none
  | some qualifier => (scope.lookup qualifier).map some

/-- The names of attributes that declare nothing, with their namespaces. -/
def Scope.expand (scope : Scope) : List Attribute → Option (List (Option (List Char) × List Char))
  | [] => some []
  | a :: rest => do
    let others ← Scope.expand scope rest
    if a.declared?.isSome then return others
    else return (← scope.namespace? a.name.qualifier, a.name.base) :: others

def allDistinct [BEq α] : List α → Bool
  | [] => true
  | a :: rest => !rest.contains a && allDistinct rest

/-- The scope inside a tag whose names are all bound and whose attributes are distinct. -/
def Scope.ofTag? (scope : Scope) (name : QualifiedName) (attributes : List Attribute) :
    Option Scope := do
  let inner ← scope.enter attributes
  discard (inner.namespace? name.qualifier)
  let expanded ← inner.expand attributes
  if allDistinct (attributes.map (·.name)) && allDistinct expanded then return inner else none

end Inventory.Xml
