import Inventory.Text.Charset
import Inventory.Xml.Doctype

/-!
Well-formed documents: one element with its content, after an optional declaration and document
type, with comments and instructions around it.
-/
namespace Inventory.Xml

/-! ### The declaration -/

/-- Reads an item `name="value"` of the declaration; there is none at the end. -/
def readItem (cs : List Char) : Option (Option (List Char × List Char) × List Char) :=
  match cs.dropWhile isSpace with
  | [] => some (none, [])
  | body =>
    if !cs.head?.any isSpace then none
    else do
      let name := body.takeWhile fun c => c != '=' && !isSpace c
      match (body.dropWhile fun c => c != '=' && !isSpace c).dropWhile isSpace with
      | '=' :: rest =>
        let (value, rest) ← readQuoted (rest.dropWhile isSpace)
        if value.all fun c => c.isAlphanum || c == '.' || c == '-' || c == '_' then
          return (some (name, value), rest)
        else none
      | _ => none

/-- What the declaration of a document says beside its version. -/
structure Header where
  encoding : Option (List Char)
  /-- The document stands alone. -/
  isAlone : Bool

/-- Reads what the declaration says after its version. The name of an encoding starts with a
letter. -/
def readSettings (cs : List Char) : Option Header := do
  let (first, rest) ← readItem cs
  let encoding := (first.filter (·.1 = "encoding".toList)).map Prod.snd
  let (item, rest) ←
    match encoding with
    | some name => if name.head?.any Char.isAlpha then readItem rest else none
    | none => some (first, rest)
  match item with
  | none => some ⟨encoding, false⟩
  | some (name, value) =>
    if name ≠ "standalone".toList || !(rest.all isSpace) then none
    else if value = "yes".toList then some ⟨encoding, true⟩
    else if value = "no".toList then some ⟨encoding, false⟩
    else none

/-- Takes off the declaration at the head, if there is one. -/
def readHeader (cs : List Char) : Option (Header × List Char) :=
  match strip? "<?xml".toList cs with
  | some body =>
    if body.head?.any isNamePart || body.head? = some ':' then some (⟨none, false⟩, cs)
    else do
      let rest ← after "?>".toList body
      let inside := body.take (body.length - rest.length - 2)
      let (item, settings) ← readItem inside
      match item with
      | some (name, _) =>
        if name = "version".toList then return (← readSettings settings, rest) else none
      | none => none
  | none => some (⟨none, false⟩, cs)

/-- The character with a code in ISO-8859-1. The ordinal indicators and the micro sign can stand
in names there; letters of other charsets stand for them. -/
def latinLetter (code : Nat) : Char :=
  if code = 0xaa then 'ā' else if code = 0xb5 then 'μ' else if code = 0xba then 'ō'
  else Char.ofNat code

/-- The charset of a declared encoding. Two bytes a character cannot be what a document is in
whose declaration could be read. -/
def charsetOf (encoding : List Char) : Except Text.CharsetFault Text.Charset :=
  match (String.ofList encoding).toLower with
  | "utf-8" => .ok .utf8
  | "us-ascii" => .ok .ascii
  | "iso-8859-1" => .ok (.page ((List.range 128).map fun i => latinLetter (128 + i)) [])
  | "utf-16" | "utf-16be" | "utf-16le" => .ok .foreign
  | _ => Text.Charset.named (String.ofList encoding)

/-! ### Content -/

/-- An element whose end is still to come, with the scope inside. -/
structure OpenElement where
  name : QualifiedName
  scope : Scope

/-- The attributes that an element has by default, beside those that its tag gives. -/
def Doctype.missing (d : Doctype) (element : QualifiedName) (given : List Attribute) :
    List Attribute :=
  d.attributeTypes.filterMap fun t =>
    if t.element = element && !given.any (·.name = t.name) then t.default?.map (⟨t.name, ·⟩)
    else none

/-- An attribute of an element with its value as it counts. -/
def Doctype.counted (d : Doctype) (element : QualifiedName) (a : Attribute) : Attribute :=
  { a with value := (d.attributeType? element a.name).elim a.value (·.valueOf a.value) }

/-- Takes off the tag of an element after its opening; tells whether the element is empty. -/
def openTag (d : Doctype) (scope : Scope) (cs : List Char) :
    Option (OpenElement × Bool × List Char) := do
  let (name, rest) ← readQualifiedName cs
  let (given, isEmpty, rest) ← readAttributes d.entities.value? cs.length rest
  let inner ← scope.ofTag? name (given.map (d.counted name) ++ d.missing name given)
  return (⟨name, inner⟩, isEmpty, rest)

/-- Takes off the end of an element after its opening. -/
def closeTag (e : OpenElement) (cs : List Char) : Option (List Char) := do
  let (name, rest) ← readQualifiedName cs
  match rest.dropWhile isSpace with
  | '>' :: rest => if e.name = name then some rest else none
  | _ => none

/-- The scope inside the innermost open element; outside of all of them it is `outer`. -/
def innermost (outer : Scope) (elements : List OpenElement) : Scope :=
  (elements.head?.map (·.scope)).getD outer

/-- Takes off content until its text or the element around it ends. `fits` tells whether an
entity may stand in a scope. -/
def skipContent (d : Doctype) (fits : Scope → List Char → Bool) (outer : Scope) :
    (fuel : Nat) → (elements : List OpenElement) → List Char → Option (List Char)
  | 0, _, _ => none
  | fuel + 1, elements, cs =>
    match cs with
    | [] => if elements.isEmpty then some [] else none
    | '<' :: '!' :: '-' :: '-' :: rest => do
      skipContent d fits outer fuel elements (← skipComment rest)
    | '<' :: '!' :: rest => do
      skipContent d fits outer fuel elements (← after "]]>".toList (← strip? "[CDATA[".toList rest))
    | '<' :: '?' :: rest => do skipContent d fits outer fuel elements (← skipInstruction rest)
    | '<' :: '/' :: rest =>
      match elements with
      | [] => some cs
      | e :: elements => do skipContent d fits outer fuel elements (← closeTag e rest)
    | '<' :: rest => do
      let (e, isEmpty, rest) ← openTag d (innermost outer elements) rest
      skipContent d fits outer fuel (if isEmpty then elements else e :: elements) rest
    | '&' :: rest => do
      match ← readReference rest with
      | (.char _, rest) => skipContent d fits outer fuel elements rest
      | (.entity name, rest) =>
        if fits (innermost outer elements) name then skipContent d fits outer fuel elements rest
        else none
    | ']' :: ']' :: '>' :: _ => none
    | _ :: rest => skipContent d fits outer fuel elements rest

/-- The text of an entity may stand in a scope: it is content by itself. -/
def Doctype.entityFits (d : Doctype) : (depth : Nat) → (scope : Scope) → (name : List Char) → Bool
  | 0, _, _ => false
  | depth + 1, scope, name =>
    match d.entities.texts.lookup name with
    | some (some text) =>
      skipContent d (d.entityFits depth) scope (text.length + 1) [] text == some []
    | _ => false

/-- Takes off the root element with its content. -/
def skipRoot (d : Doctype) (cs : List Char) : Option (List Char) := do
  let rest ← strip? "<".toList cs
  let (e, isEmpty, rest) ← openTag d Scope.outermost rest
  if isEmpty then return rest
  let fits := d.entityFits d.entities.depth
  let rest ← skipContent d fits e.scope (rest.length + 1) [] rest
  closeTag e (← strip? "</".toList rest)

/-- The growth is borne up to the end of a document of which `rest` is to be read. -/
def Doctype.isGrowthBorne (d : Doctype) (size : Char → Nat) (read : Nat) (rest : List Char) :
    Bool :=
  d.entities.texts.isEmpty ||
    Growth.isBorneBy (d.entities.sizes d.entities.depth) ⟨read, d.added⟩
      (piecesOf size rest.length rest)

/-- What is left of a document after its one element and all that may stand around it. `read` is
the size of its declaration. -/
def skipDocument (isAlone : Bool) (size : Char → Nat) (read : Nat) (cs : List Char) :
    Option (List Char) := do
  let rest ← skipMisc cs.length cs
  let (d, rest) ← Doctype.read isAlone rest
  let rest ← skipMisc cs.length rest
  let prolog := cs.take (cs.length - rest.length)
  if !d.isGrowthBorne size (read + sizeBy size prolog) rest then none
  let rest ← skipRoot d rest
  skipMisc cs.length rest

/-- Whether a text is a well-formed document, with a byte order mark in front or not. A document
in an unknown encoding is neither. -/
def check (text : List Char) : Except Text.CharsetFault Bool :=
  match readHeader ((strip? ['\ufeff'] text).getD text) with
  | none => .ok false
  | some (header, rest) => do
    let charset ← header.encoding.elim (.ok .utf8) charsetOf
    let read := sizeBy Char.utf8Size (text.take (text.length - rest.length))
    match charset.read? rest with
    | some body =>
      return body.all isChar && skipDocument header.isAlone charset.size read body == some []
    | none => return false

/-- The text is a well-formed document. -/
def isWellFormed (text : List Char) : Bool :=
  match check text with
  | .ok isFit => isFit
  | .error _ => false

end Inventory.Xml
