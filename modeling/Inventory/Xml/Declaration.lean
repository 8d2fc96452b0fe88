import Inventory.Xml.Element
import Inventory.Xml.Entity

/-!
Declarations inside a document type: of entities, of attributes, of elements and of notations. A
declaration is read as a list of marks. Entities and the defaults of attributes are kept; what
elements may hold is not looked at.
-/
namespace Inventory.Xml

/-! ### Marks -/

inductive WordKind where
  | name
  /-- Two names with a colon between them. -/
  | qualified
  /-- A word that is no name. -/
  | token
  deriving DecidableEq

inductive Mark where
  /-- A word, with a sign of repetition after it or none. -/
  | word (kind : WordKind) (text : List Char) (sign : Option Char)
  | quoted (text : List Char)
  /-- A number sign and a word. -/
  | keyword (text : List Char)
  | percent
  | comma
  | bar
  | openGroup
  | closeGroup (sign : Option Char)
  deriving DecidableEq

/-- A name without a sign. -/
abbrev Mark.name (text : List Char) : Mark :=
  .word .name text none

def isSign (c : Char) : Bool :=
  c == '*' || c == '+' || c == '?'

/-- The next character is a space or one of `ends`. -/
def endsBefore (ends : List Char) (cs : List Char) : Bool :=
  cs.head?.any fun c => isSpace c || ends.contains c

/-- The kind of a word. -/
def WordKind.of (word : List Char) : WordKind :=
  match word.takeWhile (· != ':'), word.dropWhile (· != ':') with
  | first :: _, [] => if isNameStart first then .name else .token
  | first :: _, _ :: second =>
    if isNameStart first && !second.isEmpty && !second.contains ':' then .qualified else .token
  | [], _ => .token

/-- Reads a word with its sign. -/
def readWord (cs : List Char) : Option (Mark × List Char) :=
  let isPart c := isNamePart c || c == ':'
  let text := cs.takeWhile isPart
  let rest := cs.dropWhile isPart
  let kind := WordKind.of text
  if text.isEmpty then none
  else if endsBefore ">),|[%".toList rest then some (.word kind text none, rest)
  else
    match rest with
    | sign :: rest =>
      if isSign sign && kind != .token then some (.word kind text (some sign), rest) else none
    | [] => none

/-- Reads a mark. -/
def readMark (cs : List Char) : Option (Mark × List Char) :=
  match cs with
  | '"' :: _ | '\'' :: _ => do
    let (text, rest) ← readQuoted cs
    if endsBefore ">%[".toList rest then some (.quoted text, rest) else none
  | '#' :: rest => do
    let (text, rest) ← readName rest
    if endsBefore ")>%|".toList rest then some (.keyword text, rest) else none
  | '%' :: rest => if endsBefore ['%'] rest then some (.percent, rest) else none
  | ',' :: rest => some (.comma, rest)
  | '|' :: rest => some (.bar, rest)
  | '(' :: rest => some (.openGroup, rest)
  | ')' :: rest =>
    if endsBefore ">,|)".toList rest then some (.closeGroup none, rest)
    else
      match rest with
      | sign :: rest => if isSign sign then some (.closeGroup (some sign), rest) else none
      | [] => none
  | cs => readWord cs

/-- Reads marks up to the end of a declaration. -/
def readMarks : (fuel : Nat) → List Char → Option (List Mark × List Char)
  | 0, _ => none
  | fuel + 1, cs =>
    match cs.dropWhile isSpace with
    | '>' :: rest => some ([], rest)
    | body => do
      let (mark, rest) ← readMark body
      let (marks, rest) ← readMarks fuel rest
      return (mark :: marks, rest)

/-! ### Where a text is found -/

/-- The character may stand in a public identifier. -/
def isPublic (c : Char) : Bool :=
  c.isAlphanum || c == ' ' || c == '\n' || c == '\r' || "-'()+,./:=?;!*#@$_%".toList.contains c

/-- What follows the place of an external text. -/
def afterExternal : List Mark → Option (List Mark)
  | .word .name word none :: .quoted first :: rest =>
    if word = "SYSTEM".toList then some rest
    else
      match word == "PUBLIC".toList && first.all isPublic, rest with
      | true, .quoted _ :: rest => some rest
      | _, _ => none
  | _ => none

/-! ### Entities -/

/-- The text of an entity as it is declared: references to characters are replaced, references to
entities stay, and every line end is one character. -/
def declaredText : (fuel : Nat) → List Char → Option (List Char)
  | _, [] => some []
  | 0, _ => none
  | fuel + 1, c :: rest =>
    if c = '%' then none
    else if c = '\r' then
      if rest.head? = some '\n' then declaredText fuel rest
      else do return '\n' :: (← declaredText fuel rest)
    else if c = '&' then do
      let (reference, after) ← readReference rest
      let kept := '&' :: rest.take (rest.length - after.length)
      let text :=
        match reference, rest with
        | .char c, '#' :: _ => [c]
        | _, _ => kept
      return text ++ (← declaredText fuel after)
    else do return c :: (← declaredText fuel rest)

/-- What an entity is declared to be: a text, or one that is found elsewhere. Of a text that is
not kept nothing matters. -/
def readEntityText (isKept mayBeUnparsed : Bool) : List Mark → Option (Option (List Char))
  | [.quoted raw] => if isKept then (declaredText raw.length raw).map some else some none
  | marks => do
    match ← afterExternal marks with
    | [] => return none
    | [.word .name word none, .word .name _ none] =>
      if mayBeUnparsed && word = "NDATA".toList then return none else none
    | _ => none

/-! ### Elements and notations -/

/-- The marks after a list of names that a text may stand between, up to the end. -/
def isMixed : List Mark → Bool
  | [.closeGroup none] => true
  | marks => choices marks
where
  choices : List Mark → Bool
    | [.closeGroup sign] => sign == some '*'
    | .bar :: .word kind _ none :: rest => kind != .token && choices rest
    | _ => false

mutual

/-- The marks of a model of content from a part on. `groups` are the marks that separate the
parts of the open groups, as far as they are known. -/
def isPartOfModel (groups : List (Option Mark)) : List Mark → Bool
  | .openGroup :: rest => isPartOfModel (none :: groups) rest
  | .word kind _ _ :: rest => kind != .token && isAfterPart groups rest
  | _ => false

/-- The marks of a model of content after a part. -/
def isAfterPart : (groups : List (Option Mark)) → List Mark → Bool
  | [_], [.closeGroup _] => true
  | _ :: outer :: groups, .closeGroup _ :: rest => isAfterPart (outer :: groups) rest
  | known :: groups, mark :: rest =>
    (mark == .comma || mark == .bar) && (known == none || known == some mark) &&
      isPartOfModel (some mark :: groups) rest
  | _, _ => false

end

/-- The marks declare what an element may hold. -/
def isContentModel : List Mark → Bool
  | [.word .name word none] => word = "EMPTY".toList || word = "ANY".toList
  | .openGroup :: .keyword word :: rest => word = "PCDATA".toList && isMixed rest
  | .openGroup :: rest => isPartOfModel [none] rest
  | _ => false

def isElement : List Mark → Bool
  | .word kind _ none :: rest => kind != .token && isContentModel rest
  | _ => false

def isNotation : List Mark → Bool
  | [.word .name _ none, .word .name word none, .quoted publicId] =>
    word = "SYSTEM".toList || (word = "PUBLIC".toList && publicId.all isPublic)
  | .word .name _ none :: rest => afterExternal rest == some []
  | _ => false

/-! ### Attributes -/

/-- What the document type declares of an attribute of an element: whether its values are lists of
words, in which only single spaces between words count, and its default, if it has one. -/
structure AttributeType where
  element : QualifiedName
  name : QualifiedName
  isWords : Bool
  default? : Option (List Char)

/-- A list of words without needless spaces, where `isAfterSpace` tells that a space here is
needless. -/
def trimWords (isAfterSpace : Bool) : List Char → List Char
  | [] => []
  | ' ' :: rest =>
    if isAfterSpace || rest.all (· == ' ') then trimWords true rest
    else ' ' :: trimWords true rest
  | c :: rest => c :: trimWords false rest

/-- A value as it counts for the attribute. -/
def AttributeType.valueOf (t : AttributeType) (value : List Char) : List Char :=
  if t.isWords then trimWords true value else value

def WordKind.toName (kind : WordKind) (text : List Char) : Option QualifiedName :=
  match kind with
  | .name => some ⟨none, text⟩
  | .qualified => some ⟨some (text.takeWhile (· != ':')), (text.dropWhile (· != ':')).drop 1⟩
  | .token => none

/-- The types of attributes that are named. -/
def attributeTypes : List (List Char) :=
  ["CDATA", "ID", "IDREF", "IDREFS", "ENTITY", "ENTITIES", "NMTOKEN", "NMTOKENS"].map String.toList

/-- What follows a group of words that bars separate. -/
def afterChoice (isChoice : WordKind → Bool) : List Mark → Option (List Mark)
  | .word kind _ none :: .closeGroup none :: rest => if isChoice kind then some rest else none
  | .word kind _ none :: .bar :: rest => if isChoice kind then afterChoice isChoice rest else none
  | _ => none

/-- What follows the type of an attribute. -/
def afterType : List Mark → Option (List Mark)
  | .word .name word none :: rest =>
    if attributeTypes.contains word then some rest
    else
      match word == "NOTATION".toList, rest with
      | true, .openGroup :: rest => afterChoice (· == .name) rest
      | _, _ => none
  | .openGroup :: rest => afterChoice (fun _ => true) rest
  | _ => none

/-- The default of an attribute before its references are replaced, and what follows it. -/
def readDefault : List Mark → Option (Option (List Char) × List Mark)
  | .quoted raw :: rest => some (some raw, rest)
  | .keyword word :: rest =>
    if word = "IMPLIED".toList || word = "REQUIRED".toList then some (none, rest)
    else
      match word == "FIXED".toList, rest with
      | true, .quoted raw :: rest => some (some raw, rest)
      | _, _ => none
  | _ => none

/-- The attributes that are declared for an element. -/
def readAttributeTypes (element : QualifiedName) :
    (fuel : Nat) → List Mark → Option (List AttributeType)
  | _, [] => some []
  | 0, _ => none
  | fuel + 1, .word kind text none :: type => do
    let name ← kind.toName text
    let (value, rest) ← readDefault (← afterType type)
    let isWords := type.head? != some (.name "CDATA".toList)
    return ⟨element, name, isWords, value⟩ :: (← readAttributeTypes element fuel rest)
  | _, _ => none

end Inventory.Xml
