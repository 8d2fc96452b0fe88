import Inventory.Xml.Comment

/-!
References to characters and entities, and texts that hold them.
-/
namespace Inventory.Xml

/-- The character may stand in a document. -/
def isChar (c : Char) : Bool :=
  let n := c.toNat
  n == 9 || n == 10 || n == 13 || (0x20 ≤ n && n ≠ 0xfffe && n ≠ 0xffff)

/-- A text between quotes at the head, and what follows it. -/
def readQuoted : List Char → Option (List Char × List Char)
  | [] => none
  | quote :: rest =>
    if quote = '"' || quote = '\'' then
      (rest.dropWhile (· != quote)).tail?.map (rest.takeWhile (· != quote), ·)
    else none

/-- The entities that every document has. -/
def entities : List (List Char × Char) :=
  [("amp".toList, '&'), ("lt".toList, '<'), ("gt".toList, '>'), ("quot".toList, '"'),
   ("apos".toList, '\'')]

/-- The value of a digit in a number system. -/
def digit? (base : Nat) (c : Char) : Option Nat :=
  let value :=
    if c.isDigit then c.toNat - '0'.toNat
    else if 'a' ≤ c && c ≤ 'f' then c.toNat - 'a'.toNat + 10
    else if 'A' ≤ c && c ≤ 'F' then c.toNat - 'A'.toNat + 10
    else base
  if value < base then some value else none

/-- The character that digits stand for, if a document may hold it. -/
def charOf? (base : Nat) (digits : List Char) : Option Char := do
  let values ← digits.mapM (digit? base)
  let n := values.foldl (fun n d => base * n + d) 0
  if values.isEmpty || !n.isValidChar || !isChar (Char.ofNat n) then none
  else some (Char.ofNat n)

/-- What a reference stands for: a character, or an entity that the document itself declares. -/
inductive Reference where
  | char (c : Char)
  | entity (name : List Char)
  deriving DecidableEq

/-- Reads a reference after its ampersand. -/
def readReference (cs : List Char) : Option (Reference × List Char) := do
  let body := cs.takeWhile (· != ';')
  let rest ← (cs.dropWhile (· != ';')).tail?
  match body with
  | '#' :: 'x' :: digits => return (.char (← charOf? 16 digits), rest)
  | '#' :: digits => return (.char (← charOf? 10 digits), rest)
  | name =>
    match entities.lookup name, readName name with
    | some c, _ => return (.char c, rest)
    | none, some (_, []) => return (.entity name, rest)
    | none, _ => none

/-- The text that an attribute's value stands for, with the texts of entities from `value?`. It
must not hold a left angle bracket. -/
def readValue (value? : List Char → Option (List Char)) :
    (fuel : Nat) → List Char → Option (List Char)
  | _, [] => some []
  | 0, _ => none
  | fuel + 1, c :: rest =>
    if c = '<' then none
    else if c = '&' then do
      let (reference, rest) ← readReference rest
      let text ←
        match reference with
        | .char c => some [c]
        | .entity name => value? name
      return text ++ (← readValue value? fuel rest)
    else do
      return (if isSpace c then ' ' else c) :: (← readValue value? fuel rest)

end Inventory.Xml
