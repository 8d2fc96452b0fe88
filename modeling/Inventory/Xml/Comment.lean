import Inventory.Xml.Name

/-!
What may stand around markup without a meaning for it: space, comments and instructions.
-/
namespace Inventory.Xml

def isSpace (c : Char) : Bool :=
  c == ' ' || c == '\t' || c == '\n' || c == '\r'

/-- What follows the first occurrence of `mark`. -/
def after (mark : List Char) : List Char → Option (List Char)
  | [] => if mark.isEmpty then some [] else none
  | c :: rest =>
    if mark.isPrefixOf (c :: rest) then some ((c :: rest).drop mark.length) else after mark rest

/-- Takes off `mark` at the head. -/
def strip? (mark cs : List Char) : Option (List Char) :=
  if mark.isPrefixOf cs then some (cs.drop mark.length) else none

/-- Takes off a comment after its opening. Two hyphens can only end it. -/
def skipComment (cs : List Char) : Option (List Char) := do
  let rest ← after "--".toList cs
  strip? ">".toList rest

/-- Takes off an instruction after its opening. Its target is a name other than `xml` in any
case. -/
def skipInstruction (cs : List Char) : Option (List Char) := do
  let (target, rest) ← readName cs
  if target.map Char.toLower = "xml".toList then none
  else
    match rest with
    | '?' :: '>' :: rest => some rest
    | c :: rest => if isSpace c then after "?>".toList rest else none
    | [] => none

/-- Takes off comments, instructions and space. -/
def skipMisc : (fuel : Nat) → List Char → Option (List Char)
  | 0, cs => some cs
  | fuel + 1, cs =>
    match cs with
    | '<' :: '!' :: '-' :: '-' :: rest => do skipMisc fuel (← skipComment rest)
    | '<' :: '?' :: rest => do skipMisc fuel (← skipInstruction rest)
    | c :: rest => if isSpace c then skipMisc fuel rest else some cs
    | [] => some []

end Inventory.Xml
