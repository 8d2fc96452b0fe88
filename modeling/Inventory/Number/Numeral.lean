import Inventory.Text.Blank
import Inventory.Text.Digit

/-!
Whole numbers in decimal writing. A numeral may carry a sign, single underscores between digits
and digits of any script, and it has at most `Numeral.digitLimit` digits; longer ones are
neither read nor written.
-/
namespace Inventory.Numeral

open Inventory.Text

/-- The most digits a numeral has. -/
def digitLimit : Nat := 4300

/-- Why a text is no numeral. -/
inductive Fault where
  | malformed
  | tooLong (digits : Nat)
  deriving DecidableEq, Repr

/-- What is said of a numeral with too many digits. -/
def tooLongMessage (digits : Nat) : String :=
  s!"Exceeds the limit ({digitLimit} digits) for integer string conversion: " ++
    s!"value has {digits} digits; use sys.set_int_max_str_digits() to increase the limit"

/-- The ASCII character that a character counts as in a numeral: a digit of any script is that
digit and white space of any script is a space. -/
def plain? (c : Char) : Option Char :=
  if c.toNat < 127 then some c
  else if isBlank c then some ' '
  else (digitValue? c).map fun d => Char.ofNat (48 + d)

/-- A text in plain characters without surrounding white space. -/
def plainText? (s : String) : Option (List Char) :=
  (s.toList.mapM plain?).map (trimBy isAsciiBlank)

/-- Takes off a leading sign; `true` stands for a minus. -/
def signOf : List Char → Bool × List Char
  | '-' :: rest => (true, rest)
  | '+' :: rest => (false, rest)
  | cs => (false, cs)

/-- Every underscore stands between two digits. -/
def underscoresFit : (before : Option Char) → List Char → Bool
  | _, [] => true
  | before, c :: rest =>
    (c != '_' || (before.any Char.isDigit && rest.head?.any Char.isDigit)) &&
      underscoresFit (some c) rest

/-- The number that ASCII digits write. -/
def ofDigits (ds : List Char) : Nat :=
  ds.foldl (fun n d => 10 * n + (d.toNat - 48)) 0

/-- Reads an optionally signed whole number. -/
def read (s : String) : Except Fault Int :=
  match (plainText? s).map signOf with
  | none => .error .malformed
  | some (negative, body) =>
    let digits := body.filter (· != '_')
    if digits.isEmpty || !digits.all Char.isDigit || !underscoresFit none body then
      .error .malformed
    else if digitLimit < digits.length then .error (.tooLong digits.length)
    else .ok (if negative then -(ofDigits digits : Int) else ofDigits digits)

/-- The number can be written with at most `digitLimit` digits. -/
def isWritable (n : Int) : Bool :=
  n.natAbs < Nat.pow 10 digitLimit

end Inventory.Numeral
