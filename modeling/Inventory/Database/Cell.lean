import Inventory.Database.Literal
import Inventory.Database.RealText
import Inventory.Fault
import Inventory.Schema.Coercion

/-!
Cells of the quantity column. The column prefers whole numbers: a text that writes a number is
kept as that number, and a real number without a fraction as a whole one, as long as it has 64
bits. Other texts and fractions stay as they are.
-/
namespace Inventory

inductive Cell where
  | int (n : Int)
  | real (x : Binary64)
  | text (s : String)
  deriving DecidableEq

namespace Cell

def toValue : Cell → Value
  | .int n => .int n
  | .real x => .real x
  | .text s => .text s

/-- The form in which a column of texts keeps a cell. -/
def toText : Cell → String
  | .int n => toString n
  | .real x => RealText.ofReal x
  | .text s => s

/-- What a statement makes of a value in the place of a parameter: nothing of null and of what is
not a number. -/
def bind (parameter : Nat) : Value → Except Fault (Option Cell)
  | .null => .ok none
  | .bool b => .ok (some (.int (if b then 1 else 0)))
  | .int n => if inInt64 n then .ok (some (.int n)) else .error .beyondStorage
  | .real .nan => .ok none
  | .real x => .ok (some (.real x))
  | .text s => .ok (some (.text s))
  | v =>
    .error (.unavailable
      s!"Error binding parameter {parameter}: type '{v.kindName}' is not supported")

/-- A real number without a fraction is a whole one, strictly inside the 64-bit range. -/
def preferInt (x : Binary64) : Cell :=
  match x.toInt? with
  | some n => if int64Min < n && n < int64Max then .int n else .real x
  | none => .real x

/-- The number that a whole text writes. -/
def number? (s : String) : Option Cell :=
  let l := Literal.read s
  if !l.isComplete then none
  else if !l.isReal && inInt64 l.wholeNumber then some (.int l.wholeNumber)
  else some (preferInt l.toReal)

/-- The form in which the column keeps a cell. -/
def kept : Cell → Cell
  | .int n => .int n
  | .real x => preferInt x
  | .text s => (number? s).getD (.text s)

/-- The cell is not below zero; texts come after all numbers. -/
def isNonnegative : Cell → Bool
  | .int n => 0 ≤ n
  | .real x => Binary64.compareBy (fun a b => b ≤ a) x .zero
  | .text _ => true

/-- The number at the head of a text, as arithmetic takes it: zero if there is none, and real if
it is not written as a whole number of 64 bits. -/
def leadingNumber (s : String) : Cell :=
  let l := Literal.read s
  if !l.isReal && inInt64 l.wholeNumber then .int l.wholeNumber else .real l.toReal

def toReal : Cell → Binary64
  | .int n => (Binary64.ofInt? n).getD .nan
  | .real x => x
  | .text _ => .nan

/-- The sum of a number cell and a whole number; beyond 64 bits it is real. -/
def addNumber (c : Cell) (delta : Int) : Cell :=
  match c with
  | .int n =>
    if inInt64 (n + delta) then .int (n + delta) else .real ((toReal c).add (toReal (.int delta)))
  | c => .real ((toReal c).add (toReal (.int delta)))

/-- The sum of a cell and a whole number. -/
def add : Cell → Int → Cell
  | .text s, delta => (leadingNumber s).addNumber delta
  | c, delta => c.addNumber delta

end Cell

end Inventory
