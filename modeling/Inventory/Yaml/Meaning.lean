import Inventory.Text.Case
import Inventory.Yaml.Resolution
import Inventory.Yaml.Tree

/-!
The scalars that texts of a kind stand for. A text can be put under a kind that its form does not
fit; underscores may stand inside numbers and do not count.
-/
namespace Inventory.Yaml

/-! ### Whole numbers -/

/-- The value of a digit in any base up to sixteen. -/
def digitIn (c : Char) : Nat :=
  if c.isDigit then c.toNat - 48 else c.toLower.toNat - 87

/-- The letter that marks a base, after a zero. -/
def baseMark (base : Nat) : Char :=
  if base = 2 then 'b' else if base = 8 then 'o' else 'x'

/-- The text after the mark of a base, if it is there. -/
def afterMark (base : Nat) : List Char → List Char
  | '0' :: c :: rest => if c.toLower = baseMark base then rest else '0' :: c :: rest
  | cs => cs

/-- The whole number with an optional sign that a text writes in base two, eight or sixteen. -/
def readIn? (base : Nat) (cs : List Char) : Option Int := do
  let (negative, cs) := Numeral.signOf (← Numeral.plainText? (String.ofList cs))
  let digits := afterMark base cs
  if digits.isEmpty || !digits.all (isDigitIn base) then none
  let n := digits.foldl (fun n c => base * n + digitIn c) 0
  return if negative then -(n : Int) else n

def notWhole (base : Nat) (cs : List Char) : Fault :=
  .notWhole base (Text.quoted (String.ofList cs))

/-- The whole number that a text writes in base two, eight or sixteen. -/
def readIn (base : Nat) (cs : List Char) : Read Int :=
  match readIn? base cs with
  | some n => .ok n
  | none => .error (notWhole base cs)

/-- The whole number that a text writes in decimal. -/
def readWhole (cs : List Char) : Read Int :=
  match Numeral.read (String.ofList cs) with
  | .ok n => .ok n
  | .error (.tooLong digits) => .error (.tooManyDigits digits)
  | .error .malformed => .error (notWhole 10 cs)

/-- The whole number that a text without its sign stands for. -/
def readMagnitude (cs : List Char) : Read Int :=
  match cs with
  | [] => .error .noDigits
  | '0' :: 'b' :: rest => readIn 2 rest
  | '0' :: 'x' :: rest => readIn 16 rest
  | '0' :: _ => if cs = ['0'] then .ok 0 else readIn 8 cs
  | cs =>
    if cs.contains ':' then do
      return (← (Text.piecesAt (· == ':') cs).mapM readWhole).foldl (fun n place => 60 * n + place) 0
    else readWhole cs

/-- The whole number that a text stands for. -/
def readInt (cs : List Char) : Read Int := do
  let (negative, cs) := Numeral.signOf (cs.filter (· != '_'))
  let n ← readMagnitude cs
  return if negative then -n else n

/-! ### Real numbers -/

/-- The real number that a text writes in decimal. -/
def readDecimal (cs : List Char) : Read Binary64 :=
  match Binary64.read? (String.ofList cs) with
  | some x => .ok x
  | none => .error (.notReal (Text.quoted (String.ofList cs)))

/-- Adds up the places of a number to the base sixty, the last one first. -/
def addPlaces : (unit : Nat) → (total : Binary64) → List Binary64 → Read Binary64
  | _, total, [] => .ok total
  | unit, total, x :: rest =>
    match Binary64.ofInt? unit with
    | some size => addPlaces (60 * unit) (total.add (x.mul size)) rest
    | none => .error .beyondReals

/-- The real number that a text in lower case without its sign stands for. -/
def readRealMagnitude (cs : List Char) : Read Binary64 :=
  if cs = ".inf".toList then .ok (.infinite false)
  else if cs = ".nan".toList then .ok .nan
  else if cs.contains ':' then do
    addPlaces 1 .zero (← (Text.piecesAt (· == ':') cs).mapM readDecimal).reverse
  else readDecimal cs

/-- The real number that a text stands for. -/
def readReal (cs : List Char) : Read Binary64 := do
  let cs := (Text.lower (String.ofList (cs.filter (· != '_')))).toList
  if cs.isEmpty then throw .noDigits
  let (negative, cs) := Numeral.signOf cs
  let x ← readRealMagnitude cs
  return if negative then x.negate else x

/-! ### Other scalars -/

/-- The truth value that a text stands for, in any case. -/
def readTruth (cs : List Char) : Read Bool :=
  let s := Text.lower (String.ofList cs)
  if truths.contains s then .ok true
  else if falsehoods.contains s then .ok false
  else .error (.notTruth (Text.quoted s))

/-- The date, or the date with a time, that a text stands for. -/
def readStamp (cs : List Char) : Read Scalar :=
  match readStamp? cs with
  | none => .error .notDate
  | some (date, none) => (date.check.mapError .calendar).map .date
  | some (_, some moment) => (moment.check.mapError .calendar).map .moment

/-- The scalar that characters under a kind stand for. -/
def Scalar.ofChars (cs : List Char) : Kind → Read Scalar
  | .null => .ok .null
  | .bool => (readTruth cs).map .bool
  | .int => (readInt cs).map .int
  | .real => (readReal cs).map .real
  | .stamp => readStamp cs
  | .text => .ok (.text (String.ofList cs))
  | .bytes =>
    match readBytes? cs with
    | some ns => .ok (.bytes ns)
    | none => malformed
  | _ => malformed

/-- The scalar that a text with halves of characters stands for under a kind. -/
def Scalar.ofCodes (ns : List Nat) : Kind → Read Scalar
  | .null => .ok .null
  | .bool => .error (.notTruth (Written.quotedCodes ns))
  | .int => .error (.notWhole 10 (Written.quotedCodes (ns.filter (· != '_'.toNat))))
  | .real => .error (.notReal (Written.quotedCodes (ns.filter (· != '_'.toNat))))
  | .stamp => .error .notDate
  | .text => .ok (.codes ns)
  | _ => malformed

/-- The scalar that a text under a kind stands for. -/
def Scalar.ofWritten (kind : Kind) : Written → Read Scalar
  | .chars cs => Scalar.ofChars cs kind
  | .codes ns => Scalar.ofCodes ns kind

end Inventory.Yaml
