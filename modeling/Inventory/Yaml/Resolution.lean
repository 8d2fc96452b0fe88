import Inventory.Text.Lines
import Inventory.Yaml.Calendar

/-!
What plain texts stand for. The form of a text says of which kind it is: a truth value, null, a
whole number in one of several bases, a real number, a date, or a text.
-/
namespace Inventory.Yaml

/-- The kinds of nodes. -/
inductive Kind where
  | null
  | bool
  | int
  | real
  | stamp
  | text
  | bytes
  | list
  | mapping
  | set
  | pairs
  /-- A name whose value is merged into the mapping around it. -/
  | merge
  /-- A name whose value stands for the mapping around it. -/
  | main
  /-- A kind for which there are no values. -/
  | unknown
  deriving DecidableEq

def truths : List String :=
  ["yes", "Yes", "YES", "true", "True", "TRUE", "on", "On", "ON"]

def falsehoods : List String :=
  ["no", "No", "NO", "false", "False", "FALSE", "off", "Off", "OFF"]

def nulls : List String :=
  ["", "~", "null", "Null", "NULL"]

def isDigitIn (base : Nat) (c : Char) : Bool :=
  let n := c.toNat
  (c.isDigit && n - 48 < base) ||
    (base == 16 && (('a' ≤ c && c ≤ 'f') || ('A' ≤ c && c ≤ 'F')))

/-- Digits of a base and underscores, at least one. -/
def areDigits (base : Nat) (cs : List Char) : Bool :=
  !cs.isEmpty && cs.all fun c => c == '_' || isDigitIn base c

/-- Decimal digits and underscores that begin with a digit. -/
def isNumber (cs : List Char) : Bool :=
  cs.head?.any Char.isDigit && cs.all fun c => c == '_' || c.isDigit

/-- One or two decimal digits below sixty. -/
def isSixtieth : List Char → Bool
  | [a] => a.isDigit
  | [a, b] => '0' ≤ a && a ≤ '5' && b.isDigit
  | _ => false

/-- A number to the base sixty, with at least two places. -/
def isSixties (cs : List Char) : Bool :=
  match Text.piecesAt (· == ':') cs with
  | first :: second :: rest => isNumber first && (second :: rest).all isSixtieth
  | _ => false

/-- A whole number, without its sign. -/
def isMagnitude : List Char → Bool
  | ['0'] => true
  | '0' :: 'b' :: rest => areDigits 2 rest
  | '0' :: 'x' :: rest => areDigits 16 rest
  | '0' :: rest => areDigits 8 rest
  | cs => isNumber cs || isSixties cs

/-- The exponent after the digits of a real number has a mark and a sign. -/
def isExponent : List Char → Bool
  | [] => true
  | mark :: sign :: rest =>
    (mark == 'e' || mark == 'E') && (sign == '+' || sign == '-') && !rest.isEmpty &&
      rest.all Char.isDigit
  | _ => false

/-- The text after the digits and underscores at the head. -/
def afterDigits (cs : List Char) : List Char :=
  cs.dropWhile fun c => c == '_' || c.isDigit

/-- A real number with a point, without its sign; it may begin with the point only if there was
none. -/
def isDecimal (signed : Bool) : List Char → Bool
  | '.' :: rest => !signed && rest.head?.any Char.isDigit && isExponent (afterDigits rest)
  | cs =>
    cs.head?.any Char.isDigit &&
      match afterDigits cs with
      | '.' :: rest => isExponent (afterDigits rest)
      | _ => false

/-- A real number to the base sixty: whole places, and digits after a point. -/
def isRealSixties (cs : List Char) : Bool :=
  match Text.piecesAt (· == '.') cs with
  | [whole, fraction] => isSixties whole && (afterDigits fraction).isEmpty
  | _ => false

/-- A real number, without its sign. What is not a number has none. -/
def isReal (signed : Bool) (cs : List Char) : Bool :=
  [".inf", ".Inf", ".INF"].contains (String.ofList cs) ||
    (!signed && [".nan", ".NaN", ".NAN"].contains (String.ofList cs)) ||
    isDecimal signed cs || isRealSixties cs

/-- The kind of value that a plain text stands for. A line feed at the end does not count, unless
it is all there is. -/
def Kind.ofPlain (text : List Char) : Kind :=
  let cs := if text = ['\n'] then text else withoutLineFeed text
  let s := String.ofList cs
  let (signed, magnitude) :=
    match cs with
    | '-' :: rest | '+' :: rest => (true, rest)
    | cs => (false, cs)
  if truths.contains s || falsehoods.contains s then .bool
  else if isReal signed magnitude then .real
  else if isMagnitude magnitude then .int
  else if s = "<<" then .merge
  else if nulls.contains s then .null
  else if isStamp cs then .stamp
  else if s = "=" then .main
  else .text

end Inventory.Yaml
