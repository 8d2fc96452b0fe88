import Inventory.Number.Extended
import Inventory.Text.Blank

/-!
How the database reads numbers in texts. As many digits as fit a word of 64 bits count, and the
power of ten is applied to them with 64 binary digits, so that the result may miss the nearest
binary64 number.
-/
namespace Inventory

/-- A number at the head of a text, as far as there is one. -/
structure Literal where
  negative : Bool
  whole : List Char
  /-- The digits after a point. -/
  fraction? : Option (List Char)
  /-- The sign and the digits after the mark of a power of ten. -/
  power? : Option (Bool × List Char)
  /-- What follows, without blanks in front. -/
  rest : List Char

namespace Literal

/-- The sign and the digits after a mark of a power, and what follows. -/
def readPower : List Char → Option (Bool × List Char) × List Char
  | [] => (none, [])
  | c :: rest =>
    if c = 'e' || c = 'E' then
      let (negative, body) := Numeral.signOf rest
      (some (negative, body.takeWhile Char.isDigit), body.dropWhile Char.isDigit)
    else (none, c :: rest)

def read (text : String) : Literal :=
  let (negative, body) := Numeral.signOf (text.toList.dropWhile Text.isAsciiBlank)
  let (fraction?, rest) :=
    match body.dropWhile Char.isDigit with
    | '.' :: rest => (some (rest.takeWhile Char.isDigit), rest.dropWhile Char.isDigit)
    | rest => (none, rest)
  let (power?, rest) := readPower rest
  ⟨negative, body.takeWhile Char.isDigit, fraction?, power?, rest.dropWhile Text.isAsciiBlank⟩

def hasDigits (l : Literal) : Bool :=
  !l.whole.isEmpty || l.fraction?.any (!·.isEmpty)

/-- The power of ten is complete, or there is none. -/
def hasFullPower (l : Literal) : Bool :=
  l.power?.all (!·.2.isEmpty)

/-- The whole text is a number. -/
def isComplete (l : Literal) : Bool :=
  l.hasDigits && l.hasFullPower && l.rest.isEmpty

/-- The number has a point or a power of ten, so it is not read as a whole number. A mark of a
power without digits does not count if it stands alone. -/
def isReal (l : Literal) : Bool :=
  l.hasDigits && (l.fraction?.isSome || (l.power?.isSome && l.hasFullPower))

/-- The whole number that the digits before the point write. -/
def wholeNumber (l : Literal) : Int :=
  let n := Numeral.ofDigits l.whole
  if l.negative then -(n : Int) else n

/-! ### Real numbers -/

def digit (c : Char) : Nat :=
  c.toNat - '0'.toNat

/-- From here on a word does not take one more digit. -/
def wordLimit : Nat := 922337203685477579

/-- The digits that count, and the power of ten of the last one. Digits before the point that do
not count raise the power. -/
def significand (l : Literal) : Nat × Int :=
  let start := l.whole.foldl
    (fun (n, power) c => if wordLimit ≤ n then (n, power + 1) else (10 * n + digit c, power))
    ((0, 0) : Nat × Int)
  (l.fraction?.getD []).foldl
    (fun (n, power) c => if wordLimit ≤ n then (n, power) else (10 * n + digit c, power - 1)) start

/-- The power of ten as it is written; five digits are as large as all others. -/
def power (l : Literal) : Int :=
  match l.power? with
  | none => 0
  | some (negative, digits) =>
    let n := digits.foldl (fun n c => if n < 10000 then 10 * n + digit c else 10000) 0
    if negative then -(n : Int) else n

/-- Takes powers of ten into the digits as long as a word holds them. -/
def widen : (power : Nat) → (n : Nat) → Nat × Nat
  | 0, n => (0, n)
  | power + 1, n => if wordLimit < n then (power + 1, n) else widen power (10 * n)

/-- Takes zeros off the end against negative powers of ten. -/
def shorten : (power : Nat) → (n : Nat) → Nat × Nat
  | 0, n => (0, n)
  | power + 1, n => if n % 10 = 0 then shorten power (n / 10) else (power + 1, n)

/-- The largest power of ten in the middle of the range. -/
def largePower : Nat := 308

/-- A number times a power of ten, or divided by it. Large powers are applied in two steps, and
beyond all numbers at once. -/
def scaled (negative isDivided : Bool) (n power : Nat) : Binary64 :=
  let number := Extended.ofNat n
  let scaledBy (power : Nat) :=
    (if isDivided then number.div (.tenTo power) else number.mul (.tenTo power)).toBinary64 negative
  if power = 0 then number.toBinary64 negative
  else if power < largePower then scaledBy power
  else if power < 342 then
    let large := Binary64.ofPlace false (Decimal.nearest ⟨1, largePower⟩)
    if isDivided then (scaledBy (power - largePower)).div large
    else (scaledBy (power - largePower)).mul large
  else if isDivided then .ofPlace negative 0
  else .infinite negative

/-- The real number as it is read. -/
def toReal (l : Literal) : Binary64 :=
  let (n, shift) := l.significand
  let power := l.power + shift
  if n = 0 then .ofPlace l.negative 0
  else if 0 ≤ power then
    let (power, n) := widen power.toNat n
    scaled l.negative false n power
  else
    let (power, n) := shorten (-power).toNat n
    scaled l.negative true n power

end Literal

end Inventory
