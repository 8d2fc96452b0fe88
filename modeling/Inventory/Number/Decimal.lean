import Inventory.Number.Binary64
import Inventory.Number.Numeral

/-!
Real numbers in decimal writing. Reading rounds the exact decimal to the nearest binary64
number; writing takes the fewest digits that read back, positional for exponents from -4 to 15
and with a power of ten otherwise.
-/
namespace Inventory

/-- The number `digits * 10 ^ exponent`. -/
structure Decimal where
  digits : Nat
  exponent : Int
  deriving DecidableEq, Repr

namespace Decimal

/-- The number of digits of a whole number; zero has one. -/
def digitCount (n : Nat) : Nat :=
  (Nat.toDigits 10 n).length

/-- The place of the binary64 number nearest to a decimal. The first two cases answer for decimals
beyond the finite numbers and below half of the smallest positive one without large powers. -/
def nearest (d : Decimal) : Nat :=
  if d.digits = 0 then 0
  else if 310 < d.exponent + digitCount d.digits then Binary64.finiteCount
  else if d.exponent + digitCount d.digits < -330 then 0
  else if 0 ≤ d.exponent then Binary64.nearest (d.digits * Nat.pow 10 d.exponent.toNat) 1
  else Binary64.nearest d.digits (Nat.pow 10 (-d.exponent).toNat)

/-- Digits, with a point among, before or after them. -/
def mantissa? (cs : List Char) : Option (Decimal × List Char) :=
  let whole := cs.takeWhile Char.isDigit
  let rest := cs.dropWhile Char.isDigit
  let (fraction, rest) :=
    match rest with
    | '.' :: more => (more.takeWhile Char.isDigit, more.dropWhile Char.isDigit)
    | _ => ([], rest)
  if whole.isEmpty && fraction.isEmpty then none
  else some (⟨Numeral.ofDigits (whole ++ fraction), -fraction.length⟩, rest)

/-- The power of ten after the digits, to the end of the text. -/
def power? : List Char → Option Int
  | [] => some 0
  | e :: rest =>
    let (negative, digits) := Numeral.signOf rest
    if (e == 'e' || e == 'E') && !digits.isEmpty && digits.all Char.isDigit then
      some (if negative then -(Numeral.ofDigits digits : Int) else Numeral.ofDigits digits)
    else none

/-- A decimal, to the end of the text. -/
def read? (cs : List Char) : Option Decimal := do
  let (d, rest) ← mantissa? cs
  let power ← power? rest
  some ⟨d.digits, d.exponent + power⟩

end Decimal

namespace Binary64

/-- Reads a real number: a decimal, or a word for an infinity or for what is not a number. -/
def read? (s : String) : Option Binary64 := do
  let text ← Numeral.plainText? s
  guard (Numeral.underscoresFit none text)
  let (negative, body) := Numeral.signOf (text.filter (· != '_'))
  match (String.ofList body).toLower with
  | "inf" | "infinity" => some (.infinite negative)
  | "nan" => some .nan
  | _ => (Decimal.read? body).map fun d => .ofPlace negative d.nearest

/-- The decimal exponent of a positive quotient: the greatest `e` with `10 ^ e ≤ num / den`. -/
def decimalExponent (num den : Nat) : Int :=
  let guess : Int := (Decimal.digitCount num : Int) - (Decimal.digitCount den : Int)
  let fits :=
    if 0 ≤ guess then den * Nat.pow 10 guess.toNat ≤ num
    else den ≤ num * Nat.pow 10 (-guess).toNat
  if fits then guess else guess - 1

/-- The two neighbours of a quotient among the multiples of `10 ^ exponent`, the nearer one
first; of two equally near ones the even one. -/
def decimalNeighbours (num den : Nat) (exponent : Int) : List Decimal :=
  let (n, d) :=
    if 0 ≤ exponent then (num, den * Nat.pow 10 exponent.toNat)
    else (num * Nat.pow 10 (-exponent).toNat, den)
  let below := n / d
  if roundQuotient n d = below then [⟨below, exponent⟩, ⟨below + 1, exponent⟩]
  else [⟨below + 1, exponent⟩, ⟨below, exponent⟩]

/-- A decimal with at most `17 - k` more digits that reads back as the place `magnitude`. -/
def shortestFrom (magnitude num den : Nat) (exponent : Int) : Nat → Option Decimal
  | 0 => none
  | k + 1 =>
    ((decimalNeighbours num den exponent).find? (·.nearest = magnitude)).orElse fun _ =>
      shortestFrom magnitude num den (exponent - 1) k

/-- The exact decimal of a magnitude. -/
def exactDecimal (magnitude : Nat) : Decimal :=
  let (num, den) := ratio magnitude
  ⟨num * Nat.pow 5 den.log2, -(den.log2 : Int)⟩

/-- The decimal of the fewest digits that reads back as a magnitude. -/
def shortest (magnitude : Nat) : Decimal :=
  let (num, den) := ratio magnitude
  (shortestFrom magnitude num den (decimalExponent num den) 17).getD (exactDecimal magnitude)

/-- The digits without zeros at the end. -/
def significantDigits (d : Decimal) : List Char :=
  ((Nat.toDigits 10 d.digits).reverse.dropWhile (· == '0')).reverse

/-- A decimal point after `point` of the digits; zeros fill the gap between point and digits. -/
def positional (digits : List Char) (point : Int) : List Char :=
  if point ≤ 0 then '0' :: '.' :: List.replicate (-point).toNat '0' ++ digits
  else if digits.length ≤ point then
    digits ++ List.replicate (point.toNat - digits.length) '0' ++ ['.', '0']
  else digits.take point.toNat ++ '.' :: digits.drop point.toNat

/-- One digit before the point, and a power of ten with a sign and at least two digits. -/
def scientific (digits : List Char) (exponent : Int) : List Char :=
  let mantissa := match digits with
    | d :: e :: rest => d :: '.' :: e :: rest
    | _ => digits
  let power := Nat.toDigits 10 exponent.natAbs
  mantissa ++ 'e' :: (if exponent < 0 then '-' else '+') ::
    (List.replicate (2 - power.length) '0' ++ power)

/-- The text of a finite absolute value. -/
def displayMagnitude (magnitude : Nat) : List Char :=
  if magnitude = 0 then ['0', '.', '0']
  else
    let d := shortest magnitude
    let digits := significantDigits d
    let point := d.exponent + Decimal.digitCount d.digits
    if -4 < point && point ≤ 16 then positional digits point else scientific digits (point - 1)

/-- The text of a real number, in the fewest digits that read back. -/
def display : Binary64 → String
  | .finite negative magnitude _ =>
    String.ofList ((if negative then ['-'] else []) ++ displayMagnitude magnitude)
  | .infinite negative => if negative then "-inf" else "inf"
  | .nan => "nan"

end Binary64

end Inventory
