import Inventory.Number.Extended

/-!
How a column of texts keeps a real number: in fifteen digits, with a point, and with a power of
ten beyond fifteen digits before the point or four zeros after it. The number is brought between
one and ten by steps of 64 binary digits.
-/
namespace Inventory.RealText

/-- Half of the last of fifteen digits. -/
def half : Extended := ⟨0x16849b86a12b9c, -100⟩

/-- Raises a scale by a factor as long as the number is not below it; counts the powers of ten. -/
def raise (x factor : Extended) (zeros : Nat) :
    (fuel : Nat) → (scale : Extended) → (power : Int) → Extended × Int
  | 0, scale, power => (scale, power)
  | fuel + 1, scale, power =>
    if (factor.mul scale).isAtMost x then
      raise x factor zeros fuel (factor.mul scale) (power + zeros)
    else (scale, power)

/-- Multiplies a number as long as it is below a limit. -/
def lift (limit factor : Extended) (zeros : Nat) :
    (fuel : Nat) → (x : Extended) → (power : Int) → Extended × Int
  | 0, x, power => (x, power)
  | fuel + 1, x, power =>
    if limit.isAtMost x then (x, power)
    else lift limit factor zeros fuel (x.mul factor) (power - zeros)

/-- A number between one and ten, rounded up by half of its last digit, and the power of ten it
was divided by. -/
def normalise (x : Extended) : Extended × Int :=
  let one := Extended.ofNat 1
  let ten := Extended.ofNat 10
  let (scale, power) := raise x (.ofDecimal ⟨1, 100⟩) 100 4 one 0
  let (scale, power) := raise x (.ofNat (Nat.pow 10 10)) 10 10 scale power
  let (scale, power) := raise x ten 1 10 scale power
  let (x, power) := lift (.ofDecimal ⟨1, -8⟩) (.ofNat (Nat.pow 10 8)) 8 45 (x.div scale) power
  let (x, power) := lift one ten 1 10 x power
  let x := x.add half
  if ten.isAtMost x then (x.mul (.ofDecimal ⟨1, -1⟩), power + 1) else (x, power)

/-- The first digits of a number below ten. -/
def digitsOf : (count : Nat) → Extended → List Char
  | 0, _ => []
  | count + 1, x =>
    let (digit, rest) := x.split
    Nat.digitChar digit :: digitsOf count (rest.mul (.ofNat 10))

/-- The digits without zeros at the end. -/
def trimmed (digits : List Char) : List Char :=
  (digits.reverse.dropWhile (· == '0')).reverse

/-- One digit before the point and at least one after it, and a power of ten. -/
def withPower (digits : List Char) (power : Int) : List Char :=
  let fraction := digits.drop 1
  let shown := Nat.toDigits 10 power.natAbs
  digits.take 1 ++ '.' :: (if fraction.isEmpty then ['0'] else fraction) ++
    'e' :: (if power < 0 then '-' else '+') :: (List.replicate (2 - shown.length) '0' ++ shown)

/-- The text of a positive number. -/
def ofPositive (x : Extended) : List Char :=
  let (x, power) := normalise x
  let digits := trimmed (digitsOf 15 x)
  if power < -4 || 14 < power then withPower digits power
  else Binary64.positional digits (power + 1)

/-- The text of a real number. -/
def ofReal : Binary64 → String
  | .nan => ""
  | .infinite negative => if negative then "-Inf" else "Inf"
  | .finite negative magnitude _ =>
    if magnitude = 0 then "0.0"
    else
      String.ofList ((if negative then ['-'] else []) ++ ofPositive (.ofMagnitude magnitude))

end Inventory.RealText
