/-!
Real numbers in the binary64 format. A finite number is a sign and a *magnitude*: the place of
its absolute value in the ascending list of all finite absolute values, which starts with zero
and the smallest positive number. Order and equality of finite numbers are those of the signed
magnitudes, and the next larger magnitude is the next larger number.
-/
namespace Inventory

/-- How many absolute values are finite. -/
def Binary64.finiteCount : Nat :=
  2047 * Nat.pow 2 52

inductive Binary64 where
  | finite (negative : Bool) (magnitude : Nat) (isFinite : magnitude < Binary64.finiteCount)
  | infinite (negative : Bool)
  | nan
  deriving DecidableEq

namespace Binary64

/-- The whole number `significand` and the exponent `power` with absolute value
`significand * 2 ^ power / 2 ^ 1074`. -/
def parts (magnitude : Nat) : Nat × Nat :=
  if magnitude < Nat.pow 2 52 then (magnitude, 0)
  else (Nat.pow 2 52 + magnitude % Nat.pow 2 52, magnitude / Nat.pow 2 52 - 1)

/-- The absolute value as a numerator and a denominator, a power of two. -/
def ratio (magnitude : Nat) : Nat × Nat :=
  let (significand, power) := parts magnitude
  if power < 1074 then (significand, Nat.pow 2 (1074 - power))
  else (significand * Nat.pow 2 (power - 1074), 1)

/-- The nearest whole number to a quotient, and of two equally near ones the even one. -/
def roundQuotient (num den : Nat) : Nat :=
  let quotient := num / den
  let twice := 2 * (num % den)
  if den < twice || (twice == den && quotient % 2 == 1) then quotient + 1 else quotient

/-- The greatest `e` with `2 ^ e ≤ num / den`, for a positive quotient. -/
def binaryExponent (num den : Nat) : Int :=
  let guess : Int := (num.log2 : Int) - (den.log2 : Int)
  let fits :=
    if 0 ≤ guess then den * Nat.pow 2 guess.toNat ≤ num else den ≤ num * Nat.pow 2 (-guess).toNat
  if fits then guess else guess - 1

/-- The place of the finite number nearest to a quotient; a quotient that rounds beyond all of
them has a place from `finiteCount` on. -/
def nearest (num den : Nat) : Nat :=
  if num = 0 then 0
  else
    let step := max (binaryExponent num den - 52) (-1074)
    let rounded :=
      if 0 ≤ step then roundQuotient num (den * Nat.pow 2 step.toNat)
      else roundQuotient (num * Nat.pow 2 (-step).toNat) den
    (step + 1074).toNat * Nat.pow 2 52 + rounded

/-- The number with a sign and a place; places beyond the finite ones are infinite. -/
def ofPlace (negative : Bool) (place : Nat) : Binary64 :=
  if h : place < finiteCount then .finite negative place h else .infinite negative

/-- The number nearest to a signed quotient. -/
def ofRatio (negative : Bool) (num den : Nat) : Binary64 :=
  ofPlace negative (nearest num den)

/-- The number nearest to a whole number, unless that is beyond the finite ones. -/
def ofInt? (n : Int) : Option Binary64 :=
  match ofRatio (n < 0) n.natAbs 1 with
  | .finite s m h => some (.finite s m h)
  | _ => none

/-- The number zero. -/
def zero : Binary64 :=
  .finite false 0 (by decide)

/-- The number with the other sign. -/
def negate : Binary64 → Binary64
  | .finite negative magnitude h => .finite (!negative) magnitude h
  | .infinite negative => .infinite (!negative)
  | .nan => .nan

def isFinite : Binary64 → Bool
  | .finite .. => true
  | _ => false

/-- The signed place of a number; infinities stand next to the finite numbers, and nothing
stands for what is not a number. Both zeros have place `0`. -/
def rank? : Binary64 → Option Int
  | .finite negative magnitude _ => some (if negative then -magnitude else magnitude)
  | .infinite negative => some (if negative then -finiteCount else finiteCount)
  | .nan => none

/-- Compares two numbers by their places; with what is not a number every comparison fails. -/
def compareBy (holds : Int → Int → Bool) (x y : Binary64) : Bool :=
  match x.rank?, y.rank? with
  | some a, some b => holds a b
  | _, _ => false

/-- The signed numerator of a finite number over `2 ^ 1074`. -/
def numerator? : Binary64 → Option Int
  | .finite negative magnitude _ =>
    let (significand, power) := parts magnitude
    let n : Int := (significand * Nat.pow 2 power : Nat)
    some (if negative then -n else n)
  | _ => none

/-- The whole number that a real number is. -/
def toInt? (x : Binary64) : Option Int :=
  x.numerator?.bind fun n => if n % Nat.pow 2 1074 = 0 then some (n / Nat.pow 2 1074) else none

/-- The sum, rounded to the nearest number. -/
def add : Binary64 → Binary64 → Binary64
  | .nan, _ | _, .nan => .nan
  | .infinite s, .infinite t => if s = t then .infinite s else .nan
  | .infinite s, _ | _, .infinite s => .infinite s
  | x@(.finite s ..), y@(.finite t ..) =>
    let sum := x.numerator?.getD 0 + y.numerator?.getD 0
    ofRatio (if sum = 0 then s && t else sum < 0) sum.natAbs (Nat.pow 2 1074)

/-- The product, rounded to the nearest number. -/
def mul : Binary64 → Binary64 → Binary64
  | .nan, _ | _, .nan => .nan
  | .infinite s, .infinite t => .infinite (s != t)
  | .infinite s, .finite t m _ | .finite t m _, .infinite s =>
    if m = 0 then .nan else .infinite (s != t)
  | .finite s m _, .finite t n _ =>
    let (a, b) := ratio m
    let (c, d) := ratio n
    ofRatio (s != t) (a * c) (b * d)

/-- The quotient, rounded to the nearest number. -/
def div : Binary64 → Binary64 → Binary64
  | .nan, _ | _, .nan => .nan
  | .infinite _, .infinite _ => .nan
  | .infinite s, .finite t _ _ => .infinite (s != t)
  | .finite s _ _, .infinite t => .finite (s != t) 0 (by decide)
  | .finite s m _, .finite t n _ =>
    let (a, b) := ratio m
    let (c, d) := ratio n
    if c = 0 then (if a = 0 then .nan else .infinite (s != t))
    else ofRatio (s != t) (a * d) (b * c)

/-- The number is greater than a whole number. -/
def exceeds (x : Binary64) (n : Int) : Bool :=
  match x with
  | .nan => false
  | .infinite negative => !negative
  | .finite .. => n * Nat.pow 2 1074 < x.numerator?.getD 0

end Binary64

end Inventory
