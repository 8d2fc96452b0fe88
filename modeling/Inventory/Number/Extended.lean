import Inventory.Number.Decimal

/-!
Positive numbers of 64 binary digits, with exponents as small and as large as needed. Results are
rounded to the nearest such number, and of two equally near ones to the even one. Databases
compute with them on the way between decimal writing and binary64.
-/
namespace Inventory

/-- The number `digits * 2 ^ exponent`. -/
structure Extended where
  digits : Nat
  exponent : Int
  deriving DecidableEq, Repr

namespace Extended

/-- The number nearest to `num / den * 2 ^ exponent`. -/
def nearest (num den : Nat) (exponent : Int) : Extended :=
  if num = 0 then ⟨0, 0⟩
  else
    let step := Binary64.binaryExponent num den - 63
    let digits :=
      if 0 ≤ step then Binary64.roundQuotient num (den * Nat.pow 2 step.toNat)
      else Binary64.roundQuotient (num * Nat.pow 2 (-step).toNat) den
    ⟨digits, step + exponent⟩

def ofNat (n : Nat) : Extended :=
  nearest n 1 0

/-- The number that a magnitude of binary64 stands for, which has fewer digits. -/
def ofMagnitude (magnitude : Nat) : Extended :=
  let (significand, power) := Binary64.parts magnitude
  nearest significand 1 ((power : Int) - 1074)

/-- The number of the binary64 number nearest to a decimal. -/
def ofDecimal (d : Decimal) : Extended :=
  ofMagnitude d.nearest

def mul (a b : Extended) : Extended :=
  nearest (a.digits * b.digits) 1 (a.exponent + b.exponent)

def div (a b : Extended) : Extended :=
  nearest a.digits b.digits (a.exponent - b.exponent)

/-- The digits of a number for a smaller exponent. -/
def digitsFor (a : Extended) (exponent : Int) : Nat :=
  a.digits * Nat.pow 2 (a.exponent - exponent).toNat

def add (a b : Extended) : Extended :=
  let exponent := min a.exponent b.exponent
  nearest (a.digitsFor exponent + b.digitsFor exponent) 1 exponent

def isAtMost (a b : Extended) : Bool :=
  let exponent := min a.exponent b.exponent
  a.digitsFor exponent ≤ b.digitsFor exponent

/-- The whole part, and the number without it. -/
def split (a : Extended) : Nat × Extended :=
  if 0 ≤ a.exponent then (a.digits * Nat.pow 2 a.exponent.toNat, ⟨0, 0⟩)
  else
    let unit := Nat.pow 2 (-a.exponent).toNat
    (a.digits / unit, ⟨a.digits % unit, a.exponent⟩)

/-- The binary64 number nearest to the number with a sign. -/
def toBinary64 (negative : Bool) (a : Extended) : Binary64 :=
  if 0 ≤ a.exponent then .ofRatio negative (a.digits * Nat.pow 2 a.exponent.toNat) 1
  else .ofRatio negative a.digits (Nat.pow 2 (-a.exponent).toNat)

/-- Multiplies `power` by the powers of `base` that the binary digits of `n` name, lowest digit
first. -/
def powerFrom (power base : Extended) : (fuel : Nat) → (n : Nat) → Extended
  | 0, _ => power
  | fuel + 1, n =>
    let power := if n % 2 = 1 then power.mul base else power
    if n / 2 = 0 then power else powerFrom power (base.mul base) fuel (n / 2)

/-- A power of ten. -/
def tenTo (n : Nat) : Extended :=
  powerFrom (ofNat 1) (ofNat 10) (n + 1) n

end Extended

end Inventory
