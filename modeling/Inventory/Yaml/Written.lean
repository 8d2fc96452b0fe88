import Inventory.Text.Quoted

/-!
The texts of scalars. An escape in a quoted scalar may give the number of one half of a character;
a text with such a number is kept as its numbers.
-/
namespace Inventory.Yaml

/-- What a scalar is written with. -/
inductive Written where
  | chars (cs : List Char)
  /-- Numbers of which some stand for no character. -/
  | codes (ns : List Nat)
  deriving DecidableEq

namespace Written

/-- The text that numbers give. -/
def ofCodes (ns : List Nat) : Written :=
  if ns.all (·.isValidChar) then .chars (ns.map Char.ofNat) else .codes ns

/-- One number of a quoted text. -/
def quoteCode (quote : Char) (n : Nat) : List Char :=
  if n.isValidChar then Text.quoteChar quote (Char.ofNat n) else '\\' :: 'u' :: Text.hex 4 n

/-- The quoted form of numbers. -/
def quotedCodes (ns : List Nat) : String :=
  let quote := Text.quoteFor (ns.map Char.ofNat)
  String.ofList (quote :: ns.flatMap (quoteCode quote) ++ [quote])

/-- The quoted form of a text. -/
def quoted : Written → String
  | chars cs => Text.quoted (String.ofList cs)
  | codes ns => quotedCodes ns

/-- The first number of a pair that stands for one character. -/
def isLeading (n : Nat) : Bool :=
  0xd800 ≤ n && n < 0xdc00

/-- The second number of a pair that stands for one character. -/
def isTrailing (n : Nat) : Bool :=
  0xdc00 ≤ n && n < 0xe000

/-- The characters of numbers: two halves make one, and a half alone is replaced. -/
def joined : List Nat → List Char
  | [] => []
  | [n] => [if n.isValidChar then Char.ofNat n else '\ufffd']
  | m :: n :: rest =>
    if isLeading m && isTrailing n then
      Char.ofNat (0x10000 + 0x400 * (m - 0xd800) + (n - 0xdc00)) :: joined rest
    else (if m.isValidChar then Char.ofNat m else '\ufffd') :: joined (n :: rest)

end Written

end Inventory.Yaml
