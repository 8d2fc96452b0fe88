import Inventory.Text.Quoted

/-!
Bytes in a settings file, which are written with 64 characters, each of which gives six bits.
-/
namespace Inventory.Yaml

/-- The six bits that a character gives. -/
def sixBits? (c : Char) : Option Nat :=
  let n := c.toNat
  if 'A' ≤ c && c ≤ 'Z' then some (n - 65)
  else if 'a' ≤ c && c ≤ 'z' then some (n - 71)
  else if c.isDigit then some (n + 4)
  else if c = '+' then some 62
  else if c = '/' then some 63
  else none

/-- Decodes characters after `place` of a group of four, which left some bits over; `pads` counts
the equals signs just before. Other characters do not count. A group must be full, or filled up
with equals signs, which end the bytes. -/
def decodeGroups : (place left pads : Nat) → List Char → Option (List Nat)
  | place, _, _, [] => if place = 0 then some [] else none
  | place, left, pads, c :: rest =>
    if c = '=' then
      if place < 2 then decodeGroups place left pads rest
      else if 4 ≤ place + pads + 1 then some []
      else decodeGroups place left (pads + 1) rest
    else
      match sixBits? c, place with
      | none, _ => decodeGroups place left pads rest
      | some bits, 0 => decodeGroups 1 bits 0 rest
      | some bits, 1 => (decodeGroups 2 (bits % 16) 0 rest).map ((4 * left + bits / 16) :: ·)
      | some bits, 2 => (decodeGroups 3 (bits % 4) 0 rest).map ((16 * left + bits / 4) :: ·)
      | some bits, _ => (decodeGroups 0 0 0 rest).map ((64 * left + bits) :: ·)

/-- The bytes that a text in ASCII is written for. -/
def readBytes? (cs : List Char) : Option (List Nat) :=
  if cs.all fun c => c.toNat < 128 then decodeGroups 0 0 0 cs else none

/-- One byte inside quotes. -/
def quoteByte (quote : Char) (n : Nat) : List Char :=
  if 0x7f ≤ n then '\\' :: 'x' :: Text.hex 2 n else Text.quoteChar quote (Char.ofNat n)

/-- The form of bytes inside messages. -/
def displayBytes (bytes : List Nat) : String :=
  let quote := Text.quoteFor (bytes.map Char.ofNat)
  String.ofList ('b' :: quote :: bytes.flatMap (quoteByte quote) ++ [quote])

end Inventory.Yaml
