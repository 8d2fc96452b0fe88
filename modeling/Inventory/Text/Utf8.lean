import Inventory.Text.Quoted

/-!
Reading bytes as UTF-8. Bytes that are no UTF-8 text are refused with the place and the kind of
the first fault.
-/
namespace Inventory.Text

inductive Utf8Fault.Kind where
  | start
  | continuation
  | ending
  deriving DecidableEq, Repr

/-- The bytes `first … first + length - 1` begin no character. -/
structure Utf8Fault where
  first : Nat
  length : Nat
  byte : UInt8
  kind : Utf8Fault.Kind
  deriving DecidableEq, Repr

/-- How many continuation bytes a start byte asks for, and the range of the first of them. -/
def Utf8Fault.wanted? (b : UInt8) : Option (Nat × Nat × Nat) :=
  let n := b.toNat
  if n < 0x80 then some (0, 0, 0)
  else if n < 0xc2 then none
  else if n < 0xe0 then some (1, 0x80, 0xbf)
  else if n == 0xe0 then some (2, 0xa0, 0xbf)
  else if n == 0xed then some (2, 0x80, 0x9f)
  else if n < 0xf0 then some (2, 0x80, 0xbf)
  else if n == 0xf0 then some (3, 0x90, 0xbf)
  else if n < 0xf4 then some (3, 0x80, 0xbf)
  else if n == 0xf4 then some (3, 0x80, 0x8f)
  else none

/-- How many of the wanted continuation bytes stand at the head. -/
def Utf8Fault.present : (wanted low high : Nat) → List UInt8 → Nat
  | 0, _, _, _ => 0
  | _, _, _, [] => 0
  | k + 1, low, high, b :: rest =>
    if low ≤ b.toNat && b.toNat ≤ high then 1 + present k 0x80 0xbf rest else 0

/-- The first fault of bytes that start at position `at`. -/
def Utf8Fault.find? : (fuel position : Nat) → List UInt8 → Option Utf8Fault
  | 0, _, _ => none
  | _, _, [] => none
  | fuel + 1, position, b :: rest =>
    match wanted? b with
    | none => some ⟨position, 1, b, .start⟩
    | some (wanted, low, high) =>
      let found := present wanted low high rest
      if found == wanted then find? fuel (position + 1 + wanted) (rest.drop wanted)
      else if rest.length == found then some ⟨position, 1 + found, b, .ending⟩
      else some ⟨position, 1 + found, b, .continuation⟩

def Utf8Fault.Kind.reason : Utf8Fault.Kind → String
  | .start => "invalid start byte"
  | .continuation => "invalid continuation byte"
  | .ending => "unexpected end of data"

def Utf8Fault.message (f : Utf8Fault) : String :=
  let place :=
    if f.length == 1 then
      "byte 0x" ++ String.ofList (hex 2 f.byte.toNat) ++ " in position " ++ toString f.first
    else "bytes in position " ++ toString f.first ++ "-" ++ toString (f.first + f.length - 1)
  "'utf-8' codec can't decode " ++ place ++ ": " ++ f.kind.reason

/-- The byte can only go on with a character. -/
def Utf8Fault.isContinuation (b : UInt8) : Bool :=
  0x80 ≤ b.toNat && b.toNat < 0xc0

/-- How many bytes of a file are read at once. -/
def Utf8Fault.pieceSize : Nat := 8192

/-- Where the piece of a file begins in which the fault shows. Bytes that a character lacks at the
end are missed only when nothing more can be read. -/
def Utf8Fault.piece (f : Utf8Fault) (size : Nat) : Nat :=
  match f.kind with
  | .start => f.first / pieceSize * pieceSize
  | .continuation => (f.first + f.length) / pieceSize * pieceSize
  | .ending => size

/-- How many bytes of a file are text already when the fault shows. The bytes of a character that
goes on in the next piece are kept for that one. -/
def Utf8Fault.textBefore (f : Utf8Fault) (all : List UInt8) : Nat :=
  let piece := f.piece all.length
  if f.first ≤ piece then f.first
  else piece - ((all.take (piece + 1)).reverse.takeWhile isContinuation).length

/-- The text that bytes spell in UTF-8. -/
def decodeUtf8 (bytes : ByteArray) : Except Utf8Fault String :=
  match String.fromUTF8? bytes with
  | some s => .ok s
  | none =>
    let all := bytes.toList
    .error ((Utf8Fault.find? all.length 0 all).getD ⟨0, 1, 0, .start⟩)

end Inventory.Text
