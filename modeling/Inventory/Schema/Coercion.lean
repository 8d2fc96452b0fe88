import Inventory.Fault
import Inventory.Text.Blank

/-!
How values become well-typed field values. A text is read as the type asks, and the empty text
is null; any other value must have the right kind already, where a whole number also serves as a
real one.
-/
namespace Inventory

/-- The range of whole numbers a field or a quantity holds. -/
def int64Min : Int := -0x8000000000000000
def int64Max : Int := 0x7fffffffffffffff

def inInt64 (n : Int) : Bool :=
  int64Min ≤ n && n ≤ int64Max

/-- A character that no XML document may hold. -/
def isXmlIllegal (c : Char) : Bool :=
  let n := c.toNat
  n < 9 || n == 0xb || n == 0xc || (0xe ≤ n && n < 0x20) || n == 0xfffe || n == 0xffff

/-- Texts are kept free of characters that no XML document may hold. -/
def checkText (s : String) (what : String) : Except Fault String :=
  match s.toList.find? isXmlIllegal with
  | some c => .error (.controlCharacter what c s)
  | none => .ok s

def checkRange (n : Int) : Except Fault Int :=
  if inInt64 n then .ok n else .error (.about (.int n) (.outOfRange n))

namespace FieldType

/-- The type that a code or a name in any case stands for. -/
def ofText (text : String) : Except Fault FieldType :=
  let lowered := Text.lower (Text.trim text)
  match all.find? fun t => lowered == t.code || lowered == t.word with
  | some t => .ok t
  | none => .error (.unknownFieldType text)

/-- Digits of any script after an optional sign, and nothing else. -/
def isIntegerText (s : String) : Bool :=
  let digits := (Numeral.signOf s.toList).2
  !digits.isEmpty && digits.all Text.isDigit

/-- Reads a text as an integer. -/
def parseInteger (raw : String) : Except Fault Int :=
  let text := Text.trim raw
  if !isIntegerText text then .error (.notOfType raw .integer)
  else
    match Numeral.read text with
    | .ok n => checkRange n
    | .error .malformed => .error (.notOfType raw .integer)
    | .error (.tooLong digits) => .error (.numeralTooLong digits)

/-- Reads a text as a finite real number. -/
def parseReal (raw : String) : Except Fault Binary64 :=
  match Binary64.read? (Text.trim raw) with
  | none => .error (.notOfType raw .real)
  | some x => if x.isFinite then .ok x else .error (.notFiniteText raw)

/-- Reads a text as a value of the type; the empty text is null. -/
def parse (t : FieldType) (raw : String) : Except Fault Value :=
  if raw = "" then .ok .null
  else
    match t with
    | .text => (checkText raw "text").map .text
    | .integer => (parseInteger raw).map .int
    | .real => (parseReal raw).map .real

/-- The value of the type that a given value stands for. -/
def coerce (t : FieldType) : Value → Except Fault Value
  | .null => .ok .null
  | .text s => t.parse s
  | .bool b => .error (.wrongKind (.bool b) t)
  | .int n =>
    match t with
    | .integer => (checkRange n).map .int
    | .real =>
      match Binary64.ofInt? n with
      | some x => .ok (.real x)
      | none => .error .beyondReals
    | .text => .error (.about (.int n) (.wrongKind (.int n) t))
  | .real x =>
    match t with
    | .real => if x.isFinite then .ok (.real x) else .error (.notFinite x)
    | _ => .error (.wrongKind (.real x) t)
  | v => .error (.about v (.wrongKind v t))

/-- A value that is well-typed as it stands, or null. -/
def accepts (t : FieldType) : Value → Bool
  | .null => true
  | .text _ => t == .text
  | .int n => t == .integer && inInt64 n
  | .real _ => t == .real
  | _ => false

end FieldType

end Inventory
