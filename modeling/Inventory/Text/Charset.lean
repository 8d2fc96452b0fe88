import Inventory.Text.CharsetData
import Inventory.Text.Utf8

/-!
Charsets by their names, as documents declare them, and reading characters in them. Only charsets
of one byte a character can be read.
-/
namespace Inventory.Text

/-- How characters are written in bytes. -/
inductive Charset where
  | utf8
  /-- One byte a character: bytes below 128 are ASCII except for those of `lost`, and the others
  are the characters `upper`. -/
  | page (upper lost : List Char)
  /-- Bytes below 128 are not ASCII. -/
  | foreign
  deriving DecidableEq

/-- Why nothing can be read in what a name stands for. -/
inductive CharsetFault where
  | unknown (name : String)
  /-- A transformation of bytes, which gives no text. -/
  | noText (name : String)
  | multibyte
  /-- The names of hosts have a writing of their own, in which not all bytes can stand. -/
  | failing (name reason : String)
  | undecodable
  deriving DecidableEq, Repr

def CharsetFault.message : CharsetFault → String
  | unknown name => s!"unknown encoding: {name}"
  | noText name =>
    s!"'{String.ofList (name.toList.take 400)}' is not a text encoding; " ++
      "use codecs.decode() to handle arbitrary codecs"
  | multibyte => "multi-byte encodings are not supported"
  | failing name reason => s!"decoding with '{name}' codec failed (UnicodeError: {reason})"
  | undecodable => "ordinal not in range(128)"

namespace Charset

/-- A name in lower case, with one underscore for marks between letters, digits and points. -/
def plainName (name : String) : String :=
  String.ofList (joined false (name.toList.dropWhile (!isLetter ·)))
where
  isLetter (c : Char) : Bool := c.isAlphanum || c == '.'
  /-- `isApart` tells whether marks stand in front. -/
  joined (isApart : Bool) : List Char → List Char
    | [] => []
    | c :: rest =>
      if isLetter c then
        (if isApart then ['_', c.toLower] else [c.toLower]) ++ joined false rest
      else joined true rest

/-- A plain name with underscores for its points. -/
def withoutPoints (name : String) : String :=
  String.ofList (name.toList.map fun c => if c = '.' then '_' else c)

/-- The names under which a name is looked up. -/
def candidates (name : String) : List String :=
  let other := withoutPoints name
  if other == name || pointlessNames.contains other then [name] else [name, other]

/-- The charset of ASCII alone. -/
def ascii : Charset :=
  .page [] []

/-- The charset with a name. -/
def named (name : String) : Except CharsetFault Charset :=
  let keys := candidates (plainName name)
  let isOf (names : List String) := keys.any names.contains
  match codePages.find? fun p => isOf p.names with
  | some p => .ok (.page (p.upper.flatMap String.toList) [])
  | none =>
    if isOf asciiNames then .ok ascii
    else if isOf tildeNames then .ok (.page [] ['~'])
    else if isOf foreignNames then .ok .foreign
    else if isOf multibyteNames then .error .multibyte
    else if isOf transformNames then .error (.noText name)
    else if isOf ["idna"] then .error (.failing name "Unsupported error handling replace")
    else if isOf ["undefined"] then .error (.failing name "undefined encoding")
    else if isOf ["punycode"] then .error .undecodable
    else .error (.unknown name)

/-- The character that one byte stands for. -/
def char? (s : Charset) (byte : UInt8) : Option Char :=
  match s with
  | .page upper lost =>
    if byte < 128 then
      let c := Char.ofNat byte.toNat
      if lost.contains c then none else some c
    else upper[byte.toNat - 128]?.filter (· != '\ufffd')
  | _ => none

/-- The characters for which the bytes of a text in UTF-8 stand in a charset. -/
def read? (s : Charset) (text : List Char) : Option (List Char) :=
  match s with
  | .utf8 => some text
  | s => (text.flatMap String.utf8EncodeChar).mapM s.char?

/-- How many bytes a character takes. -/
def size (s : Charset) (c : Char) : Nat :=
  match s with
  | .utf8 => c.utf8Size
  | _ => 1

end Charset

end Inventory.Text
