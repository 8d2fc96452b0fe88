import Inventory.Fault
import Inventory.Number.Numeral
import Inventory.Text.Blank
import Inventory.Text.Lines

/-!
Import files: a row with a category, a row with column names, and a row for each entry. Cells
are separated by the record separator, and nothing is quoted or escaped. Rows without any
visible character do not count.
-/
namespace Inventory

/-- One entry to create. `line` counts the rows that hold something, from 1. -/
structure ImportRow where
  line : Nat
  key : String
  location : String
  quantity : Nat
  fields : Mapping String

structure ImportBatch where
  category : String
  columns : List String
  rows : List ImportRow

namespace ImportBatch

/-- The character between two cells. -/
def separator : Char := '\x1e'

/-- The columns every file must have. -/
def required : List String :=
  ["key", "location", "quantity"]

/-- The cells of a line after the characters of `cell`, which stand in reverse. -/
def cells : (cell : List Char) → List Char → List String
  | cell, [] => [String.ofList cell.reverse]
  | cell, c :: rest =>
    if c = separator then String.ofList cell.reverse :: cells [] rest else cells (c :: cell) rest

/-- The row holds something. -/
def isRow (row : List String) : Bool :=
  row.any (!Text.isBlankText ·)

/-- A cell of the row is longer than cells may be. -/
def isTooLong (row : List String) : Bool :=
  row.any (Fault.cellLimit < ·.length)

/-- The rows of a text that hold something. -/
def table (text : String) : Except Fault (List (List String)) :=
  let all := (Text.lines text.toList).map (cells [])
  if all.any isTooLong then .error .cellTooLong
  else .ok (all.filter isRow)

/-- A name, key or location without white space around it and without single quotes. -/
def clean (cell : String) : String :=
  String.ofList ((Text.trim cell).toList.filter (· != '\''))

/-- The entry of a row. Of columns with one name, the last one counts. -/
def readRow (file : String) (columns : List String) (line : Nat) (row : List String) :
    Except Fault ImportRow := do
  if row.length ≠ columns.length then throw (.importCellCount file line columns.length row.length)
  let values := Mapping.ofPairs (columns.zip (row.map Text.trim))
  let cell name := (values.get? name).getD ""
  match Numeral.read (cell "quantity") with
  | .error _ => throw (.importQuantity file line)
  | .ok n =>
    if n < 0 then throw (.importNegative file line)
    let fields := values.filter fun (name, value) => !required.contains name && value != ""
    return ⟨line, clean (cell "key"), clean (cell "location"), n.toNat, fields⟩

def readRows (file : String) (columns : List String) :
    (line : Nat) → List (List String) → Except Fault (List ImportRow)
  | _, [] => .ok []
  | line, row :: rest => do
    return (← readRow file columns line row) :: (← readRows file columns (line + 1) rest)

/-- The batch of a text. `file` is the name that faults give to it. -/
def ofText (file text : String) : Except Fault ImportBatch := do
  match ← table text with
  | [] => throw (.importEmpty file)
  | [_] => throw (.importNoColumns file)
  | first :: second :: rest =>
    let columns := second.map fun cell => Text.lower (clean cell)
    let missing := required.filter (!columns.contains ·)
    if !missing.isEmpty then throw (.importColumnsMissing file missing)
    return ⟨clean (first.headD ""), columns, ← readRows file columns 3 rest⟩

/-- The lines of a file that are read before the fault in its bytes shows. -/
def linesBefore (bytes : ByteArray) (f : Text.Utf8Fault) : List (List Char) :=
  let text := (String.fromUTF8? (bytes.extract 0 (f.textBefore bytes.toList))).getD ""
  Text.completeLines text.toList

/-- The batch of a file's bytes. A file is read in pieces, and each line is cut into cells as soon as
it is complete; the place of a fault is counted from the first byte that is not text yet. -/
def ofBytes (file : String) (bytes : ByteArray) : Except Fault ImportBatch :=
  match Text.decodeUtf8 bytes with
  | .ok text => ofText file text
  | .error f =>
    if (linesBefore bytes f).any fun line => isTooLong (cells [] line) then .error .cellTooLong
    else .error (.notUtf8 { f with first := f.first - f.textBefore bytes.toList })

end ImportBatch

end Inventory
