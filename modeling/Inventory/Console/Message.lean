import Inventory.Console.Markup
import Inventory.Fault

/-!
Messages for people. Each says what went wrong and what to do about it.
-/
namespace Inventory.Message

open Console

def error (cause advice : String) : String :=
  "[red]Error:[/] " ++ cause ++ "\n" ++ advice

def noDatabase (path : String) : String :=
  error s!"No database found at '{escape path}'." s!"  Run:  pinv init --db {escape path}"

def categoryNotFound (category : String) : String :=
  error s!"Catagory '{escape category}' not found."
    "  Run:  pinv catagories  to see all catagories."

def duplicateCategory (category : String) : String :=
  error s!"Catagory '{escape category}' already exists."
    s!"  Use:  pinv add-field {escape category} NAME:TYPE  to extend it."

def categoryNotEmpty (category count : String) : String :=
  error s!"Catagory '{escape category}' still holds {count} entries."
    s!"  Run:  pinv list --catagory {escape category}  and delete them first."

def entryNotFound (key : String) : String :=
  s!"[yellow]Entry not found:[/] no entry has key '{escape key}'.\n" ++
    "  Run:  pinv list --catagory <catagory>  to see stored keys."

def duplicateKey (key : String) : String :=
  error s!"Key '{escape key}' is already in use."
    (s!"  Run:  pinv find {escape key}  to see it, or pick an unused key " ++
      "(pinv key-sheet prints a sheet of them).")

def unknownField (field category : String) : String :=
  error s!"Catagory '{escape category}' has no field '{escape field}'."
    ("  Run:  pinv catagories  to see declared fields, or\n" ++
      s!"        pinv add-field {escape category} {escape field}:t  to declare it.")

def insufficientQuantity (key quantity taken : String) : String :=
  error s!"Cannot take {taken} from '{escape key}': only {quantity} left."
    s!"  Use:  pinv take --key {escape key} {quantity}  to take everything."

def badAssignment (text : String) : String :=
  error s!"Invalid assignment '{escape text}'."
    "  Use:  field=value  (an empty value clears the field)"

def templateNotFound (source : String) (builtin : List String) : String :=
  let available := if builtin.isEmpty then "(none)" else ", ".intercalate builtin
  error s!"Template '{escape source}' not found."
    ("  Builtin templates: " ++ available ++ "\n  Run:  pinv templates")

def corruptTemplate (message : String) : String :=
  error (escape message) "  Run:  gzip -k label.svg  to compress a plain SVG template."

def unboundPlaceholders (names : List String) : String :=
  let listed := ", ".intercalate (names.map fun n => "\x7b\x7b" ++ n ++ "\x7d\x7d")
  error ("Template placeholders have no value: " ++ escape listed)
    "  Use:  --lenient  to leave them blank, or add the fields to the catagory."

def storage (message : String) : String :=
  error ("The database failed: " ++ escape message)
    ("  Check the file permissions and free disk space, or restore the\n" ++
      "  database file from a backup.")

def invalidInput (message : String) : String :=
  error (escape message) "  Fix the value and run the command again."

def deletionIsFinal : String :=
  "[yellow]⚠[/] Once an entry is deleted it cannot be restored."

/-- The texts of a list value. -/
def textsOf : Option Value → List String
  | some (.list items) => items.map Value.shown
  | _ => []

/-- A change of a quantity as the amount that was to be taken. -/
def takenOf : Option Value → String
  | some (.int n) => toString (-n)
  | some (.bool true) => "-1"
  | _ => "0"

/-- The message for a fault. -/
def ofReport (r : Report) : String :=
  let shown name := (r.details.get? name).elim "" Value.shown
  let number name := (r.details.get? name).elim "0" Value.shown
  match r.kind with
  | .categoryNotFound => categoryNotFound (shown "catagory")
  | .duplicateCategory => duplicateCategory (shown "catagory")
  | .categoryNotEmpty => categoryNotEmpty (shown "catagory") (number "entries")
  | .entryNotFound => entryNotFound (shown "key")
  | .duplicateKey => duplicateKey (shown "key")
  | .unknownField =>
    if r.details.contains "catagory" then unknownField (shown "field") (shown "catagory")
    else invalidInput r.message
  | .insufficientQuantity =>
    insufficientQuantity (shown "key") (number "quantity") (takenOf (r.details.get? "delta"))
  | .templateNotFound =>
    templateNotFound (shown "source") (textsOf (r.details.get? "builtin"))
  | .corruptTemplate => corruptTemplate r.message
  | .unboundPlaceholder => unboundPlaceholders (textsOf (r.details.get? "placeholders"))
  | kind => if kind.isStorage then storage r.message else invalidInput r.message

def ofFault (f : Fault) : String :=
  ofReport f.report

end Inventory.Message
