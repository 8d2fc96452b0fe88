import Inventory.Command.Basic
import Inventory.Command.Run
import Inventory.Console.View
import Inventory.Label.Binding
import Inventory.Label.Output

/-!
The commands about labels: a label for an entry, a sheet of unused keys, and the list of
templates. The file is written last, so a command that ends early has not touched it.
-/
namespace Inventory.Command

open Console Run

/-- The place of a label. If a file is there, the person is asked whether it may go. -/
def prepareOutput (order : LabelOrder) : Run Path := do
  let s ← surroundings
  let target ← reported (Label.output (Path.ofText order.output).toText s.work)
  if !order.overwrite && (← onDisk (s.disk.contains s.work target)) then
    confirmed ("  " ++ target.name ++ " already exists. Replace it?") "  [dim]Cancelled.[/]"
  return target

/-- The template of a label, and whether the label is strict. -/
def loadTemplate (order : LabelOrder) : Run (Template × Bool) := do
  let initial ← settings
  let s ← surroundings
  let directory := order.directory.getD initial.templates
  let t ← reported (Template.load s.disk s.work order.template (some directory))
  return (t, order.strict.getD initial.strict)

/-- The label that filling gives, with its warnings shown. -/
def filled (result : Except Fault Label) : Run Label := do
  let l ← reported result
  for warning in l.warnings do
    showLine ("[yellow]⚠[/] " ++ escape warning)
  return l

/-- Writes a label, in a directory that is created if it is missing. `draws` are the letters that
make the name of the file new while it is written, in the order in which they are tried. -/
def writeLabel (draws : List String) (target : Path) (l : Label) : Run Unit := do
  changeDisk (·.makeDirectory target.parent)
  changeDisk (·.replace draws target (.bytes l.text.toUTF8))

def showPath (p : Path) : String :=
  "[bold]" ++ escape p.toText ++ "[/]"

def makeLabel (draws : List String) (database : Option Path) (key : String) (order : LabelOrder) :
    Run Unit := do
  let target ← prepareOutput order
  let (t, strict) ← loadTemplate order
  let db ← openInventory database
  let e ← perform db (Store.find key)
  let l ← filled (← attempt db (Store.fill t e strict))
  writeLabel draws target l
  showLine ("  [green]✓[/] Written to " ++ showPath target)

/-- The first and the last of some keys. -/
def keyRange (keys : List String) : String :=
  "(" ++ escape (keys.headD "") ++ " … " ++ escape (keys.getLastD "") ++ ")"

def makeSheet (draws : List String) (database : Option Path) (start : Int) (order : LabelOrder) :
    Run Unit := do
  let target ← prepareOutput order
  let (t, strict) ← loadTemplate order
  if t.slotCount = 0 then
    fail (Message.invalidInput
      ("Template '" ++ t.name ++ "' has no \x7b\x7b" ++ Template.nextKey ++ "\x7d\x7d slots."))
  let db ← openInventory database
  let keys ← perform db (Store.nextKeys t.slotCount start)
  let l ← filled (t.fillKeys keys strict)
  writeLabel draws target l
  showLine (s!"  [green]✓[/] {keys.length} keys " ++ keyRange keys ++ " written to " ++
    showPath target)

def listTemplates (directory : Option Path) : Run Unit := do
  let directory ←
    match directory with
    | some d => pure d
    | none => do pure (← settings).templates
  let s ← surroundings
  showTable (templatesTable directory (← onDisk (Template.filesIn s.disk s.work directory)))

end Inventory.Command
