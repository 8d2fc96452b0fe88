import Inventory.Command.Run

/-!
The command that creates the settings file and the inventory, as far as they are missing.
-/
namespace Inventory.Command

open Console Run

/-- What a person may do next. -/
def nextSteps : List String :=
  ["\nNext steps:",
   "  1. pinv add-catagory NAME FIELD:TYPE ...   (define a catagory)",
   "  2. pinv add --catagory NAME --key KEY ...  (add entries)",
   "  3. pinv key-sheet keys.svg                 (print unused keys)"]

/-- Creates the settings file at a path unless it is there. -/
def ensureSettings (file : Path) : Run Unit := do
  let s ← surroundings
  changeDisk (Settings.create · (s.work.join file))

def start (database settingsFile : Option Path) : Run Unit := do
  let file := settingsFile.getD (Settings.globalFile (← surroundings).home)
  ensureSettings file
  showLine ("  [green]✓[/] " ++ escape file.toText ++ " (global config)")
  let p ← databasePath database
  let s ← surroundings
  let isThere ← onDisk (s.disk.contains s.work p)
  connect p
  let state := if isThere then "already initialized, schema up to date" else "new inventory"
  showLine ("  [green]✓[/] " ++ escape p.toText ++ " (" ++ state ++ ")")
  nextSteps.forM showLine

end Inventory.Command
