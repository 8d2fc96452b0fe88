import Inventory.Command.Entries
import Inventory.Command.Labels
import Inventory.Command.Line
import Inventory.Command.Schema
import Inventory.Command.Start

/-!
Executing command lines: what one shows, how it ends, and what is on the disk then.
-/
namespace Inventory

open Command in
/-- What a command does. Before anything else, the paths that it was given must be paths. -/
def Invocation.run (draws : List String) (i : Invocation) : Run Unit := do
  if i.givesNull then throw (.fault .nullCharacter)
  let db := i.database
  match i.command with
  | .init settingsFile => start db settingsFile
  | .addCategory category fields => defineCategory db category fields
  | .addField category field => extendCategory db category field
  | .removeCategory category sure => dropCategory db category sure
  | .categories => listCategories db
  | .add category key location quantity assignments =>
    addEntry db category key location quantity assignments
  | .find key => findEntry db key
  | .modify key assignments => modifyEntry db key assignments
  | .give key amount => changeQuantity db (Store.give key (.int amount))
  | .take key amount => changeQuantity db (Store.take key (.int amount))
  | .delete key sure => deleteEntry db key sure
  | .list category => listEntries db category
  | .search category constraints => searchEntries db category constraints
  | .label key order => makeLabel draws db key order
  | .keySheet start order => makeSheet draws db start order
  | .templates directory => listTemplates directory
  | .importFile file => importEntries db file

/-- How a command line ended, what it showed, and what is on the disk then. -/
structure Outcome where
  /-- None if all was done. -/
  ending : Option Ending
  shown : List Console.Output
  /-- The questions and the answers as they stand on the screen. -/
  asked : String
  disk : Disk

namespace Outcome

/-- The outcome of a line that stands for no command. -/
def misused (d : Disk) : Outcome :=
  ⟨some (.exit 2), [], "", d⟩

/-- The outcome of what a command did. -/
def ofRun : Except Ending Unit × Progress → Outcome
  | (.ok (), p) => ⟨none, p.shown, p.asked, p.surroundings.disk⟩
  | (.error e, p) => ⟨some e, p.shown, p.asked, p.surroundings.disk⟩

def exitCode (o : Outcome) : Nat :=
  match o.ending with
  | none => 0
  | some (.exit code) => code
  | some .unanswered | some (.fault _) => 1

/-- The fault that ended the command without a message. -/
def fault? (o : Outcome) : Option Fault :=
  match o.ending with
  | some (.fault f) => some f
  | _ => none

end Outcome

/-- Executes the words of a command line, with a text as its input and letters drawn by chance. -/
def executeDrawing (draws : List String) (words : List String) (input : String)
    (s : Surroundings) : Outcome :=
  match Invocation.ofWords words with
  | none => .misused s.disk
  | some i => .ofRun ((i.run draws).exec ⟨s, [], "", Text.endedLines input.toList⟩)

/-- Executes the words of a command line, with a text as its input. -/
def execute (words : List String) (input : String) (s : Surroundings) : Outcome :=
  executeDrawing Disk.usualDraws words input s

end Inventory
