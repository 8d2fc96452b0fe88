import Inventory.Command.Basic
import Inventory.Command.Words
import Inventory.Number.Numeral

/-!
Command lines: the name of a command, then its options and arguments. A line that misses
something, has too much or gives a number that is none stands for no command.
-/
namespace Inventory

namespace Command

/-! ### Options -/

def databaseFlag : Flag := ⟨"db", none, true⟩
def settingsFlag : Flag := ⟨"global-config", none, true⟩
def sureFlag : Flag := ⟨"yes", some 'y', false⟩
def categoryFlag : Flag := ⟨"catagory", some 'c', true⟩
def keyFlag : Flag := ⟨"key", some 'k', true⟩
def locationFlag : Flag := ⟨"location", some 'l', true⟩
def quantityFlag : Flag := ⟨"quantity", some 'q', true⟩
def constraintFlag : Flag := ⟨"where", some 'w', true⟩
def templateFlag : Flag := ⟨"template", some 't', true⟩
def directoryFlag : Flag := ⟨"template-dir", none, true⟩
def startFlag : Flag := ⟨"start", none, true⟩
def strictFlag : Flag := ⟨"strict", none, false⟩
def lenientFlag : Flag := ⟨"lenient", none, false⟩

namespace Words

def given? (w : Words) (f : Flag) : Option String :=
  w.value? f.name

def path? (w : Words) (f : Flag) : Option Path :=
  (w.given? f).map Path.ofText

/-- The whole number of an option, or the one it has when it is not given. -/
def whole? (w : Words) (f : Flag) (otherwise : Int) : Option Int :=
  match w.given? f with
  | none => some otherwise
  | some text => (Numeral.read text).toOption

/-- Whether labels are strict, if an option says so. -/
def strict? (w : Words) : Option Bool :=
  (w.last? [strictFlag.name, lenientFlag.name]).map (· == strictFlag.name)

/-- The order of a label, with the template that is taken when none is given. -/
def labelOrder (w : Words) (output template : String) : LabelOrder :=
  ⟨output, (w.given? templateFlag).getD template, w.path? directoryFlag, w.strict?,
    w.has sureFlag.name⟩

end Words

/-! ### Commands -/

def labelFlags : List Flag :=
  [templateFlag, directoryFlag, strictFlag, lenientFlag, sureFlag]

/-- The options of a command beside the one for the database. -/
def flagsOf : (name : String) → List Flag
  | "init" => [settingsFlag]
  | "remove-catagory" | "delete" => [sureFlag]
  | "add" => [categoryFlag, keyFlag, locationFlag, quantityFlag]
  | "modify" | "give" | "take" => [keyFlag]
  | "list" => [categoryFlag]
  | "search" => [categoryFlag, constraintFlag]
  | "label" => labelFlags
  | "key-sheet" => startFlag :: labelFlags
  | "templates" => [directoryFlag]
  | _ => []

/-- The templates that are taken when none is given. -/
def labelTemplate : String := "entry_label"
def sheetTemplate : String := "avery_18160"

/-- The command with a name and sorted words. -/
def ofSorted (name : String) (w : Words) : Option Command :=
  match name, w.arguments with
  | "init", [] => some (.init (w.path? settingsFlag))
  | "add-catagory", category :: fields => some (.addCategory category fields)
  | "add-field", [category, field] => some (.addField category field)
  | "remove-catagory", [category] => some (.removeCategory category (w.has sureFlag.name))
  | "catagories", [] => some .categories
  | "add", assignments => do
    let category ← w.given? categoryFlag
    let key ← w.given? keyFlag
    let location ← w.given? locationFlag
    return .add category key location (← w.whole? quantityFlag 0) assignments
  | "find", [key] => some (.find key)
  | "modify", first :: others => do return .modify (← w.given? keyFlag) (first :: others)
  | "give", [amount] => do return .give (← w.given? keyFlag) (← (Numeral.read amount).toOption)
  | "take", [amount] => do return .take (← w.given? keyFlag) (← (Numeral.read amount).toOption)
  | "delete", [key] => some (.delete key (w.has sureFlag.name))
  | "list", [] => do return .list (← w.given? categoryFlag)
  | "search", [] => do return .search (← w.given? categoryFlag) (w.values constraintFlag.name)
  | "label", [key, output] => some (.label key (w.labelOrder output labelTemplate))
  | "key-sheet", [output] => do
    let start ← w.whole? startFlag 0
    if start < 0 then none else some (.keySheet start (w.labelOrder output sheetTemplate))
  | "templates", [] => some (.templates (w.path? directoryFlag))
  | "import", [file] => some (.importFile file)
  | _, _ => none

/-- The templates are no part of an inventory; every other command works on one. -/
def usesDatabase (name : String) : Bool :=
  name != "templates"

end Command

open Command in
/-- The invocation that the words of a command line stand for. -/
def Invocation.ofWords : List String → Option Invocation
  | [] => none
  | "--" :: name :: words => read name words
  | name :: words => read name words
where
  read (name : String) (words : List String) : Option Invocation := do
    let flags := if usesDatabase name then databaseFlag :: flagsOf name else flagsOf name
    let w ← Words.sort flags words
    return ⟨← ofSorted name w, w.path? databaseFlag⟩

end Inventory
