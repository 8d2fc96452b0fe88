import Inventory.File.Path

/-!
Commands: what a person can ask of an inventory, with everything that the asking says.
-/
namespace Inventory

/-- How a label is made. -/
structure LabelOrder where
  /-- Where the label goes. -/
  output : String
  /-- The template: its name or path. -/
  template : String
  /-- The directory of templates, unless it is the one in the settings. -/
  directory : Option Path
  /-- Whether every placeholder needs a value, unless the settings say so. -/
  strict : Option Bool
  /-- A file that is there is replaced without a question. -/
  overwrite : Bool
  deriving DecidableEq, Repr

inductive Command where
  | init (settingsFile : Option Path)
  | addCategory (category : String) (fields : List String)
  | addField (category field : String)
  /-- A command that is `sure` asks no question. -/
  | removeCategory (category : String) (sure : Bool)
  | categories
  | add (category key location : String) (quantity : Int) (assignments : List String)
  | find (key : String)
  | modify (key : String) (assignments : List String)
  | give (key : String) (amount : Int)
  | take (key : String) (amount : Int)
  | delete (key : String) (sure : Bool)
  | list (category : String)
  | search (category : String) (constraints : List String)
  | label (key : String) (order : LabelOrder)
  | keySheet (start : Int) (order : LabelOrder)
  | templates (directory : Option Path)
  | importFile (file : String)
  deriving DecidableEq, Repr

/-- The paths of files and directories that a command was given. -/
def Command.givenPaths : Command → List Path
  | .init settingsFile => settingsFile.toList
  | .label _ order | .keySheet _ order => Path.ofText order.output :: order.directory.toList
  | .templates directory => directory.toList
  | .importFile file => [Path.ofText file]
  | _ => []

/-- A command, and the database it works on unless it is the one in the settings. -/
structure Invocation where
  command : Command
  database : Option Path
  deriving DecidableEq, Repr

/-- One of the given paths holds the null character. -/
def Invocation.givesNull (i : Invocation) : Bool :=
  (i.database.toList ++ i.command.givenPaths).any (·.holdsNull)

end Inventory
