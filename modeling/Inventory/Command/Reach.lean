import Inventory.Command.Basic
import Inventory.Config.Settings
import Inventory.Label.Lookup

/-!
The paths at which commands look. What is at other paths makes no difference to them, so a
caller needs to show them no more of a disk than this.
-/
namespace Inventory

/-- The paths at which an order of a label looks. -/
def LabelOrder.paths (o : LabelOrder) (s : Settings) : List Path :=
  Path.ofText o.output ::
    Template.candidates (Path.ofText o.template) (some (o.directory.getD s.templates))

/-- The paths at which a command looks, beside those of the settings and of the database. -/
def Command.paths (s : Settings) : Command → List Path
  | .init (some file) => [file]
  | .label _ order | .keySheet _ order => order.paths s
  | .templates directory => [directory.getD s.templates]
  | .importFile file => [Path.ofText file]
  | _ => []

/-- The files in which settings are. -/
def Settings.files (work home : Path) : List Path :=
  [globalFile home, projectFile work]

def Invocation.paths (i : Invocation) (s : Settings) : List Path :=
  i.database.getD s.database :: i.command.paths s

end Inventory
