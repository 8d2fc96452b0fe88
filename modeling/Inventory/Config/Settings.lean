import Inventory.Config.Merge
import Inventory.Fault
import Inventory.File.Disk
import Inventory.Yaml.Construction

/-!
Settings: where the database and the user's templates are, and whether labels are strict. They
come from a file in the home directory, a file in the working directory, which counts before it,
and variables, which count before both.
-/
namespace Inventory

/-- What a command finds when it starts. -/
structure Surroundings where
  disk : Disk
  /-- The working directory. -/
  work : Path
  /-- The home directory. -/
  home : Path
  /-- The home directories of all users by name. -/
  users : List (String × Path)
  environment : List (String × String)
  /-- The time at which rows are stamped. -/
  now : String

structure Settings where
  database : Path
  templates : Path
  strict : Bool

namespace Settings

/-- The directory below the home directory that holds what is not given otherwise. -/
def ownDirectory (home : Path) : Path :=
  home.join (Path.ofText ".pinv")

def globalFile (home : Path) : Path :=
  (ownDirectory home).join (Path.ofText "config.yaml")

def projectFile (work : Path) : Path :=
  work.join (Path.ofText "pinv.yaml")

def defaults (home : Path) : Settings :=
  ⟨(ownDirectory home).join (Path.ofText "pinv.db"),
   (ownDirectory home).join (Path.ofText "templates"), true⟩

/-- The settings file that is created when there is none. It repeats the defaults. -/
def initialText : String :=
  "# pinv global configuration.\n" ++
  "# A pinv.yaml in the working directory overrides these values.\n" ++
  "\n" ++
  "database:\n" ++
  "  path: ~/.pinv/pinv.db\n" ++
  "\n" ++
  "templates:\n" ++
  "  directory: ~/.pinv/templates\n" ++
  "  strict: true\n"

/-- The home directory of a user. -/
def homeOf (s : Surroundings) (user : String) : Except Fault Path :=
  if user.toList.contains '\x00' then .error .nullCharacter
  else
    match s.users.lookup user with
    | some home => .ok home
    | none => .error .noHome

/-- A path of a setting; `~` in front stands for the home directory, and with a name for that of
another user. -/
def expand (s : Surroundings) (text : String) : Except Fault Path :=
  let p := Path.ofText text
  match p.slashes, p.parts with
  | 0, first :: rest =>
    if first = "~" then .ok (s.home.join ⟨0, rest⟩)
    else if first.startsWith "~" then do
      return (← homeOf s (String.ofList (first.toList.drop 1))).join ⟨0, rest⟩
    else .ok p
  | _, _ => .ok p

/-! ### Sections -/

/-- The items of a file. -/
abbrev Items := List (Yaml.Scalar × Yaml.Tree)

/-- A fault that shows a part of a file, unless that cannot be written. -/
def about (t : Yaml.Tree) (f : Fault) : Fault :=
  if t.isWritable then f else .unwritable

/-- The items of a section; a section that holds nothing counts as empty. -/
def sectionItems (name : String) (t : Yaml.Tree) : Except Fault Items :=
  match t with
  | .mapping items => .ok items
  | t => if t.isEmpty then .ok [] else .error (about t (.sectionNotMapping name t.display))

/-- The value of a setting in a section, if it is given. -/
def setting? (items : Items) (groupName name : String) : Except Fault (Option Yaml.Tree) :=
  match Yaml.Tree.get? items (.text groupName) with
  | none => .ok none
  | some t => do return Yaml.Tree.get? (← sectionItems groupName t) (.text name)

/-- A setting that must be a path. -/
def readPath (around : Surroundings) (label : String) (t : Yaml.Tree) : Except Fault Path :=
  match t with
  | .scalar (.text s) =>
    if Text.isBlankText s then .error (.settingNotPath label t.display) else expand around s
  | .scalar (.codes ns) => expand around (String.ofList (Yaml.Written.joined ns))
  | t => .error (about t (.settingNotPath label t.display))

/-- A setting that must be true or false. -/
def readBool (label : String) (t : Yaml.Tree) : Except Fault Bool :=
  match t with
  | .scalar (.bool b) => .ok b
  | t => .error (about t (.settingNotBool label t.display))

/-- A setting as it is given, or its default. -/
def orDefault (given : Option Yaml.Tree) (read : Yaml.Tree → Except Fault α) (fallback : α) :
    Except Fault α :=
  match given with
  | some t => read t
  | none => .ok fallback

/-- The settings that merged files give. -/
def ofItems (s : Surroundings) (items : Items) : Except Fault Settings := do
  let initial := defaults s.home
  let database ←
    orDefault (← setting? items "database" "path") (readPath s "database.path") initial.database
  let templates ←
    orDefault (← setting? items "templates" "directory") (readPath s "templates.directory")
      initial.templates
  let strict ←
    orDefault (← setting? items "templates" "strict") (readBool "templates.strict") initial.strict
  return ⟨database, templates, strict⟩

/-! ### Layers -/

/-- The sections that mean something. -/
def knownSections : List String :=
  ["database", "templates"]

/-- The name of an item means something. -/
def isKnown : Yaml.Scalar → Bool
  | .text s => knownSections.contains s
  | _ => false

/-- The warning about an item that means nothing. -/
def warning (file : Path) (name : Yaml.Scalar) : Except Fault String :=
  if name.isWritable then
    .ok ("Unknown config key '" ++ name.shown ++ "' in '" ++ file.toText ++ "'; ignored.")
  else .error .unwritable

/-- A warning for each item of a file that means nothing. -/
def warnings (file : Path) (items : Items) : Except Fault (List String) :=
  ((items.map Prod.fst).filter (!isKnown ·)).mapM (warning file)

/-- The items of a file with the given text. -/
def itemsOf (file : Path) (text : String) : Except Fault Items :=
  match Yaml.Tree.read text with
  | .error .malformed => .error (.configNotYaml file.toText)
  | .error f => .error (.badScalar f)
  | .ok (.mapping items) => .ok items
  | .ok t => if t.isEmpty then .ok [] else .error (.configNotMapping file.toText)

/-- The items of a file, none if there is no file. -/
def itemsAt (d : Disk) (file : Path) : Except Fault Items := do
  match ← d.find? file file with
  | none => return []
  | some (_, .directory) => throw .isDirectory
  | some (_, .file (.inventory _)) => throw (.configNotYaml file.toText)
  | some (_, .file (.bytes data)) =>
    match Text.decodeUtf8 data with
    | .ok text => itemsOf file text
    | .error f => .error (.notUtf8 f)

/-- A path from a variable, or the path otherwise. An empty variable counts as not set. -/
def orVariable (s : Surroundings) (name : String) (otherwise : Path) : Except Fault Path :=
  match s.environment.lookup name with
  | some text => if text.isEmpty then .ok otherwise else expand s text
  | none => .ok otherwise

/-- The settings, with warnings about items that mean nothing. -/
def load (s : Surroundings) : Except Fault (Settings × List String) := do
  let globalPath := globalFile s.home
  let projectPath := projectFile s.work
  let globalItems ← itemsAt s.disk globalPath
  let globalWarnings ← warnings globalPath globalItems
  let projectItems ← itemsAt s.disk projectPath
  let projectWarnings ← warnings projectPath projectItems
  let merged := Yaml.Tree.mergeItems (Yaml.Tree.mergeItems [] globalItems) projectItems
  let settings ← ofItems s merged
  let database ← orVariable s "PINV_DB" settings.database
  let templates ← orVariable s "PINV_TEMPLATE_DIR" settings.templates
  return (⟨database, templates, settings.strict⟩, globalWarnings ++ projectWarnings)

/-- Creates a settings file unless something is there already. -/
def create (d : Disk) (file : Path) : Except Disk.Broken Disk := do
  let d ← d.makeDirectory file.parent
  let created : Except Fault Disk := do
    if ← d.contains file file then return d
    else d.write file (.bytes initialText.toUTF8)
  created.mapError (⟨·, d⟩)

/-- The disk with a settings file. -/
def ensure (d : Disk) (file : Path) : Except Fault Disk :=
  (create d file).mapError (·.fault)

end Settings

end Inventory
