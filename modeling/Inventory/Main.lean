import Inventory.Clock
import Inventory.Command.Execution
import Inventory.Command.Reach
import Inventory.Console.Plain
import Std.Time.DateTime.Timestamp

/-!
The program: it reads from the disk what a command looks at, executes the command, and writes
what has changed.
-/
open Inventory

namespace Inventory.Main

/-- Reads what is at a place. Of the templates in a directory only the names are read. -/
def readPlace (base : Path) (d : Disk) (place : Place) : IO Disk := do
  let file := (← IO.currentDir) / (Path.ofParts place).toText
  if !(← file.pathExists) then return d
  if !(← file.isDir) then
    return d.put place (.file (.ofBytes (← IO.FS.readBinFile file)))
  let d := d.put place .directory
  if place != base.resolved then return d
  let children ← file.readDir
  return children.foldl (fun d entry =>
    if entry.fileName.endsWith Template.fileSuffix && (d.lookup (place ++ [entry.fileName])).isNone
    then d.put (place ++ [entry.fileName]) (.file (.bytes ByteArray.empty)) else d) d

/-- Reads everything on the way to a path. -/
def readPath (work : Path) (d : Disk) (p : Path) : IO Disk := do
  let full := work.join p
  let mut d := d
  let mut place : Place := []
  for part in full.parts do
    place := Path.step place part
    d ← readPlace full d place
  return d

def readPaths (work : Path) (d : Disk) (paths : List Path) : IO Disk :=
  paths.foldlM (readPath work) d

/-- Writes the nodes that are not as they were before. -/
def writeChanges (before after : Disk) : IO Unit := do
  for (place, node) in after do
    let file := (← IO.currentDir) / (Path.ofParts place).toText
    match node, before.lookup place with
    | .directory, none => IO.FS.createDirAll file
    | .file content, some (.file old) =>
      if content.toBytes != old.toBytes then IO.FS.writeBinFile file content.toBytes
    | .file content, _ => IO.FS.writeBinFile file content.toBytes
    | _, _ => pure ()

def variableNames : List String :=
  ["PINV_DB", "PINV_TEMPLATE_DIR"]

/-- The home directories that a table of users gives, in which colons stand between the columns. -/
def usersOf (table : String) : List (String × Path) :=
  (table.splitOn "\n").filterMap fun line =>
    match line.splitOn ":" with
    | name :: _ :: _ :: _ :: _ :: directory :: _ => some (name, Path.ofText directory)
    | _ => none

/-- The home directories of all users. -/
def readUsers : IO (List (String × Path)) := do
  let table := (← IO.currentDir) / "/etc/passwd"
  if ← table.pathExists then return usersOf (← IO.FS.readFile table) else return []

/-- What a command line finds. -/
def surroundings (words : List String) : IO Surroundings := do
  let work := Path.ofText (← IO.FS.realPath (← IO.currentDir)).toString
  let home := Path.ofText ((← IO.getEnv "HOME").getD "/")
  let environment ← variableNames.filterMapM fun name => do
    return (← IO.getEnv name).map (name, ·)
  let now := Clock.stamp (← Std.Time.Timestamp.now).toSecondsSinceUnixEpoch.val.toNat
  let d ← readPaths work [] (Settings.files work home)
  let s : Surroundings := ⟨d, work, home, ← readUsers, environment, now⟩
  match Invocation.ofWords words, Settings.load s with
  | some i, .ok (settings, _) => return { s with disk := ← readPaths work d (i.paths settings) }
  | some i, .error _ =>
    return { s with disk := ← readPaths work d (i.paths (Settings.defaults home)) }
  | none, _ => return s

/-- Letters drawn by chance, for the name of a file while it is written. -/
def drawLetters : IO String := do
  return String.ofList (← (List.range 8).mapM fun _ => do return Char.ofNat (97 + (← IO.rand 0 25)))

/-- How many names are tried for a file while it is written. -/
def drawCount : Nat := 100

/-- Executes a command line, and again with one more line of input as long as a question stays
without an answer. `shown` and `asked` count what is on the screen already. -/
partial def converse (draws words : List String) (s : Surroundings) (input : String)
    (shown asked : Nat) : IO Outcome := do
  let o := executeDrawing draws words input s
  for output in o.shown.drop shown do
    IO.println output.plain
  IO.print (String.ofList (o.asked.toList.drop asked))
  (← IO.getStdout).flush
  match o.ending with
  | some .unanswered =>
    let line ← (← IO.getStdin).getLine
    if line.isEmpty then return o
    converse draws words s (input ++ line) o.shown.length (o.asked.length + line.length)
  | _ => return o

end Inventory.Main

open Inventory.Main in
def main (words : List String) : IO UInt32 := do
  let s ← surroundings words
  let draws ← (List.range drawCount).mapM fun _ => drawLetters
  let o ← converse draws words s "" 0 0
  writeChanges s.disk o.disk
  if o.exitCode = 2 then IO.eprintln "Usage: pinv COMMAND [OPTIONS] [ARGUMENTS]"
  if let some f := o.fault? then IO.eprintln f.message
  return o.exitCode.toUInt32
