import Inventory.File.Disk
import Inventory.Label.Template

/-!
Finding templates: by the name of one that comes with the program, by a path, or by a name in the
directory of templates.
-/
namespace Inventory.Template

/-- The ending of the files in a directory of templates. -/
def fileSuffix : String := ".svg.gz"

/-- The templates that come with the program, which are damaged. -/
def builtin : List (String × ByteArray) :=
  [("avery_18160", ⟨#[0x1f, 0xef, 0xbf, 0xbd]⟩), ("entry_label", ⟨#[0x1f, 0xef, 0xbf, 0xbd]⟩)]

def builtinNames : List String :=
  builtin.map Prod.fst

/-- The paths at which a source may be found, in the order in which they are tried. -/
def candidates (source : Path) (directory : Option Path) : List Path :=
  match directory with
  | some directory =>
    if source.isAbsolute then [source]
    else
      [source, directory.join source, directory.join ⟨0, [source.name ++ fileSuffix]⟩]
  | none => [source]

/-- The first path with a file, seen from a directory, and the bytes in it. -/
def firstFile (d : Disk) (work : Path) : List Path → Except Fault (Option (Path × Content))
  | [] => .ok none
  | p :: rest => do
    match ← d.file? work p with
    | some content => return some (p, content)
    | none => firstFile d work rest

/-- Loads the template that a source names. -/
def load (d : Disk) (work : Path) (source : String) (directory : Option Path) :
    Except Fault Template :=
  match builtin.lookup source with
  | some bytes => ofBytes source bytes
  | none => do
    match ← firstFile d work (candidates (Path.ofText source) directory) with
    | some (p, .bytes data) => ofBytes p.name data
    | some (p, .inventory _) => .error (.templateNotGzip p.name)
    | none => .error (.templateNotFound source builtinNames)

/-- The files in a directory that are named as templates, in order. -/
def filesIn (d : Disk) (work directory : Path) : Except Fault (List String) := do
  return ((← d.names work directory).filter (·.endsWith fileSuffix)).mergeSort (· ≤ ·)

/-- The name of the template in a file. -/
def nameOfFile (file : String) : String :=
  String.ofList (file.toList.take (file.length - fileSuffix.length))

end Inventory.Template
