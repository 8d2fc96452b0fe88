import Inventory.Database.Saved
import Inventory.File.Path

/-!
What is on the disk: directories and files by their places below the root. A file holds bytes,
or an inventory. Paths are followed step by step, and every step starts from a directory that is
there. A directory refuses to look for a name that is too long.
-/
namespace Inventory

inductive Content where
  | bytes (data : ByteArray)
  | inventory (db : Database)

namespace Content

/-- The bytes of a file. -/
def toBytes : Content → ByteArray
  | .bytes data => data
  | .inventory db => db.save.toUTF8

/-- The content of a file with the given bytes. -/
def ofBytes (data : ByteArray) : Content :=
  match (String.fromUTF8? data).bind Database.load? with
  | some db => .inventory db
  | none => .bytes data

end Content

/-- What is at a place. -/
inductive Node where
  | directory
  | file (content : Content)

/-- The place of a file or directory: the parts of its path below the root. -/
abbrev Place := List String

/-- The nodes by their places. The root needs none. -/
abbrev Disk := List (Place × Node)

namespace Disk

def node? (d : Disk) (place : Place) : Option Node :=
  if place.isEmpty then some .directory else d.lookup place

def isDirectoryAt (d : Disk) (place : Place) : Bool :=
  match d.node? place with
  | some .directory => true
  | _ => false

/-- The most bytes that a name of a file or directory has. -/
def nameLimit : Nat := 255

/-- The number of bytes from which on no path is followed. -/
def pathLimit : Nat := 4096

/-- The place that a step from a directory leads to. -/
def stepFrom (place : Place) (part : String) : Except Fault Place :=
  if nameLimit < part.utf8ByteSize then .error .nameTooLong else .ok (Path.step place part)

/-- Follows parts from a place; none if a step does not start from a directory. -/
def follow (d : Disk) : (place : Place) → (parts : List String) → Except Fault (Option Place)
  | place, [] => .ok (some place)
  | place, part :: rest =>
    if d.isDirectoryAt place then do follow d (← stepFrom place part) rest else .ok none

/-- What is at the end of a path seen from a directory, and where that is. -/
def find? (d : Disk) (work p : Path) : Except Fault (Option (Place × Node)) := do
  let full := work.join p
  if full.holdsNull then return none
  if pathLimit ≤ p.toText.utf8ByteSize then throw .nameTooLong
  return (← d.follow [] full.parts).bind fun place => (d.node? place).map (place, ·)

def contains (d : Disk) (work p : Path) : Except Fault Bool := do
  return (← d.find? work p).isSome

/-- The content of the file at the end of a path. -/
def file? (d : Disk) (work p : Path) : Except Fault (Option Content) := do
  match ← d.find? work p with
  | some (_, .file content) => return some content
  | _ => return none

/-- The names of what is in a directory; none if there is no directory at the path. -/
def names (d : Disk) (work p : Path) : Except Fault (List String) := do
  match ← d.find? work p with
  | some (place, .directory) =>
    return d.filterMap fun (other, _) => if other.dropLast = place then other.getLast? else none
  | _ => return []

/-- Puts a node at a place, over what is there. -/
def put : (d : Disk) → (place : Place) → Node → Disk
  | [], place, node => [(place, node)]
  | (other, old) :: rest, place, node =>
    if other = place then (place, node) :: rest else (other, old) :: put rest place node

/-- The disk without what is at a place. -/
def remove (d : Disk) (place : Place) : Disk :=
  d.filter (·.1 != place)

/-- A fault in the middle of a change of the disk, and the disk as it is then. -/
structure Broken where
  fault : Fault
  disk : Disk

/-- Creates a directory and those above it, as far as they are missing, from the place `done`
on. Those that were created before a fault stay. -/
def makeFrom (d : Disk) : (done : Place) → (parts : List String) → Except Broken Disk
  | _, [] => .ok d
  | done, part :: rest =>
    match stepFrom done part with
    | .error f => .error ⟨f, d⟩
    | .ok place =>
      match d.node? place with
      | some .directory => makeFrom d place rest
      | some (.file _) => .error ⟨if rest.isEmpty then .fileExists else .notDirectory, d⟩
      | none => makeFrom (d.put place .directory) place rest

/-- Creates the directory at a path and those above it, as far as they are missing. -/
def makeDirectory (d : Disk) (p : Path) : Except Broken Disk :=
  if p.holdsNull then .error ⟨.nullCharacter, d⟩ else makeFrom d [] p.parts

/-- Writes a file into a directory that is there. -/
def write (d : Disk) (p : Path) (content : Content) : Except Fault Disk := do
  if p.holdsNull then throw .nullCharacter
  match ← d.follow [] p.parts with
  | none => throw .notDirectory
  | some place =>
    match d.node? place with
    | some .directory => throw .isDirectory
    | _ => return d.put place (.file content)

/-- The name of a file while it is written: it is hidden, and drawn letters make it new. -/
def stagingName (name letters : String) : String :=
  "." ++ name ++ "." ++ letters ++ ".part"

/-- The first place in a directory that is free for a file that is to be written. -/
def stagingPlace (d : Disk) (directory : Place) (name : String) :
    (draws : List String) → Except Fault Place
  | [] => .error .fileExists
  | letters :: rest => do
    let place ← stepFrom directory (stagingName name letters)
    if (d.node? place).isSome then stagingPlace d directory name rest else return place

/-- Moves a file with some content over what is at another place, but not over a directory. -/
def move (d : Disk) (source target : Place) (content : Content) : Except Fault Disk :=
  if d.isDirectoryAt target then .error .isDirectory
  else .ok ((d.remove source).put target (.file content))

/-- Writes a file by way of another one beside it, which takes its place when it is complete, and
which is taken away when it cannot. -/
def replace (d : Disk) (draws : List String) (p : Path) (content : Content) :
    Except Broken Disk :=
  let places : Except Fault (Place × Place) := do
    match ← d.follow [] p.parent.parts with
    | none => throw .notDirectory
    | some directory =>
      return (← d.stagingPlace directory p.name draws, Path.step directory p.name)
  match places with
  | .error f => .error ⟨f, d⟩
  | .ok (staged, place) =>
    let written := d.put staged (.file content)
    (written.move staged place content).mapError fun f => ⟨f, written.remove staged⟩

/-- Letters that make names new where none are drawn by chance. -/
def usualDraws : List String :=
  ["00000000", "11111111", "22222222", "33333333"]

end Disk

end Inventory
