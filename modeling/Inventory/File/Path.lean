import Inventory.Text.Case
import Inventory.Text.Lines

/-!
Paths of files: parts below the root or below some directory. Parts without meaning are dropped
when a path is read; parts that lead upwards stay until the path is resolved.
-/
namespace Inventory

structure Path where
  /-- The slashes in front: none for a relative path; two in front are kept apart from one. -/
  slashes : Nat
  parts : List String
  deriving DecidableEq, Repr

namespace Path

/-- The pieces of a text between slashes. -/
def pieces (text : String) : List String :=
  (Text.piecesAt (· == '/') text.toList).map String.ofList

/-- The path of a text. -/
def ofText (text : String) : Path :=
  let lead := (text.toList.takeWhile (· == '/')).length
  ⟨if lead = 2 then 2 else min lead 1, (pieces text).filter fun part => part != "" && part != "."⟩

/-- The path below the root with the given parts. -/
def ofParts (parts : List String) : Path :=
  ⟨1, parts⟩

def isAbsolute (p : Path) : Bool :=
  p.slashes != 0

/-- The text of a path. The empty path is the directory itself. -/
def toText (p : Path) : String :=
  if p.slashes = 0 && p.parts.isEmpty then "."
  else String.ofList (List.replicate p.slashes '/') ++ "/".intercalate p.parts

/-- The path holds the null character, and so names nothing on a disk. -/
def holdsNull (p : Path) : Bool :=
  p.parts.any fun part => part.toList.contains '\x00'

/-- The last part; the root has none. -/
def name (p : Path) : String :=
  p.parts.getLast?.getD ""

def parent (p : Path) : Path :=
  { p with parts := p.parts.dropLast }

/-- The path as seen from a directory; an absolute path stays as it is. -/
def join (directory p : Path) : Path :=
  if p.isAbsolute then p else { directory with parts := directory.parts ++ p.parts }

/-- The ending of the name from its last point on. A point at either end of the name begins
none. -/
def suffix (p : Path) : String :=
  let name := p.name.toList
  let stem := (name.reverse.dropWhile (· != '.')).drop 1
  let ending := (name.reverse.takeWhile (· != '.')).reverse
  if stem.isEmpty || ending.isEmpty then "" else String.ofList ('.' :: ending)

/-- One step of resolving: upwards, or down into a part. -/
def step (done : List String) (part : String) : List String :=
  if part = ".." then done.dropLast else done ++ [part]

/-- The parts below the root after all steps upwards; the root is above itself. -/
def resolved (p : Path) : List String :=
  p.parts.foldl step []

/-- The path without steps upwards, for an absolute one. -/
def resolve (p : Path) : Path :=
  ofParts p.resolved

/-- The directory lies above the path, at any distance. -/
def isAbove (directory p : Path) : Bool :=
  directory.parts.isPrefixOf p.parts && directory.parts != p.parts

end Path

end Inventory
