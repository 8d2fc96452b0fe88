import Inventory.Xml.Entity

/-!
How large a document grows by its entities. Every byte of the document counts, and every byte of
an entity as often as the entity is used. A document that grows large may at no point have grown
to more than a hundred times of what was read of it so far.
-/
namespace Inventory.Xml

/-! ### Pieces -/

/-- A piece of a document: its size, and the names of the entities that it uses. -/
structure Piece where
  size : Nat
  names : List (List Char)

/-- The names between ampersands and semicolons. -/
def namesIn : List Char → List (List Char)
  | [] => []
  | c :: rest =>
    if c = '&' && rest.contains ';' then rest.takeWhile (· != ';') :: namesIn rest else namesIn rest

/-- How far a text goes up to the end of the first `mark` in it, from `count` on. -/
def lengthThrough (mark : List Char) (count : Nat) : List Char → Nat
  | [] => count
  | c :: rest =>
    if mark.isPrefixOf (c :: rest) then count + mark.length else lengthThrough mark (count + 1) rest

/-- How far a tag goes, from `count` on; a quoted value may hold its closing bracket. -/
def lengthOfTag (quote : Option Char) (count : Nat) : List Char → Nat
  | [] => count
  | c :: rest =>
    match quote with
    | some q => lengthOfTag (if c = q then none else some q) (count + 1) rest
    | none =>
      if c = '>' then count + 1
      else lengthOfTag (if c = '"' || c = '\'' then some c else none) (count + 1) rest

/-- The length of the first piece of content, and whether it can use entities. -/
def firstPiece (cs : List Char) : Nat × Bool :=
  match cs with
  | '<' :: '!' :: '-' :: '-' :: rest => (lengthThrough "-->".toList 4 rest, false)
  | '<' :: '!' :: rest => (lengthThrough "]]>".toList 2 rest, false)
  | '<' :: '?' :: rest => (lengthThrough "?>".toList 2 rest, false)
  | '<' :: rest => (lengthOfTag none 1 rest, true)
  | '&' :: rest => (lengthThrough [';'] 1 rest, true)
  | cs => ((cs.takeWhile fun c => c != '<' && c != '&').length, false)

/-- The number of bytes of a text whose characters have the given sizes. -/
def sizeBy (size : Char → Nat) (cs : List Char) : Nat :=
  cs.foldl (fun n c => n + size c) 0

/-- The pieces of content. -/
def piecesOf (size : Char → Nat) : (fuel : Nat) → List Char → List Piece
  | 0, _ => []
  | _, [] => []
  | fuel + 1, cs =>
    let (length, canUse) := firstPiece cs
    let piece := cs.take length
    ⟨sizeBy size piece, if canUse then namesIn piece else []⟩ ::
      piecesOf size fuel (cs.drop length)

/-! ### Entities -/

/-- How much the use of entities of the given sizes adds. Those that every document has are
single characters. -/
def added (sizes : List (List Char × Nat)) (names : List (List Char)) : Nat :=
  names.foldl (fun n name =>
    n + if (entities.lookup name).isSome then 1 else (sizes.lookup name).getD 0) 0

/-- How much a text adds where it is used. -/
def sizeWith (sizes : List (List Char × Nat)) (text : List Char) : Nat :=
  (piecesOf Char.utf8Size text.length text).foldl (fun n p => n + p.size + added sizes p.names) 0

/-- The sizes of entities when references are followed down to a depth. -/
def Entities.sizes (e : Entities) : (depth : Nat) → List (List Char × Nat)
  | 0 => []
  | depth + 1 =>
    let below := e.sizes depth
    e.texts.map fun (name, text) => (name, sizeWith below (text.getD []))

/-! ### Growth -/

/-- How much was read of a document, and how much its entities added. -/
structure Growth where
  read : Nat
  added : Nat

namespace Growth

/-- The size below which growth does not matter. -/
def freeSize : Nat := 8388608

def isBorne (g : Growth) : Bool :=
  g.read + g.added < freeSize || g.read + g.added ≤ 100 * g.read

/-- The growth after a piece. -/
def after (sizes : List (List Char × Nat)) (g : Growth) (p : Piece) : Growth :=
  ⟨g.read + p.size, g.added + Xml.added sizes p.names⟩

/-- The growth is borne after each of the pieces that follow. -/
def isBorneBy (sizes : List (List Char × Nat)) : Growth → List Piece → Bool
  | g, [] => g.isBorne
  | g, p :: rest => g.isBorne && isBorneBy sizes (g.after sizes p) rest

end Growth

end Inventory.Xml
