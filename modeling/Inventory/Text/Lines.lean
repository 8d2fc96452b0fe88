/-!
Lines and other pieces of a text. A line ends at a line feed, at a carriage return, or at both
together; what follows the last ending is a line too, even if it is empty.
-/
namespace Inventory.Text

/-- The lines after the characters of `line`, which stand in reverse. -/
def linesFrom : (line : List Char) → List Char → List (List Char)
  | line, [] => [line.reverse]
  | line, '\r' :: '\n' :: rest => line.reverse :: linesFrom [] rest
  | line, c :: rest =>
    if c = '\n' || c = '\r' then line.reverse :: linesFrom [] rest else linesFrom (c :: line) rest

def lines (cs : List Char) : List (List Char) :=
  linesFrom [] cs

/-- The lines of a text in which every line has an ending, except that the last one may lack it.
-/
def endedLines (cs : List Char) : List (List Char) :=
  let all := lines cs
  if all.getLast? = some [] then all.dropLast else all

/-- The lines that have ended, whatever follows. A carriage return at the end waits for what comes
next. -/
def completeLines (cs : List Char) : List (List Char) :=
  (lines (if cs.getLast? = some '\r' then cs.dropLast else cs)).dropLast

/-- The pieces of a text between points where the class holds. -/
def piecesAt (p : Char → Bool) : List Char → List (List Char)
  | [] => [[]]
  | c :: rest =>
    match piecesAt p rest with
    | [] => [[c]]
    | piece :: others => if p c then [] :: piece :: others else (c :: piece) :: others

end Inventory.Text
