/-!
Markup of the terminal: tags in square brackets. Text that is shown as it is has a backslash in
front of every bracket that would begin a tag.
-/
namespace Inventory.Console

/-- The character can begin the inside of a tag. -/
def beginsTag (c : Char) : Bool :=
  ('a' ≤ c && c ≤ 'z') || c == '#' || c == '/' || c == '@'

/-- What follows an opening bracket makes it a tag: it is closed before the next one opens. -/
def isTag : List Char → Bool
  | [] => false
  | c :: rest => beginsTag c && (rest.dropWhile fun c => c != '[' && c != ']').head? == some ']'

/-- Escapes tags; `run` is the number of backslashes right before the text. They are doubled in
front of a tag, and one more keeps its bracket from opening it. -/
def escapeTags : (run : Nat) → List Char → List Char
  | _, [] => []
  | run, c :: rest =>
    if c = '\\' then c :: escapeTags (run + 1) rest
    else if c = '[' && isTag rest then
      List.replicate (run + 1) '\\' ++ '[' :: escapeTags 0 rest
    else c :: escapeTags 0 rest

/-- A single backslash at the end would escape what follows. -/
def closeEnd (cs : List Char) : List Char :=
  if cs.getLast? = some '\\' && cs.dropLast.getLast? != some '\\' then cs ++ ['\\'] else cs

/-- A text as markup that shows it. -/
def escape (text : String) : String :=
  String.ofList (closeEnd (escapeTags 0 text.toList))

/-- A table, with markup in its cells. -/
structure Table where
  title : String
  headers : List String
  showsHeader : Bool
  rows : List (List String)

/-- Something that a command shows: a line of markup, or a table. -/
inductive Output where
  | line (markup : String)
  | table (t : Table)

end Inventory.Console
