/-!
Places in the text of a settings file, and the characters that separate. A carriage return does
not occur: line ends are unified before a text is read.
-/
namespace Inventory.Yaml

/-- A character that ends a line. -/
def isBreak (c : Char) : Bool :=
  c == '\n' || c == '\x85' || c == '\u2028' || c == '\u2029'

/-- Nothing, a blank or a line end follows. -/
def isGap : Option Char → Bool
  | none => true
  | some c => c == ' ' || c == '\t' || isBreak c

/-- A place in a text: what follows it, and where it is. -/
structure Cursor where
  rest : List Char
  line : Nat
  column : Nat
  index : Nat

namespace Cursor

def start (cs : List Char) : Cursor :=
  ⟨cs, 0, 0, 0⟩

/-- The place after the next character. A byte order mark takes no column. -/
def next (p : Cursor) : Cursor :=
  match p.rest with
  | [] => p
  | c :: rest =>
    if isBreak c then ⟨rest, p.line + 1, 0, p.index + 1⟩
    else ⟨rest, p.line, if c = '\ufeff' then p.column else p.column + 1, p.index + 1⟩

/-- The place after `count` characters. -/
def skip (p : Cursor) : (count : Nat) → Cursor
  | 0 => p
  | count + 1 => p.next.skip count

/-- The characters of a class, and the place after them. -/
def span (p : Cursor) (holds : Char → Bool) : List Char × Cursor :=
  let run := p.rest.takeWhile holds
  (run, p.skip run.length)

/-- The next character. -/
def peek (p : Cursor) : Option Char :=
  p.rest.head?

/-- A line holds the marks between documents, `---` or `...`, and nothing right after them. -/
def atDocumentMark (p : Cursor) : Bool :=
  match p.rest with
  | '-' :: '-' :: '-' :: rest => isGap rest.head?
  | '.' :: '.' :: '.' :: rest => isGap rest.head?
  | _ => false

/-- The characters that a line end stands for inside a scalar: a line feed, or a separator as it
is. -/
def foldedBreak (c : Char) : Char :=
  if c = '\x85' then '\n' else c

end Cursor

end Inventory.Yaml
