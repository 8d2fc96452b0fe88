import Inventory.Yaml.Cursor
import Inventory.Yaml.Fault

/-!
Scalars that are not one plain word: quoted ones, plain ones that go on over blanks and lines,
and blocks of lines.
-/
namespace Inventory.Yaml

/-! ### Quoted scalars -/

/-- The characters that short escapes stand for. -/
def escapes : List (Char × Char) :=
  [('0', '\x00'), ('a', '\x07'), ('b', '\x08'), ('t', '\t'), ('\t', '\t'), ('n', '\n'),
   ('v', '\x0b'), ('f', '\x0c'), ('r', '\r'), ('e', '\x1b'), (' ', ' '), ('"', '"'),
   ('\\', '\\'), ('/', '/'), ('N', '\x85'), ('_', '\xa0'), ('L', '\u2028'), ('P', '\u2029')]

/-- How many hexadecimal digits follow the mark of a numbered character. -/
def escapeWidths : List (Char × Nat) :=
  [('x', 2), ('u', 4), ('U', 8)]

def hexDigit? (c : Char) : Option Nat :=
  if c.isDigit then some (c.toNat - 48)
  else if 'a' ≤ c.toLower && c.toLower ≤ 'f' then some (c.toLower.toNat - 87)
  else none

/-- The number that hexadecimal digits write. It may be the number of a character or of one half
of a character. -/
def numbered (digits : List Char) : Read Nat :=
  match digits.mapM hexDigit? with
  | none => malformed
  | some values =>
    let n := values.foldl (fun n d => 16 * n + d) 0
    if n < 0x110000 then .ok n else .error (.noCharacter n)

/-- The numbers of characters. -/
def codesOf (cs : List Char) : List Nat :=
  cs.map Char.toNat

/-- Takes off line ends with the blanks around them. A mark between documents must not follow. -/
def lineEnds : (fuel : Nat) → Cursor → Read (List Char × Cursor)
  | 0, p => .ok ([], p)
  | fuel + 1, p =>
    if p.atDocumentMark then malformed
    else
      let p := (p.span fun c => c == ' ' || c == '\t').2
      match p.peek with
      | some c =>
        if isBreak c then do
          let (others, p) ← lineEnds fuel p.next
          return (Cursor.foldedBreak c :: others, p)
        else .ok ([], p)
      | none => .ok ([], p)

/-- What a line end and the empty lines after it stand for: one line end is a blank. -/
def folded (c : Char) (others : List Char) : List Char :=
  if Cursor.foldedBreak c != '\n' then Cursor.foldedBreak c :: others
  else if others.isEmpty then [' ']
  else others

/-- Reads a quoted scalar after its opening quote, as numbers of characters. -/
def readQuoted (quote : Char) : (fuel : Nat) → Cursor → Read (List Nat × Cursor)
  | 0, _ => malformed
  | fuel + 1, p =>
    match p.rest with
    | [] => malformed
    | c :: rest =>
      if c = quote then
        if quote = '\'' && rest.head? = some '\'' then more fuel (codesOf ['\'']) (p.skip 2)
        else .ok ([], p.next)
      else if c = '\\' && quote = '"' then
        match rest with
        | [] => malformed
        | e :: digits =>
          if isBreak e then do
            let (others, p) ← lineEnds p.rest.length (p.skip 2)
            more fuel (codesOf others) p
          else
            match escapes.lookup e, escapeWidths.lookup e with
            | some c, _ => more fuel (codesOf [c]) (p.skip 2)
            | none, some width => do
              if digits.length < width then malformed
              more fuel [← numbered (digits.take width)] (p.skip (2 + width))
            | none, none => malformed
      else if c = ' ' || c = '\t' || isBreak c then
        let (blanks, p) := p.span fun c => c == ' ' || c == '\t'
        match p.peek with
        | none => malformed
        | some c =>
          if isBreak c then do
            let (others, p) ← lineEnds p.rest.length p.next
            more fuel (codesOf (folded c others)) p
          else more fuel (codesOf blanks) p
      else more fuel (codesOf [c]) p.next
where
  more (fuel : Nat) (ns : List Nat) (p : Cursor) : Read (List Nat × Cursor) := do
    let (others, p) ← readQuoted quote fuel p
    return (ns ++ others, p)

/-! ### Plain scalars -/

/-- The characters of a plain scalar up to a gap or a mark. -/
def plainRun (inFlow : Bool) : List Char → List Char
  | [] => []
  | c :: rest =>
    if isGap (some c) || (inFlow && ",?[]\x7b\x7d".toList.contains c) ||
        (c == ':' &&
          (isGap rest.head? || (inFlow && rest.head?.any ",[]\x7b\x7d".toList.contains))) then
      []
    else c :: plainRun inFlow rest

/-- Takes off the line ends and blanks between two lines of a plain scalar; `true` if a mark
between documents follows. -/
def plainLineEnds : (fuel : Nat) → Cursor → List Char × Cursor × Bool
  | 0, p => ([], p, false)
  | fuel + 1, p =>
    if p.column = 0 && p.atDocumentMark then ([], p, true)
    else
      match p.peek with
      | some c =>
        if c = ' ' then plainLineEnds fuel p.next
        else if isBreak c then
          let (others, p, isOver) := plainLineEnds fuel p.next
          (Cursor.foldedBreak c :: others, p, isOver)
        else ([], p, false)
      | none => ([], p, false)

/-- What stands between two words of a plain scalar; nothing if the scalar ends. Tells whether a
line ended. -/
def plainSpaces (p : Cursor) : List Char × Cursor × Bool :=
  let (blanks, p) := p.span (· == ' ')
  match p.peek with
  | some c =>
    if isBreak c then
      let (others, p, isOver) := plainLineEnds p.rest.length p.next
      (if isOver then [] else folded c others, p, true)
    else (blanks, p, false)
  | none => (blanks, p, false)

/-- Reads a plain scalar whose lines after the first must start in column `indent` or later.
Tells whether the place after it is on a later line than its last word. -/
def readPlain (inFlow : Bool) (indent : Nat) :
    (fuel : Nat) → (between : List Char) → Cursor → (broke : Bool) → List Char × Cursor × Bool
  | 0, _, p, broke => ([], p, broke)
  | fuel + 1, between, p, broke =>
    let run := if p.peek = some '#' then [] else plainRun inFlow p.rest
    if run.isEmpty then ([], p, broke)
    else
      let (spaces, p, broke) := plainSpaces (p.skip run.length)
      if spaces.isEmpty || p.peek = some '#' || (!inFlow && p.column < indent) then
        (between ++ run, p, broke)
      else
        let (others, p, broke) := readPlain inFlow indent fuel spaces p broke
        (between ++ run ++ others, p, broke)

/-! ### Blocks of lines -/

/-- Takes off blanks and a comment up to the end of the line, which must come. -/
def endLine (p : Cursor) : Read Cursor :=
  let p := (p.span (· == ' ')).2
  let p := if p.peek = some '#' then (p.span (!isBreak ·)).2 else p
  match p.peek with
  | none => .ok p
  | some c => if isBreak c then .ok p.next else malformed

/-- What happens to the line ends after a block: one is kept, none or all. -/
inductive Chomping where
  | clip
  | strip
  | keep
  deriving DecidableEq

/-- The chomping and the indentation that the head of a block gives. -/
def blockHead (p : Cursor) : Chomping × Option Nat × Cursor :=
  let chomping? (c : Option Char) : Option Chomping :=
    if c = some '+' then some .keep else if c = some '-' then some .strip else none
  let indent? (c : Option Char) : Option Nat :=
    c.bind fun c => if '1' ≤ c && c ≤ '9' then some (c.toNat - 48) else none
  match chomping? p.peek, indent? p.peek with
  | some k, _ =>
    match indent? p.next.peek with
    | some n => (k, some n, p.skip 2)
    | none => (k, none, p.next)
  | none, some n =>
    match chomping? p.next.peek with
    | some k => (k, some n, p.skip 2)
    | none => (.clip, some n, p.next)
  | none, none => (.clip, none, p)

/-- Takes off empty lines with the blanks in them; gives the widest indentation among them. -/
def blockMargin : (fuel : Nat) → Cursor → (widest : Nat) → List Char × Cursor × Nat
  | 0, p, widest => ([], p, widest)
  | fuel + 1, p, widest =>
    match p.peek with
    | some c =>
      if c = ' ' then blockMargin fuel p.next (max widest p.next.column)
      else if isBreak c then
        let (others, p, widest) := blockMargin fuel p.next widest
        (Cursor.foldedBreak c :: others, p, widest)
      else ([], p, widest)
    | none => ([], p, widest)

/-- Takes off blanks up to a column. -/
def toColumn (column : Nat) (p : Cursor) : Cursor :=
  p.skip (min (column - p.column) (p.rest.takeWhile (· == ' ')).length)

/-- Takes off empty lines and the indentation of the line after them. -/
def blockBreaks (indent : Nat) : (fuel : Nat) → Cursor → List Char × Cursor
  | 0, p => ([], p)
  | fuel + 1, p =>
    let p := toColumn indent p
    match p.peek with
    | some c =>
      if isBreak c then
        let (others, p) := blockBreaks indent fuel p.next
        (Cursor.foldedBreak c :: others, p)
      else ([], p)
    | none => ([], p)

/-- Reads the lines of a block; `breaks` are the empty lines before them. -/
def blockLines (isFolded : Bool) (chomping : Chomping) (indent : Nat) :
    (fuel : Nat) → (breaks : List Char) → Cursor → List Char × Cursor
  | 0, _, p => ([], p)
  | fuel + 1, breaks, p =>
    let (line, afterLine) := p.span (!isBreak ·)
    let lineEnd := (afterLine.peek.map Cursor.foldedBreak).toList
    let (later, next) := blockBreaks indent p.rest.length afterLine.next
    if next.column = indent && next.peek.isSome then
      let isText (c : Option Char) := !(c == some ' ' || c == some '\t')
      let joint :=
        if isFolded && lineEnd == ['\n'] && isText p.peek && isText next.peek then
          if later.isEmpty then [' '] else []
        else lineEnd
      let (others, next) := blockLines isFolded chomping indent fuel later next
      (breaks ++ line ++ joint ++ others, next)
    else
      let tail :=
        match chomping with
        | .strip => []
        | .clip => lineEnd
        | .keep => lineEnd ++ later
      (breaks ++ line ++ tail, next)

/-- Reads a block after its mark; its lines are indented deeper than `outer`, if that is given. -/
def readBlock (isFolded : Bool) (outer : Option Nat) (p : Cursor) : Read (List Char × Cursor) := do
  let (chomping, given, p) := blockHead p
  if !isGap p.peek || p.peek = some '\t' then malformed
  let p ← endLine p
  let least := (outer.map (· + 1)).getD 0 |> max 1
  let (breaks, p, indent) :=
    match given with
    | some n =>
      let indent := least + n - 1
      let (breaks, p) := blockBreaks indent p.rest.length p
      (breaks, p, indent)
    | none =>
      let (breaks, p, widest) := blockMargin p.rest.length p 0
      (breaks, p, max least widest)
  if p.column = indent && p.peek.isSome then
    return blockLines isFolded chomping indent p.rest.length breaks p
  else return (if chomping = .keep then breaks else [], p)

end Inventory.Yaml
