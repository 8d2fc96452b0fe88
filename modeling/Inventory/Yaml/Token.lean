import Inventory.Number.Numeral
import Inventory.Text.Utf8
import Inventory.Yaml.Quoted
import Inventory.Yaml.Written

/-!
The tokens of a settings file. Indentation opens and closes blocks, and a scalar turns out to be
the name of an item when a colon follows it on its line. Where the text breaks off in a fault, a
last token holds the fault, so that what is wrong before it counts first.
-/
namespace Inventory.Yaml

/-- What stands before a document. -/
inductive Directive where
  /-- The version that a document is written for. -/
  | version (major : Nat)
  /-- The text that a handle of tags stands for. -/
  | handle (handle stem : List Char)
  | other
  deriving DecidableEq

inductive Token where
  | directive (d : Directive)
  | documentStart
  | documentEnd
  | listStart
  | mappingStart
  | blockEnd
  | item
  | key
  | value
  | flowListStart
  | flowListEnd
  | flowMappingStart
  | flowMappingEnd
  | flowItem
  | alias (name : List Char)
  | anchor (name : List Char)
  /-- A tag: a handle, if there is one, and what follows it. -/
  | tag (handle : Option (List Char)) (text : List Char)
  | scalar (text : Written) (isPlain : Bool)
  | broken (fault : Fault)
  deriving DecidableEq

/-- A place where the name of an item may have begun. -/
structure PossibleKey where
  level : Nat
  /-- How many tokens come before it. -/
  before : Nat
  /-- In its place there must be a name. -/
  required : Bool
  line : Nat
  column : Nat
  index : Nat

structure Scanner where
  cursor : Cursor
  /-- The columns of the open blocks, innermost first. -/
  blocks : List Nat
  /-- How many brackets are open. -/
  level : Nat
  /-- The name of an item may begin here. -/
  allowKey : Bool
  keys : List PossibleKey
  /-- The tokens so far, the last one first. -/
  tokens : List Token

namespace Scanner

def start (cs : List Char) : Scanner :=
  let p := Cursor.start cs
  ⟨if p.peek = some '\ufeff' then p.next else p, [], 0, true, [], []⟩

def emit (s : Scanner) (t : Token) : Scanner :=
  { s with tokens := t :: s.tokens }

/-- Puts a token where only `before` tokens come before it. -/
def emitAt (s : Scanner) (before : Nat) (t : Token) : Scanner :=
  let later := s.tokens.length - before
  { s with tokens := s.tokens.take later ++ t :: s.tokens.drop later }

/-- Takes off blanks, line ends and comments. Outside brackets, a name may begin on a new line. -/
def skipGap : (fuel : Nat) → (inComment : Bool) → Scanner → Scanner
  | 0, _, s => s
  | fuel + 1, inComment, s =>
    match s.cursor.peek with
    | none => s
    | some c =>
      if isBreak c then
        skipGap fuel false
          { s with cursor := s.cursor.next, allowKey := s.allowKey || s.level == 0 }
      else if inComment || c = ' ' then skipGap fuel inComment { s with cursor := s.cursor.next }
      else if c = '#' then skipGap fuel true { s with cursor := s.cursor.next }
      else s

/-- The place is too far from where a name began: a name ends on its line, after at most 1024
characters. -/
def isStale (s : Scanner) (k : PossibleKey) : Bool :=
  k.line != s.cursor.line || 1024 < s.cursor.index - k.index

/-- Gives up names that have become stale. None must have been required. -/
def dropStale (s : Scanner) : Read Scanner :=
  if s.keys.any fun k => s.isStale k && k.required then malformed
  else .ok { s with keys := s.keys.filter (!s.isStale ·) }

/-- Gives up the name that may have begun at this level. It must not have been required. -/
def dropKey (s : Scanner) : Read Scanner :=
  if s.keys.any fun k => k.level == s.level && k.required then malformed
  else .ok { s with keys := s.keys.filter (·.level != s.level) }

/-- Remembers that a name may begin here. -/
def saveKey (s : Scanner) : Read Scanner :=
  if !s.allowKey then .ok s
  else do
    let p := s.cursor
    let required := s.level == 0 && s.blocks.head? == some p.column
    let s ← s.dropKey
    return { s with
      keys := ⟨s.level, s.tokens.length, required, p.line, p.column, p.index⟩ :: s.keys }

/-- Closes the blocks that are indented deeper than a column; all of them if there is none. -/
def closeBlocks (column : Option Nat) : List Nat → List Nat × Nat
  | [] => ([], 0)
  | b :: outer =>
    if column.all (· < b) then
      let (left, count) := closeBlocks column outer
      (left, count + 1)
    else (b :: outer, 0)

/-- Closes blocks, outside brackets. -/
def unwind (s : Scanner) (column : Option Nat) : Scanner :=
  if s.level != 0 then s
  else
    let (left, count) := closeBlocks column s.blocks
    { s with blocks := left, tokens := List.replicate count .blockEnd ++ s.tokens }

/-- The column lies deeper than all open blocks. -/
def isDeeper (s : Scanner) (column : Nat) : Bool :=
  s.blocks.head?.all (· < column)

/-- Opens a block with a token for it, if the column lies deeper. -/
def openBlock (s : Scanner) (t : Token) : Scanner :=
  if s.isDeeper s.cursor.column then
    { s with blocks := s.cursor.column :: s.blocks }.emit t
  else s

/-- Goes on after `count` characters. -/
def skip (s : Scanner) (count : Nat) : Scanner :=
  { s with cursor := s.cursor.skip count }

/-- A mark between documents, or a directive before one, closes everything. -/
def closeAll (s : Scanner) : Read Scanner := do
  let s ← (s.unwind none).dropKey
  return { s with allowKey := false }

def isWordChar (c : Char) : Bool :=
  c.isAlphanum || c == '-' || c == '_'

/-! ### Tags and directives -/

/-- The characters a tag consists of. -/
def isTagChar (c : Char) : Bool :=
  c.isAlphanum || "-;/?:@&=+$,_.!~*'()[]%".toList.contains c

/-- The end of a word, at which no tab stands. -/
def isWordEnd (c : Option Char) : Bool :=
  isGap c && c != some '\t'

/-- Reads the numbers of characters that percent signs and hexadecimal digits give. -/
def tagEscapes : (fuel : Nat) → Cursor → Read (List UInt8 × Cursor)
  | 0, p => .ok ([], p)
  | fuel + 1, p =>
    match p.rest with
    | '%' :: a :: b :: _ => do
      let n ← numbered [a, b]
      let (others, p) ← tagEscapes fuel (p.skip 3)
      return (n.toUInt8 :: others, p)
    | '%' :: _ => malformed
    | _ => .ok ([], p)

/-- Reads the characters of a tag up to one that is none. Escapes give the bytes of characters. -/
def tagChars : (fuel : Nat) → Cursor → Read (List Char × Cursor)
  | 0, p => .ok ([], p)
  | fuel + 1, p =>
    match p.peek with
    | none => .ok ([], p)
    | some '%' => do
      let (bytes, p) ← tagEscapes p.rest.length p
      match Text.decodeUtf8 ⟨bytes.toArray⟩ with
      | .error _ => malformed
      | .ok text =>
        let (others, p) ← tagChars fuel p
        return (text.toList ++ others, p)
    | some c =>
      if isTagChar c then do
        let (others, p) ← tagChars fuel p.next
        return (c :: others, p)
      else .ok ([], p)

/-- Reads the characters of a tag, of which there must be some. -/
def tagText (p : Cursor) : Read (List Char × Cursor) := do
  let (text, q) ← tagChars p.rest.length p
  if text.isEmpty then malformed
  return (text, q)

/-- Reads the handle of a tag: an exclamation mark alone, or a word between two of them. -/
def tagHandle (p : Cursor) : Read (List Char × Cursor) :=
  match p.rest with
  | '!' :: ' ' :: _ => .ok (['!'], p.next)
  | '!' :: _ =>
    let (word, q) := p.next.span isWordChar
    if q.peek = some '!' then .ok ('!' :: word ++ ['!'], q.next) else malformed
  | _ => malformed

/-- Reads the number of a version. -/
def versionNumber (p : Cursor) : Read (Nat × Cursor) := do
  let (digits, q) := p.span Char.isDigit
  if digits.isEmpty then malformed
  if Numeral.digitLimit < digits.length then throw (.tooManyDigits digits.length)
  return (Numeral.ofDigits digits, q)

/-- Reads what follows the name of a directive. -/
def directiveArgument (name : List Char) (p : Cursor) : Read (Directive × Cursor) := do
  let start := (p.span (· == ' ')).2
  if name = "YAML".toList then
    let (major, p) ← versionNumber start
    if p.peek != some '.' then malformed
    let (_, p) ← versionNumber p.next
    if !isWordEnd p.peek then malformed
    return (.version major, p)
  else if name = "TAG".toList then
    let (handle, p) ← tagHandle start
    if p.peek != some ' ' then malformed
    let (stem, p) ← tagText (p.span (· == ' ')).2
    if !isWordEnd p.peek then malformed
    return (.handle handle stem, p)
  else return (.other, (p.span (!isBreak ·)).2)

/-- Reads a directive up to the end of its line. -/
def directive (s : Scanner) : Read Scanner := do
  let s ← s.closeAll
  let (name, p) := s.cursor.next.span isWordChar
  if name.isEmpty || !isWordEnd p.peek then malformed
  let (d, p) ← directiveArgument name p
  let p ← endLine p
  return { s with cursor := p }.emit (.directive d)

/-- A word with a second exclamation mark begins with a handle. -/
def hasHandle (cs : List Char) : Bool :=
  (cs.takeWhile fun c => c == '\t' || !isGap (some c)).contains '!'

/-- Reads the handle and the text of a tag, after its first exclamation mark. -/
def tagParts (p : Cursor) : Read (Option (List Char) × List Char × Cursor) := do
  match p.next.peek with
  | some '<' =>
    let (text, p) ← tagText (p.skip 2)
    if p.peek != some '>' then malformed
    return (none, text, p.next)
  | c =>
    if isGap c then return (none, ['!'], p.next)
    let (handle, p) ←
      if hasHandle p.next.rest then tagHandle p else pure (['!'], p.next)
    let (text, p) ← tagText p
    return (some handle, text, p)

def tag (s : Scanner) : Read Scanner := do
  let s ← s.saveKey
  let (handle, text, p) ← tagParts s.cursor
  if !isWordEnd p.peek then malformed
  return { s with cursor := p, allowKey := false }.emit (.tag handle text)

/-! ### Blocks, brackets and items -/

def documentMark (s : Scanner) (t : Token) : Read Scanner := do
  return ((← s.closeAll).skip 3).emit t

def openBracket (s : Scanner) (t : Token) : Read Scanner := do
  let s ← s.saveKey
  return ({ s with level := s.level + 1, allowKey := true }.skip 1).emit t

def closeBracket (s : Scanner) (t : Token) : Read Scanner := do
  let s ← s.dropKey
  if s.level = 0 then malformed
  return ({ s with level := s.level - 1, allowKey := false }.skip 1).emit t

def flowItem (s : Scanner) : Read Scanner := do
  let s ← s.dropKey
  return ({ s with allowKey := true }.skip 1).emit .flowItem

/-- An item of a list begins. -/
def item (s : Scanner) : Read Scanner := do
  if s.level = 0 && !s.allowKey then malformed
  let s := if s.level = 0 then s.openBlock .listStart else s
  let s ← { s with allowKey := true }.dropKey
  return (s.skip 1).emit .item

/-- A name is marked as such. -/
def explicitKey (s : Scanner) : Read Scanner := do
  if s.level = 0 && !s.allowKey then malformed
  let s := if s.level = 0 then s.openBlock .mappingStart else s
  let s ← { s with allowKey := s.level == 0 }.dropKey
  return (s.skip 1).emit .key

/-- The value of an item begins. What may have been a name before it is one. -/
def value (s : Scanner) : Read Scanner := do
  match s.keys.find? (·.level == s.level) with
  | some k =>
    let s := { s with keys := s.keys.filter (·.level != s.level), allowKey := false }
    let s := s.emitAt k.before .key
    let s :=
      if s.level = 0 && s.isDeeper k.column then
        { s with blocks := k.column :: s.blocks }.emitAt k.before .mappingStart
      else s
    return (s.skip 1).emit .value
  | none =>
    if s.level = 0 && !s.allowKey then malformed
    let s := if s.level = 0 then s.openBlock .mappingStart else s
    let s ← { s with allowKey := s.level == 0 }.dropKey
    return (s.skip 1).emit .value

/-- Reads the name of an anchor, or of an alias for one. -/
def anchorName (s : Scanner) (t : List Char → Token) : Read Scanner := do
  let s ← s.saveKey
  let (name, p) := s.cursor.next.span isWordChar
  if name.isEmpty || !(isGap p.peek || p.peek.any "?:,]\x7d%@\x60".toList.contains) then malformed
  return { s with cursor := p, allowKey := false }.emit (t name)

def quoted (s : Scanner) (quote : Char) : Read Scanner := do
  let s ← s.saveKey
  let (ns, p) ← readQuoted quote s.cursor.rest.length s.cursor.next
  return { s with cursor := p, allowKey := false }.emit (.scalar (.ofCodes ns) false)

def block (s : Scanner) (isFolded : Bool) : Read Scanner := do
  let s ← s.dropKey
  let (text, p) ← readBlock isFolded s.blocks.head? s.cursor.next
  return { s with cursor := p, allowKey := true }.emit (.scalar (.chars text) false)

def plain (s : Scanner) : Read Scanner := do
  let s ← s.saveKey
  let indent := (s.blocks.head?.map (· + 1)).getD 0
  let (text, p, broke) := readPlain (s.level != 0) indent s.cursor.rest.length [] s.cursor false
  return { s with cursor := p, allowKey := broke }.emit (.scalar (.chars text) true)

/-- Characters that begin no plain scalar of their own. -/
def indicators : List Char :=
  "-?:,[]\x7b\x7d#&*!|>'\"%@\x60".toList

/-- The character begins a plain scalar. -/
def beginsPlain (s : Scanner) (c : Char) (after : Option Char) : Bool :=
  (!isGap (some c) && !indicators.contains c) ||
    (!isGap after && (c == '-' || (s.level == 0 && (c == '?' || c == ':'))))

/-- Reads the next token, which begins with `c`. -/
def token (s : Scanner) (c : Char) : Read Scanner :=
  let after := s.cursor.rest.tail.head?
  let atGap := s.level != 0 || isGap after
  if s.cursor.column = 0 && c = '%' then s.directive
  else if s.cursor.column = 0 && s.cursor.atDocumentMark then
    s.documentMark (if c = '-' then .documentStart else .documentEnd)
  else if c = '[' then s.openBracket .flowListStart
  else if c = '{' then s.openBracket .flowMappingStart
  else if c = ']' then s.closeBracket .flowListEnd
  else if c = '}' then s.closeBracket .flowMappingEnd
  else if c = ',' then s.flowItem
  else if c = '-' && isGap after then s.item
  else if c = '?' && atGap then s.explicitKey
  else if c = ':' && atGap then s.value
  else if c = '*' then s.anchorName .alias
  else if c = '&' then s.anchorName .anchor
  else if c = '!' then s.tag
  else if c = '|' && s.level = 0 then s.block false
  else if c = '>' && s.level = 0 then s.block true
  else if c = '\'' || c = '"' then s.quoted c
  else if s.beginsPlain c after then s.plain
  else malformed

/-- Reads the next token, if there is one; tells whether the text is over. -/
def advance (s : Scanner) : Read (Scanner × Bool) := do
  let s := s.skipGap (s.cursor.rest.length + 1) false
  let s := (← s.dropStale).unwind (some s.cursor.column)
  match s.cursor.peek with
  | none => return (← (s.unwind none).dropKey, true)
  | some c => return (← s.token c, false)

/-- The tokens, of which the text gives no more because of a fault. It is met where a name may
still have begun, since what stands there shows only later. -/
def breakOff (s : Scanner) (f : Fault) : List Token :=
  let pending := (s.keys.filter (!s.isStale ·)).map PossibleKey.before
  s.tokens.reverse.take (pending.foldl min s.tokens.length) ++ [.broken f]

/-- Reads all tokens. -/
def run : (fuel : Nat) → Scanner → List Token
  | 0, s => s.breakOff .malformed
  | fuel + 1, s =>
    match s.advance with
    | .error f => s.breakOff f
    | .ok (last, true) => last.tokens.reverse
    | .ok (s, false) => run fuel s

end Scanner

/-- Characters a settings file may hold. -/
def isPrintable (c : Char) : Bool :=
  let n := c.toNat
  n == 9 || n == 10 || (0x20 ≤ n && n ≤ 0x7e) || n == 0x85 || (0xa0 ≤ n && n ≤ 0xd7ff) ||
    (0xe000 ≤ n && n ≤ 0xfffd) || 0x10000 ≤ n

/-- The tokens of a text. -/
def Token.scan (cs : List Char) : List Token :=
  if cs.all isPrintable then (Scanner.start cs).run (cs.length + 1) else [.broken .malformed]

end Inventory.Yaml
