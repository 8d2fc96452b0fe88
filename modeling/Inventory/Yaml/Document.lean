import Inventory.Yaml.Node
import Inventory.Yaml.Token

/-!
Reading settings files: the nodes that tokens describe. A file holds one document, or nothing at
all.
-/
namespace Inventory.Yaml

/-- The tokens still to read, the nodes so far, and what has a name. -/
structure Reading where
  tokens : List Token
  nodes : Nodes
  anchors : List (List Char × Nat)
  /-- The texts that the handles of tags stand for. -/
  handles : List (List Char × List Char)

/-- Reads something from tokens, or finds a fault. -/
abbrev Reader := StateT Reading Read

namespace Reader

def fail : Reader α :=
  throw .malformed

/-- The next token. Where the text breaks off, there is only its fault. -/
def peek : Reader (Option Token) := do
  match (← get).tokens.head? with
  | some (.broken f) => throw f
  | t => return t

def skip : Reader Unit :=
  modify fun r => { r with tokens := r.tokens.tail }

/-- The next token is one of these. -/
def sees (ts : List Token) : Reader Bool := do
  return (← peek).any ts.contains

/-- Takes off a token, which must come next. -/
def expect (t : Token) : Reader Unit := do
  if ← sees [t] then skip else fail

/-- Takes off a token if it comes next. -/
def accept (t : Token) : Reader Bool := do
  if ← sees [t] then
    skip
    return true
  else return false

/-! ### Nodes -/

/-- What is known of a node before its content. -/
structure Properties where
  anchor : Option (List Char)
  tag : Option (List Char)

/-- Takes off an anchor if it comes next. -/
def anchor : Reader (Option (List Char)) := do
  match ← peek with
  | some (.anchor name) =>
    skip
    return some name
  | _ => return none

/-- Takes off a tag if it comes next. -/
def tag : Reader (Option (Option (List Char) × List Char)) := do
  match ← peek with
  | some (.tag handle text) =>
    skip
    return some (handle, text)
  | _ => return none

/-- Reads at most one anchor and one tag, in any order. A handle must be known. -/
def properties : Reader Properties := do
  let early ← anchor
  let tag ← tag
  let anchor ← if early.isNone && tag.isSome then anchor else pure early
  match tag with
  | none => return ⟨anchor, none⟩
  | some (none, text) => return ⟨anchor, some text⟩
  | some (some handle, text) =>
    match (← get).handles.lookup handle with
    | some stem => return ⟨anchor, some (stem ++ text)⟩
    | none => fail

/-- The tag that leaves the kind of a node open. -/
def openTag : List Char :=
  ['!']

/-- The tag says nothing about the kind. -/
def Properties.isOpen (p : Properties) : Bool :=
  p.tag.all (· == openTag)

/-- The kind of a node that is a list or a mapping. -/
def Properties.kind (p : Properties) (otherwise : Kind) : Kind :=
  if p.isOpen then otherwise else (p.tag.map Kind.ofTag).getD otherwise

/-- The kind of a text without a tag or with an open one. -/
def openKind : Written → Kind
  | .chars cs => .ofPlain cs
  | .codes _ => .text

/-- The kind of a node that is a text. The form of a text counts if it is plain, or if its tag is
open. -/
def Properties.textKind (p : Properties) (text : Written) (isPlain : Bool) : Kind :=
  p.kind (if isPlain || p.tag.isSome then openKind text else .text)

/-- Adds a node. -/
def add (node : Node) : Reader Nat := do
  let id := (← get).nodes.size
  modify fun r => { r with nodes := r.nodes.push node }
  return id

/-- Adds a node that is a text. -/
def addText (p : Properties) (text : Written) (isPlain : Bool) : Reader Nat :=
  add ⟨p.textKind text isPlain, .scalar text⟩

/-- Adds a node for what is left out. -/
def nothing : Reader Nat :=
  addText ⟨none, none⟩ (.chars []) true

/-- Gives a node the name of its anchor. -/
def name (p : Properties) (id : Nat) : Reader Nat := do
  if let some a := p.anchor then
    modify fun r => { r with anchors := (a, id) :: r.anchors }
  return id

/-- Adds a node that has other nodes in it. It has its name already inside itself. -/
def addAround (p : Properties) (kind : Kind) (content : Reader Content) : Reader Nat := do
  let kind := p.kind kind
  let id ← name p (← add ⟨kind, .list []⟩)
  let inside ← content
  modify fun r => { r with nodes := r.nodes.set! id ⟨kind, inside⟩ }
  return id

/-- The node of an alias. -/
def named (a : List Char) : Reader Nat := do
  match (← get).anchors.lookup a with
  | some id => return id
  | none => fail

mutual

/-- Reads a node. In a block, its content may be a block; where the node is the value of an
item, a list may stand without deeper indentation. -/
def node (inBlock bareList : Bool) : (fuel : Nat) → Reader Nat
  | 0 => fail
  | fuel + 1 => do
    if let some (.alias a) ← peek then
      skip
      named a
    else
      let p ← properties
      content inBlock bareList p fuel

/-- Reads the content of a node. The name of its anchor must be new. -/
def content (inBlock bareList : Bool) (p : Properties) : (fuel : Nat) → Reader Nat
  | 0 => fail
  | fuel + 1 => do
    let list (items : Reader (List Nat)) : Reader Nat :=
      addAround p .list (Content.list <$> items)
    let mapping (items : Reader (List (Nat × Nat))) : Reader Nat :=
      addAround p .mapping (Content.mapping <$> items)
    let next ← peek
    let known := (← get).anchors.map Prod.fst
    if p.anchor.any known.contains then fail
    match next with
    | some (.scalar text isPlain) =>
      skip
      name p (← addText p text isPlain)
    | some .flowListStart =>
      skip
      list (flowList true fuel)
    | some .flowMappingStart =>
      skip
      mapping (flowMapping true fuel)
    | some .item => if bareList then list (bareItems fuel) else blank
    | some .listStart =>
      if inBlock then
        skip
        list (blockItems fuel)
      else blank
    | some .mappingStart =>
      if inBlock then
        skip
        mapping (blockPairs fuel)
      else blank
    | _ => blank
where
  /-- Only a node with properties may be left out. -/
  blank : Reader Nat := do
    if p.anchor.isNone && p.tag.isNone then fail
    else name p (← addText p (.chars []) true)

/-- Reads the items of a block up to its end. -/
def blockItems : (fuel : Nat) → Reader (List Nat)
  | 0 => fail
  | fuel + 1 => do
    if ← accept .item then
      let t ← if ← sees [.item, .blockEnd] then nothing else node true false fuel
      return t :: (← blockItems fuel)
    else
      expect .blockEnd
      return []

/-- Reads the items of a list that has the indentation of the mapping around it. -/
def bareItems : (fuel : Nat) → Reader (List Nat)
  | 0 => fail
  | fuel + 1 => do
    if ← accept .item then
      let t ←
        if ← sees [.item, .key, .value, .blockEnd] then nothing else node true false fuel
      return t :: (← bareItems fuel)
    else return []

/-- Reads the items of a block mapping up to its end. -/
def blockPairs : (fuel : Nat) → Reader (List (Nat × Nat))
  | 0 => fail
  | fuel + 1 => do
    if ← accept .key then
      let name ←
        if ← sees [.key, .value, .blockEnd] then nothing else node true true fuel
      let t ←
        if ← accept .value then
          if ← sees [.key, .value, .blockEnd] then nothing else node true true fuel
        else nothing
      return (name, t) :: (← blockPairs fuel)
    else
      expect .blockEnd
      return []

/-- Reads the items of a list in brackets; an item may be a mapping of one name. -/
def flowList (isFirst : Bool) : (fuel : Nat) → Reader (List Nat)
  | 0 => fail
  | fuel + 1 => do
    if ← accept .flowListEnd then return []
    if !isFirst then expect .flowItem
    if ← accept .flowListEnd then return []
    let t ←
      if ← accept .key then
        addAround ⟨none, none⟩ .mapping do return .mapping [← flowPair .flowListEnd fuel]
      else node false false fuel
    return t :: (← flowList false fuel)

/-- Reads the name and the value of an item in brackets, after the mark of a name. -/
def flowPair (closing : Token) : (fuel : Nat) → Reader (Nat × Nat)
  | 0 => fail
  | fuel + 1 => do
    let name ←
      if ← sees [.value, .flowItem, closing] then nothing else node false false fuel
    let t ←
      if ← accept .value then
        if ← sees [.flowItem, closing] then nothing else node false false fuel
      else nothing
    return (name, t)

/-- Reads the items of a mapping in braces; a name may stand without a value. -/
def flowMapping (isFirst : Bool) : (fuel : Nat) → Reader (List (Nat × Nat))
  | 0 => fail
  | fuel + 1 => do
    if ← accept .flowMappingEnd then return []
    if !isFirst then expect .flowItem
    if ← accept .flowMappingEnd then return []
    let pair ←
      if ← accept .key then flowPair .flowMappingEnd fuel
      else do
        let name ← node false false fuel
        pure (name, ← nothing)
    return pair :: (← flowMapping false fuel)

end

/-! ### Documents -/

/-- The handles that every file knows. -/
def knownHandles : List (List Char × List Char) :=
  [(['!'], ['!']), (['!', '!'], standardTags)]

/-- Takes off directives; tells whether there were any. A file gives at most once the version it
is written for, which must be the first one, and the meaning of each handle. -/
def directives : (fuel : Nat) → (hasVersion : Bool) → Reader Bool
  | 0, _ => fail
  | fuel + 1, hasVersion => do
    match ← peek with
    | some (.directive d) =>
      skip
      match d with
      | .version major =>
        if hasVersion || major != 1 then fail
        discard <| directives fuel true
      | .handle handle stem =>
        if ((← get).handles.lookup handle).isSome then fail
        modify fun r => { r with handles := (handle, stem) :: r.handles }
        discard <| directives fuel hasVersion
      | .other => discard <| directives fuel hasVersion
      return true
    | _ => return false

/-- Takes off the marks after a document. -/
def documentEnds : (fuel : Nat) → Reader Unit
  | 0 => return ()
  | fuel + 1 => do
    if ← accept .documentEnd then documentEnds fuel

/-- Reads the only document, if there is one. -/
def document (fuel : Nat) : Reader (Option Nat) := do
  let directed ← directives fuel false
  modify fun r => { r with handles := r.handles ++ knownHandles }
  let id ←
    if directed || (← sees [.documentStart]) then
      expect .documentStart
      match ← peek with
      | none | some .documentStart | some .documentEnd | some (.directive _) => nothing
      | _ => node true false fuel
    else if (← peek).isNone then return none
    else node true false fuel
  documentEnds fuel
  if (← peek).isSome then fail
  return some id

end Reader

/-- Unifies line ends: a carriage return with a line feed, and one alone, are line feeds. -/
def unifyLines : List Char → List Char
  | [] => []
  | '\r' :: '\n' :: rest => '\n' :: unifyLines rest
  | c :: rest => (if c = '\r' then '\n' else c) :: unifyLines rest

/-- The nodes of a text, and the one that is the document, if there is one. -/
def Nodes.read (text : String) : Read (Nodes × Option Nat) := do
  let tokens := Token.scan (unifyLines text.toList)
  let (root, r) ← (Reader.document (4 * tokens.length + 8)).run ⟨tokens, #[], [], []⟩
  return (r.nodes, root)

end Inventory.Yaml
