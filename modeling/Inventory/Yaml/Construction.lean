import Inventory.Yaml.Document
import Inventory.Yaml.Meaning
import Inventory.Yaml.Slots

/-!
What the nodes of a settings file stand for. Nodes are given their values level by level, from
the document inwards, so that of several faults the outermost counts.
-/
namespace Inventory.Yaml

/-- What a node stands for; the nodes inside it have values of their own. -/
inductive Built where
  | scalar (s : Scalar)
  | list (items : List Nat)
  | mapping (items : List (Scalar × Nat))
  | set (items : List Scalar)
  | pairs (items : List (Nat × Nat))

/-- The nodes, the values some have already, and those whose insides are still to be read, the
last one first. -/
structure Site where
  nodes : Nodes
  built : Array (Option Built)
  waiting : List Nat

/-- Gives nodes values, or finds a fault. -/
abbrev Builder := StateT Site Read

namespace Builder

def fail : Builder α :=
  throw .malformed

def put (id : Nat) (b : Built) : Builder Unit :=
  modify fun site => { site with built := site.built.set! id (some b) }

/-- Gives a node an empty value whose inside is read later. -/
def putOff (id : Nat) (b : Built) : Builder Unit := do
  put id b
  modify fun site => { site with waiting := id :: site.waiting }

/-- Gives a node its value, if it has none. The kinds for which there are no values fail. -/
def value (id : Nat) : Builder Unit := do
  let site ← get
  if (site.built[id]?.bind (·)).isSome then return
  match site.nodes.kindOf id with
  | .list => putOff id (.list [])
  | .mapping => putOff id (.mapping [])
  | .set => putOff id (.set [])
  | .pairs => putOff id (.pairs [])
  | .merge | .main | .unknown => fail
  | kind =>
    match site.nodes.text? (site.nodes.size + 1) id with
    | some text =>
      if kind = .stamp && (site.nodes.items? id).isSome then throw .dateMapping
      put id (.scalar (← Scalar.ofWritten kind text))
    | none => fail

/-- The scalar that a node stands for: only scalars are names. -/
def scalar (id : Nat) : Builder Scalar := do
  value id
  match (← get).built[id]?.bind (·) with
  | some (.scalar s) => return s
  | _ => fail

def itemsOf (id : Nat) : Builder (List (Nat × Nat)) := do
  match (← get).nodes.items? id with
  | some items => return items
  | none => fail

/-- The names and values that a merged node brings: those of a mapping, or of all mappings in a
list, of which an earlier one wins. `prepare` merges into a mapping what it merges itself. -/
def mergedItems (prepare : Nat → Builder Unit) (id : Nat) : Builder (List (Nat × Nat)) := do
  match (← get).nodes[id]?.map Node.content with
  | some (.mapping _) =>
    prepare id
    itemsOf id
  | some (.list items) =>
    let each ← items.mapM fun item => do
      discard <| itemsOf item
      prepare item
      itemsOf item
    return each.reverse.flatten
  | _ => fail

/-- Merges into a mapping what it merges, from its item number `index` on; what is merged comes
first. -/
def merge : (fuel : Nat) → (id index : Nat) → (merged : List (Nat × Nat)) → Builder Unit
  | 0, _, _, _ => fail
  | fuel + 1, id, index, merged => do
    let items ← itemsOf id
    let nodes := (← get).nodes
    let own := (items.drop index).takeWhile fun item => nodes.kindOf item.1 != .merge
    modify fun site => { site with nodes := site.nodes.nameTexts (own.map Prod.fst) }
    match items.drop (index + own.length) with
    | [] => modify fun site => { site with nodes := site.nodes.setItems id (merged ++ items) }
    | (_, source) :: rest =>
      modify fun site =>
        { site with nodes := site.nodes.setItems id (items.take (index + own.length) ++ rest) }
      let more ← mergedItems (fun item => merge fuel item 0 []) source
      merge fuel id (index + own.length) (merged ++ more)

/-- Gives a name a value: in its place if it is there, else at the end. -/
def insert (name : Scalar) (id : Nat) : List (Scalar × Nat) → List (Scalar × Nat)
  | [] => [(name, id)]
  | (n, old) :: rest => if n.same name then (n, id) :: rest else (n, old) :: insert name id rest

/-- The named values in a node that is a mapping. -/
def named (id : Nat) : Builder (List (Scalar × Nat)) := do
  discard <| itemsOf id
  let nodes := (← get).nodes
  let merges := nodes.foldl (fun n node => if node.kind = .merge then n + 1 else n) 0
  merge (2 * merges + 2) id 0 []
  (← itemsOf id).foldlM
    (fun done item => do
      let name ← scalar item.1
      value item.2
      return insert name item.2 done)
    []

/-- The name and the value in a node that is a mapping of one name. -/
def pair (id : Nat) : Builder (Nat × Nat) := do
  match ← itemsOf id with
  | [(name, item)] =>
    value name
    value item
    return (name, item)
  | _ => fail

/-- The nodes in a node that is a list. -/
def listed (id : Nat) : Builder (List Nat) := do
  match (← get).nodes[id]?.map Node.content with
  | some (.list items) => return items
  | _ => fail

/-- Reads the inside of a node. -/
def fill (id : Nat) : Builder Unit := do
  match (← get).built[id]?.bind (·) with
  | some (.list _) =>
    let items ← listed id
    items.forM value
    put id (.list items)
  | some (.mapping _) => put id (.mapping (← named id))
  | some (.set _) => put id (.set (inSlotOrder ((← named id).map Prod.fst)))
  | some (.pairs _) => put id (.pairs (← (← listed id).mapM pair))
  | _ => return

/-- Reads the insides of all nodes that wait, level by level. -/
def finish : (fuel : Nat) → Builder Unit
  | 0 => return
  | fuel + 1 => do
    let ids := (← get).waiting.reverse
    if ids.isEmpty then return
    modify fun site => { site with waiting := [] }
    ids.forM fill
    finish fuel

end Builder

/-- The values of the nodes of a document. -/
def Nodes.build (nodes : Nodes) (root : Nat) : Read (Array (Option Built)) := do
  let start : Site := ⟨nodes, Array.replicate nodes.size none, []⟩
  let (_, site) ← (do Builder.value root; Builder.finish (nodes.size + 1) : Builder Unit).run start
  return site.built

/-! ### Trees -/

/-- The trees of nodes that do not stand inside themselves, as far as they are known. -/
abbrev Known := Array (Option Tree)

/-- A tree, and whether all of it was written out. -/
abbrev Part := Tree × Bool

/-- Remembers the tree of a node if all of it is written out. -/
def keep (id : Nat) (p : Part) : StateM Known Part := do
  if p.2 then modify fun known => known.set! id (some p.1)
  return p

/-- The tree of a node that stands inside the nodes `inside`. A node does not appear inside itself
once more. The values in the first `levels` levels of mappings count as standing alone. -/
def treeAt (built : Array (Option Built)) : (fuel levels : Nat) → (inside : List Nat) → (id : Nat) →
    StateM Known Part
  | 0, _, _, _ => return (.scalar .null, false)
  | fuel + 1, levels, inside, id => do
    if let some t := (← get)[id]?.bind (·) then return (t, true)
    let part := treeAt built fuel 0 (id :: inside)
    let setting := if levels = 0 then part else treeAt built fuel (levels - 1) []
    match built[id]?.bind (·) with
    | some (.scalar s) => return (.scalar s, true)
    | some (.set items) => return (.set items, true)
    | some (.list items) =>
      if inside.contains id then return (.listAgain, false)
      let parts ← items.mapM part
      keep id (.list (parts.map Prod.fst), parts.all Prod.snd)
    | some (.mapping items) =>
      if inside.contains id then return (.mappingAgain, false)
      let parts ← items.mapM fun (name, item) => do return (name, ← setting item)
      keep id (.mapping (parts.map fun (name, p) => (name, p.1)), parts.all fun (_, p) => p.2)
    | some (.pairs items) =>
      if inside.contains id then return (.listAgain, false)
      let parts ← items.mapM fun (name, item) => do return (← part name, ← part item)
      keep id (.pairs (parts.map fun (p, q) => (p.1, q.1)), parts.all fun (p, q) => p.2 && q.2)
    | none => return (.scalar .null, true)

/-- The levels that are taken apart: the sections of a file and their settings. -/
def openLevels : Nat := 2

/-- The tree of a text. -/
def Tree.read (text : String) : Read Tree := do
  let (nodes, root) ← Nodes.read text
  match root with
  | none => return .scalar .null
  | some root =>
    let built ← nodes.build root
    let known : Known := Array.replicate nodes.size none
    return ((treeAt built (nodes.size + openLevels + 1) openLevels [] root).run known).1.1

end Inventory.Yaml
