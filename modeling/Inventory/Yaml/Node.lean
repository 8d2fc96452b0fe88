import Inventory.Yaml.Resolution
import Inventory.Yaml.Written

/-!
Nodes: what the tokens of a settings file are put together to, before they stand for anything. A
node may be used in several places, and inside itself.
-/
namespace Inventory.Yaml

/-- The tags that every file knows begin with this text. -/
def standardTags : List Char :=
  "tag:yaml.org,2002:".toList

/-- The kinds of the tags that every file knows. -/
def standardKinds : List (String × Kind) :=
  [("null", .null), ("bool", .bool), ("int", .int), ("float", .real), ("timestamp", .stamp),
   ("str", .text), ("binary", .bytes), ("seq", .list), ("map", .mapping), ("set", .set),
   ("pairs", .pairs), ("omap", .pairs), ("merge", .merge), ("value", .main)]

/-- The kind that a tag means. -/
def Kind.ofTag (tag : List Char) : Kind :=
  if standardTags.isPrefixOf tag then
    (standardKinds.lookup (String.ofList (tag.drop standardTags.length))).getD .unknown
  else .unknown

/-- What a node holds: a text, the nodes of a list, or the names and values of a mapping. -/
inductive Content where
  | scalar (text : Written)
  | list (items : List Nat)
  | mapping (items : List (Nat × Nat))

structure Node where
  kind : Kind
  content : Content

/-- Nodes by number. -/
abbrev Nodes := Array Node

namespace Nodes

/-- The kind of a node. -/
def kindOf (nodes : Nodes) (id : Nat) : Kind :=
  (nodes[id]?.map Node.kind).getD .unknown

/-- The names and values in a node that is a mapping. -/
def items? (nodes : Nodes) (id : Nat) : Option (List (Nat × Nat)) :=
  match nodes[id]?.map Node.content with
  | some (.mapping items) => some items
  | _ => none

/-- Gives a node names and values. -/
def setItems (nodes : Nodes) (id : Nat) (items : List (Nat × Nat)) : Nodes :=
  nodes.modify id fun node => { node with content := .mapping items }

/-- Turns the names that stand for the mapping around them into texts. -/
def nameTexts (nodes : Nodes) (names : List Nat) : Nodes :=
  names.foldl
    (fun nodes id => nodes.modify id fun node =>
      if node.kind = .main then { node with kind := .text } else node)
    nodes

/-- The text of a node: its own, or that of the value that stands for it. -/
def text? (nodes : Nodes) : (fuel : Nat) → (id : Nat) → Option Written
  | 0, _ => none
  | fuel + 1, id =>
    match nodes[id]?.map Node.content with
    | some (.scalar text) => some text
    | some (.mapping items) =>
      (items.find? fun item => nodes.kindOf item.1 = .main).bind fun item =>
        nodes.text? fuel item.2
    | _ => none

end Nodes

end Inventory.Yaml
