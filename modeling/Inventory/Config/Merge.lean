import Inventory.Yaml.Tree

/-!
Merging settings: where both sides hold a mapping, its items are merged; everywhere else the
upper side counts.
-/
namespace Inventory.Yaml.Tree

mutual

/-- What a tree becomes under another one. -/
def merge (base : Tree) : (upper : Tree) → Tree
  | .mapping upper =>
    match base with
    | .mapping items => .mapping (mergeItems items upper)
    | _ => .mapping upper
  | upper => upper

/-- Puts the items of the upper side into a mapping. New names come last. -/
def mergeItems (items : List (Scalar × Tree)) :
    (upper : List (Scalar × Tree)) → List (Scalar × Tree)
  | [] => items
  | (name, t) :: rest =>
    let merged :=
      match get? items name with
      | some old => merge old t
      | none => t
    mergeItems (insert name merged items) rest

end

end Inventory.Yaml.Tree
