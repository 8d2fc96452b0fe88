import Inventory.Yaml.Tree

/-!
The order in which a set shows its items. A set keeps them in slots that their hashes choose, and
shows them slot by slot. The hashes of numbers follow from their values; where another item stands
in a set, its items are shown as they were written.
-/
namespace Inventory.Yaml

/-- Hashes of numbers are their values modulo this prime. -/
def hashModulus : Nat :=
  Nat.pow 2 61 - 1

/-- The hash of a magnitude with a sign. One hash has a meaning of its own and is left out. -/
def signedHash (negative : Bool) (magnitude : Nat) : Int :=
  let hash : Int := if negative then -(magnitude : Int) else magnitude
  if hash = -1 then -2 else hash

/-- The hash of a number. The numerator of a real number stands over `2 ^ 1074`, and halving is
shifting, since `2 ^ 61` counts as one. -/
def Scalar.hash? : Scalar → Option Int
  | .bool b => some (if b then 1 else 0)
  | .int n => some (signedHash (n < 0) (n.natAbs % hashModulus))
  | .real .nan => none
  | .real (.infinite negative) => some (signedHash negative 314159)
  | .real x => x.numerator?.map fun n =>
      signedHash (n < 0) (n.natAbs * Nat.pow 2 (18 * 61 - 1074) % hashModulus)
  | _ => none

/-- How many slots there are for some items: a power of two. -/
def slotCount (items : Nat) : Nat :=
  if items < 5 then 8 else Nat.pow 2 (Nat.log2 (2 * items) + 1)

/-- The slots in which a set keeps its items. -/
abbrev Slots := Array (Option Scalar)

namespace Slots

/-- The first free slot from a place on; ten slots in a row are tried if there are as many. -/
def free? (slots : Slots) (place : Nat) : Option Nat :=
  let tries := if place + 10 ≤ slots.size then 10 else 1
  (List.range tries).findSome? fun i =>
    if (slots[place + i]?.bind (·)).isNone then some (place + i) else none

/-- The free slot that a hash leads to: where one search fails, the next one begins at a place
that depends on the upper digits of the hash. -/
def find (slots : Slots) : (fuel : Nat) → (place rest : Nat) → Nat
  | 0, place, _ => place
  | fuel + 1, place, rest =>
    match slots.free? place with
    | some slot => slot
    | none => find slots fuel ((5 * place + 1 + rest / 32) % slots.size) (rest / 32)

/-- Puts an item with a hash into its slot. -/
def insert (slots : Slots) (item : Scalar × Int) : Slots :=
  let hash := (item.2 % (Nat.pow 2 64 : Nat)).toNat
  slots.set! (slots.find (slots.size + 14) (hash % slots.size) hash) (some item.1)

end Slots

/-- The items of a set in the order in which it shows them. -/
def inSlotOrder (items : List Scalar) : List Scalar :=
  match items.mapM fun s => s.hash?.map (s, ·) with
  | none => items
  | some hashed =>
    let empty : Slots := Array.replicate (slotCount items.length) none
    (hashed.foldl Slots.insert empty).toList.filterMap id

end Inventory.Yaml
