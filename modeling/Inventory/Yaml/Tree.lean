import Inventory.Value
import Inventory.Yaml.Binary
import Inventory.Yaml.Calendar
import Inventory.Yaml.Written

/-!
Trees: what a settings file holds. The names in a mapping are scalars of any kind, and two names
are the same when their values are equal, so that `1`, `1.0` and `true` name one item.
-/
namespace Inventory.Yaml

inductive Scalar where
  | null
  | bool (b : Bool)
  | int (n : Int)
  | real (x : Binary64)
  | text (s : String)
  /-- A text with halves of characters. -/
  | codes (ns : List Nat)
  | date (d : Date)
  | moment (m : Moment)
  | bytes (ns : List Nat)

inductive Tree where
  | scalar (s : Scalar)
  | list (items : List Tree)
  | mapping (items : List (Scalar × Tree))
  | set (items : List Scalar)
  /-- A list of names, which may be of any kind, with their values. -/
  | pairs (items : List (Tree × Tree))
  /-- A list that stands inside itself. -/
  | listAgain
  /-- A mapping that stands inside itself. -/
  | mappingAgain

namespace Scalar

/-- The whole number that a scalar counts as. -/
def whole? : Scalar → Option Int
  | bool b => some (if b then 1 else 0)
  | int n => some n
  | real x => x.toInt?
  | _ => none

/-- The two scalars name the same item. All that is not a number is the same. -/
def same (a b : Scalar) : Bool :=
  match a, b with
  | null, null => true
  | text s, text t => s == t
  | codes ms, codes ns => ms == ns
  | date d, date e => d == e
  | moment m, moment n => m.same n
  | bytes ms, bytes ns => ms == ns
  | real .nan, real .nan => true
  | real x, real y => Binary64.compareBy (fun i j => i == j) x y
  | a, b =>
    match a.whole?, b.whole? with
    | some m, some n => m == n
    | _, _ => false

/-- The form of a scalar inside messages: texts are quoted. -/
def display : Scalar → String
  | null => Value.null.display
  | bool b => (Value.bool b).display
  | int n => (Value.int n).display
  | real x => (Value.real x).display
  | text s => (Value.text s).display
  | codes ns => Written.quotedCodes ns
  | date d => d.display
  | moment m => m.display
  | bytes ns => displayBytes ns

/-- The scalar on its own: a text is itself. -/
def shown : Scalar → String
  | text s => s
  | codes ns => String.ofList (Written.joined ns)
  | date d => d.shown
  | moment m => m.shown
  | s => s.display

/-- The scalar can be written: a whole number may have too many digits. -/
def isWritable : Scalar → Bool
  | int n => Numeral.isWritable n
  | _ => true

end Scalar

namespace Tree

/-- Gives a name a value: in its place if it is there, else at the end. -/
def insert (name : Scalar) (t : Tree) : List (Scalar × Tree) → List (Scalar × Tree)
  | [] => [(name, t)]
  | (n, old) :: rest => if n.same name then (n, t) :: rest else (n, old) :: insert name t rest

/-- The value of a name. -/
def get? (items : List (Scalar × Tree)) (name : Scalar) : Option Tree :=
  (items.find? fun item => item.1.same name).map Prod.snd

/-- Items between brackets. -/
def bracketed (opening closing : String) (items : List String) : String :=
  opening ++ ", ".intercalate items ++ closing

mutual

/-- The form of a tree inside messages. -/
def display : Tree → String
  | .scalar s => s.display
  | .list items => bracketed "[" "]" (displayItems items)
  | .mapping items => bracketed "\x7b" "\x7d" (displayNamed items)
  | .set [] => "set()"
  | .set items => bracketed "\x7b" "\x7d" (items.map Scalar.display)
  | .pairs items => bracketed "[" "]" (displayPairs items)
  | .listAgain => "[...]"
  | .mappingAgain => "\x7b...\x7d"

def displayItems : List Tree → List String
  | [] => []
  | t :: rest => t.display :: displayItems rest

def displayNamed : List (Scalar × Tree) → List String
  | [] => []
  | (name, t) :: rest => (name.display ++ ": " ++ t.display) :: displayNamed rest

def displayPairs : List (Tree × Tree) → List String
  | [] => []
  | (name, t) :: rest => bracketed "(" ")" [name.display, t.display] :: displayPairs rest

end

mutual

/-- Every scalar in the tree can be written. -/
def isWritable : Tree → Bool
  | .scalar s => s.isWritable
  | .list items => allWritable items
  | .mapping items => namedWritable items
  | .set items => items.all Scalar.isWritable
  | .pairs items => pairsWritable items
  | .listAgain | .mappingAgain => true

def allWritable : List Tree → Bool
  | [] => true
  | t :: rest => t.isWritable && allWritable rest

def namedWritable : List (Scalar × Tree) → Bool
  | [] => true
  | (name, t) :: rest => name.isWritable && t.isWritable && namedWritable rest

def pairsWritable : List (Tree × Tree) → Bool
  | [] => true
  | (name, t) :: rest => name.isWritable && t.isWritable && pairsWritable rest

end

/-- The tree stands for nothing: null, false, zero, or an empty text, list, mapping or set. -/
def isEmpty : Tree → Bool
  | .scalar .null => true
  | .scalar (.bool b) => !b
  | .scalar (.int n) => n == 0
  | .scalar (.real x) => x.toInt? == some 0
  | .scalar (.text s) => s.isEmpty
  | .scalar (.bytes ns) => ns.isEmpty
  | .scalar _ => false
  | .list items => items.isEmpty
  | .mapping items => items.isEmpty
  | .set items => items.isEmpty
  | .pairs items => items.isEmpty
  | .listAgain | .mappingAgain => false

end Tree

end Inventory.Yaml
