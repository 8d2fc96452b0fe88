import Inventory.Fault
import Inventory.Text.Blank

/-!
Comparisons between a value of an entry and an operand of the same type. Reals compare exactly,
texts are equal character by character, and containment disregards case.
-/
namespace Inventory

inductive Comparison where
  | eq
  | ne
  | lt
  | le
  | gt
  | ge
  | contains
  deriving DecidableEq, Repr

/-- A text stands somewhere inside another. -/
def Text.occursIn (part : List Char) : List Char → Bool
  | [] => part.isEmpty
  | c :: rest => part.isPrefixOf (c :: rest) || occursIn part rest

namespace Comparison

def all : List Comparison :=
  [.eq, .ne, .lt, .le, .gt, .ge, .contains]

def symbol : Comparison → String
  | .eq => "="
  | .ne => "!="
  | .lt => "<"
  | .le => "<="
  | .gt => ">"
  | .ge => ">="
  | .contains => "~"

def name : Comparison → String
  | .eq => "eq"
  | .ne => "neq"
  | .lt => "lt"
  | .le => "lte"
  | .gt => "gt"
  | .ge => "gte"
  | .contains => "contains"

/-- The comparison that a symbol, a doubled equals sign or a name in any case stands for. -/
def ofText (text : String) : Except Fault Comparison :=
  let lowered := Text.lower (Text.trim text)
  if lowered = "==" then .ok .eq
  else
    match all.find? fun c => lowered == c.symbol || lowered == c.name with
    | some c => .ok c
    | none => .error (.unknownOperator text)

/-- Texts can be equal or contain one another; numbers have an order. -/
def fits (c : Comparison) (t : FieldType) : Bool :=
  match t with
  | .text => c ∈ [.eq, .ne, .contains]
  | _ => c ≠ .contains

/-- Equality and inequality can be asked of null. -/
def takesNull (c : Comparison) : Bool :=
  c == .eq || c == .ne

/-- The comparison of two places in an order. -/
def ofOrder (c : Comparison) (a b : Int) : Bool :=
  match c with
  | .eq => a == b
  | .ne => a != b
  | .lt => a < b
  | .le => a ≤ b
  | .gt => b < a
  | .ge => b ≤ a
  | .contains => false

/-- The comparison of two real numbers: without an order between them, they only differ. -/
def ofReals (c : Comparison) (x y : Binary64) : Bool :=
  match c with
  | .ne => !Binary64.compareBy (ofOrder .eq) x y
  | c => Binary64.compareBy (ofOrder c) x y

def ofTexts (c : Comparison) (s t : String) : Bool :=
  match c with
  | .eq => s == t
  | .ne => s != t
  | .contains => Text.occursIn (Text.fold t).toList (Text.fold s).toList
  | _ => false

/-- The comparison of two values of one type. -/
def holds (c : Comparison) : (value operand : Value) → Bool
  | .text s, .text t => c.ofTexts s t
  | .int a, .int b => c.ofOrder a b
  | .real x, .real y => c.ofReals x y
  | _, _ => false

end Comparison

end Inventory
