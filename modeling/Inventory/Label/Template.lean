import Inventory.Fault
import Inventory.Gzip.Member
import Inventory.Label.Placeholder
import Inventory.Text.Markup
import Inventory.Xml.Document

/-!
Templates of labels: compressed documents with placeholders. Filling puts escaped texts into the
placeholders in one pass, and the result must be a well-formed document again. A placeholder
without a value is refused or left blank.
-/
namespace Inventory

structure Template where
  name : String
  text : String

/-- A filled template, with warnings about what was left blank. -/
structure Label where
  text : String
  warnings : List String

/-- What comes of filling a template: the warnings on the way, and the filled text or the reason why
there is none. -/
structure Filling where
  warnings : List String
  result : Except Fault String

/-- The label that a filling comes to, with its warnings. -/
def Filling.label (f : Filling) : Except Fault Label :=
  f.result.map (⟨·, f.warnings⟩)

namespace Template

/-- The placeholder for the next unused key. -/
def nextKey : String := "next_key"

/-- The text of the template with a name is well-formed. -/
def check (name text : String) : Except Fault Unit :=
  match Xml.check text.toList with
  | .ok true => .ok ()
  | .ok false => .error (.templateNotXml name)
  | .error f => .error (.charset f)

/-- The template in compressed bytes. -/
def ofBytes (name : String) (compressed : ByteArray) : Except Fault Template :=
  match Gzip.decompress compressed with
  | none => .error (.templateNotGzip name)
  | some bytes =>
    match Text.decodeUtf8 bytes with
    | .error _ => .error (.templateNotUtf8 name)
    | .ok text => do
      check name text
      return ⟨name, text⟩

def parts (t : Template) : List (Part String) :=
  Placeholder.parts t.text.toList

/-- Adds a name at the end unless it is there. -/
def addNew (names : List String) (name : String) : List String :=
  if names.contains name then names else names ++ [name]

/-- The names of the placeholders, each one once, in order. -/
def placeholders (t : Template) : List String :=
  (Part.slots t.parts).foldl addNew []

/-- How many keys a sheet of keys needs. -/
def slotCount (t : Template) : Nat :=
  ((Part.slots t.parts).filter (· == nextKey)).length

/-- The names without a value, each one once, in order. -/
def unbound (parts : List (Part (String × Option String))) : List String :=
  ((Part.slots parts).filter (·.2.isNone)).foldl (fun names (name, _) => addNew names name) []

/-- The text of a template whose placeholders have values, or none. -/
def render (parts : List (Part (String × Option String))) : String :=
  String.ofList (Part.render (fun (_, value) => value.elim [] Text.escape) parts)

def blankWarning (t : Template) (name : String) : String :=
  "Template '" ++ t.name ++ "' placeholder '\x7b\x7b" ++ name ++ "\x7d\x7d' is unbound; left blank."

/-- Fills a template whose placeholders have values, or none. If it is strict, every placeholder
needs a value; else the names without one are warned about, and then the text is checked. -/
def complete (t : Template) (strict : Bool) (parts : List (Part (String × Option String))) :
    Filling :=
  let missing := unbound parts
  if strict && !missing.isEmpty then ⟨[], .error (.unboundPlaceholders t.name missing)⟩
  else
    let text := render parts
    ⟨missing.map t.blankWarning, (check t.name text).map fun _ => text⟩

/-- Finishes a label. -/
def finish (t : Template) (strict : Bool) (parts : List (Part (String × Option String))) :
    Except Fault Label :=
  (t.complete strict parts).label

theorem finish_eq (t : Template) (strict : Bool) (parts : List (Part (String × Option String))) :
    t.finish strict parts =
      if strict && !(unbound parts).isEmpty then
        .error (.unboundPlaceholders t.name (unbound parts))
      else (check t.name (render parts)).map fun _ =>
        ⟨render parts, (unbound parts).map t.blankWarning⟩ := by
  rw [finish, complete]
  split
  · rfl
  · dsimp only
    cases check t.name (render parts) <;> rfl

/-- Fills each placeholder with the value of its name. -/
def filling (t : Template) (value? : String → Option String) (strict : Bool) : Filling :=
  t.complete strict (t.parts.map (Part.map fun name => (name, value? name)))

/-- The label with the values of the names in their placeholders. -/
def fill (t : Template) (value? : String → Option String) (strict : Bool) : Except Fault Label :=
  (t.filling value? strict).label

/-- Gives each placeholder for a key the next one of `keys`; none if there are too few. -/
def takeKeys :
    (keys : List String) → List (Part String) → Option (List (Part (String × Option String)))
  | _, [] => some []
  | keys, .char c :: rest => do return .char c :: (← takeKeys keys rest)
  | keys, .slot name :: rest =>
    if name = nextKey then
      match keys with
      | [] => none
      | key :: others => do return .slot (name, some key) :: (← takeKeys others rest)
    else do return .slot (name, none) :: (← takeKeys keys rest)

/-- Fills each placeholder for a key with the next one of `keys`; no other one has a value. -/
def fillKeys (t : Template) (keys : List String) (strict : Bool) : Except Fault Label :=
  match takeKeys keys t.parts with
  | none => .error (.notEnoughKeys t.name t.slotCount)
  | some parts => t.finish strict parts

end Template

end Inventory
