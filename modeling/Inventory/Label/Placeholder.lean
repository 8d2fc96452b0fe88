import Inventory.Schema.Name
import Inventory.Text.Blank

/-!
Placeholders in the text of a template: a name in doubled braces, with white space around it or
not. A text is cut into parts from left to right, and the first placeholder that fits is taken.
-/
namespace Inventory

/-- A part of a template's text: a character that stays, or something in place of a placeholder.
-/
inductive Part (α : Type) where
  | char (c : Char)
  | slot (a : α)
  deriving DecidableEq, Repr

namespace Placeholder

/-- What follows the blanks at the head and the closing braces after them. -/
def closed? (cs : List Char) : Option (List Char) :=
  match cs.dropWhile Text.isBlank with
  | '}' :: '}' :: rest => some rest
  | _ => none

/-- The name after opening braces, and what follows the placeholder. -/
def named? (cs : List Char) : Option (List Char × List Char) :=
  let body := cs.dropWhile Text.isBlank
  match body with
  | c :: _ =>
    if Name.isStart c then
      (closed? (body.dropWhile Name.isPart)).map (body.takeWhile Name.isPart, ·)
    else none
  | [] => none

/-- The name of the placeholder at the head, in lower case, and what follows it. -/
def read? : List Char → Option (String × List Char)
  | '{' :: '{' :: rest =>
    (named? rest).map fun (name, rest) => (String.ofList (name.map Char.toLower), rest)
  | _ => none

theorem closed?_length {cs rest : List Char} (h : closed? cs = some rest) :
    rest.length < cs.length := by
  have hle := (List.dropWhile_sublist (l := cs) Text.isBlank).length_le
  unfold closed? at h
  split at h
  · next heq => cases h; rw [heq] at hle; simp at hle; omega
  · simp at h

theorem read?_length {cs rest : List Char} {name : String} (h : read? cs = some (name, rest)) :
    rest.length < cs.length := by
  unfold read? at h
  split at h
  · next body =>
    simp only [named?, Option.map_eq_some_iff] at h
    obtain ⟨⟨n, r⟩, hn, hr⟩ := h
    cases hr
    have hblank := (List.dropWhile_sublist (l := body) Text.isBlank).length_le
    split at hn
    · split at hn
      · simp only [Option.map_eq_some_iff] at hn
        obtain ⟨r', hc, he⟩ := hn
        cases he
        have hlt := closed?_length hc
        have hname :=
          (List.dropWhile_sublist (l := body.dropWhile Text.isBlank) Name.isPart).length_le
        simp only [List.length_cons]
        omega
      · simp at hn
    · simp at hn
  · simp at h

/-- The parts of a text: its placeholders, and all other characters. -/
def parts (cs : List Char) : List (Part String) :=
  match cs with
  | [] => []
  | c :: rest =>
    match _h : read? (c :: rest) with
    | some (name, after) => .slot name :: parts after
    | none => .char c :: parts rest
termination_by cs.length
decreasing_by
  · exact read?_length ‹_›
  · simp

end Placeholder

namespace Part

/-- What stands in the slots, in order. -/
def slots : List (Part α) → List α
  | [] => []
  | .char _ :: rest => slots rest
  | .slot a :: rest => a :: slots rest

/-- Puts something else into every slot. -/
def map (f : α → β) : Part α → Part β
  | .char c => .char c
  | .slot a => .slot (f a)

/-- The text of parts, with a text for every slot. -/
def render (text : α → List Char) : List (Part α) → List Char
  | [] => []
  | .char c :: rest => c :: render text rest
  | .slot a :: rest => text a ++ render text rest

end Part

end Inventory
