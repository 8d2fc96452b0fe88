import Inventory.Label.Binding
import Inventory.Proofs.Mapping

/-!
# What the placeholders of a label name

The properties of an entry and the fields of its category are bound. Where both have a name, the
field counts.
-/

namespace Inventory

namespace Part

variable {α β : Type}

theorem slots_map (f : α → β) (ps : List (Part α)) : slots (ps.map (map f)) = (slots ps).map f := by
  induction ps with
  | nil => rfl
  | cons p ps ih => cases p <;> simp [slots, map, ih]

theorem slots_append (ps qs : List (Part α)) : slots (ps ++ qs) = slots ps ++ slots qs := by
  induction ps with
  | nil => rfl
  | cons p ps ih => cases p <;> simp [slots, ih]

theorem render_map (text : β → List Char) (f : α → β) (ps : List (Part α)) :
    render text (ps.map (map f)) = render (text ∘ f) ps := by
  induction ps with
  | nil => rfl
  | cons p ps ih => cases p <;> simp [render, map, ih]

end Part

namespace Entry

variable {e : Entry} {c : Category} {name : String}

theorem get?_bindings (e : Entry) (c : Category) (name : String) : (e.bindings c).get? name =
    Mapping.last? ((propertyNames.map fun name => (name, ((e.property? name).getD .null).labelText)) ++
      c.fieldNames.map fun name => (name, ((e.fields.get? name).getD .null).labelText)) name :=
  (Mapping.get?_update _ name []).trans (Option.or_none ..)

/-- Every property and every field of the category is bound. -/
theorem isSome_get?_bindings (h : name ∈ propertyNames ∨ name ∈ c.fieldNames) :
    ((e.bindings c).get? name).isSome := by
  rw [get?_bindings]
  refine Mapping.isSome_last? ?_
  simpa [Mapping.names, Function.comp_def] using h

/-- A field stands for the value that the entry has for it, and for no text where it has none. -/
theorem get?_bindings_of_mem (e : Entry) (h : name ∈ c.fieldNames) :
    (e.bindings c).get? name = some ((e.fields.get? name).getD .null).labelText := by
  let fields := c.fieldNames.map fun name => (name, ((e.fields.get? name).getD .null).labelText)
  have hsome : (Mapping.last? fields name).isSome := by
    refine Mapping.isSome_last? ?_
    simpa [fields, Mapping.names, Function.comp_def] using h
  obtain ⟨text, htext⟩ := Option.isSome_iff_exists.1 hsome
  obtain ⟨other, -, heq⟩ := List.mem_map.1 (Mapping.mem_of_last? htext)
  cases heq
  rw [get?_bindings, Mapping.last?_append, htext, Option.some_or]

end Entry

end Inventory
