import Inventory.Proofs.Addressing
import Inventory.Proofs.WellTyped

/-!
# Constraints on fields

What can be constrained are the fields of a category and three properties of its entries. A
constraint is made of what coercion gives for its operand. Whether an entry satisfies it is a matter
of the value that the entry has there: null answers only to the tests for null, and other values
are compared with the operand.
-/

namespace Inventory

/-! ## What can be constrained -/

/-- The fields of the category, and the properties that can be constrained like them. -/
def Category.constrainable (c : Category) : List FieldDef :=
  c.fields ++ Constraint.properties

namespace Category.Definable

variable {c : Category} {f : FieldDef}

/-- No field has the name of a property. -/
theorem field?_eq_none (hc : c.Definable) {name : String} (hname : Text.lower name ∈ Name.reserved) :
    c.field? name = none := by
  rw [field?, List.find?_eq_none]
  intro f hf heq
  have hsame : f.name = Text.lower name := by simpa using heq
  exact (hc.named f hf).unreserved (hsame ▸ hname)

/-- What can be constrained is found by its name in any case. -/
theorem target_eq (hc : c.Definable) (hf : f ∈ c.constrainable) {name : String}
    (hname : Text.lower name = f.name) : Constraint.target c name = .ok f := by
  have htarget : Constraint.target? c name = some f := by
    rcases List.mem_append.1 hf with hf | hf
    · rw [Constraint.target?, hc.canonical.field?_eq_some hf hname]
      rfl
    · have hreserved : f.name ∈ Name.reserved :=
        (by decide : ∀ f ∈ Constraint.properties, f.name ∈ Name.reserved) f hf
      rw [Constraint.target?, hc.field?_eq_none (hname ▸ hreserved), hname]
      exact (by decide : ∀ f ∈ Constraint.properties,
        Constraint.properties.find? (·.name == f.name) = some f) f hf
  rw [Constraint.target, htarget]

end Category.Definable

/-! ## How constraints are made -/

namespace Constraint

variable {c : Category} {f : FieldDef} {comparison : Comparison} {given operand : Value}
  {k : Constraint}

theorem isNull_iff {v : Value} : v.isNull ↔ v = .null := by
  cases v <;> simp [Value.isNull]

/-- A constraint is made exactly if the comparison fits the type of the field and the operand can be
coerced to it, where only a comparison that takes null may be left without an operand. -/
theorem onField_eq_ok_iff : onField f comparison given = .ok k ↔
    comparison.fits f.type ∧ ∃ operand, f.type.coerce given = .ok operand ∧
      (operand = .null → comparison.takesNull) ∧ k = ⟨f, comparison, operand⟩ := by
  simp only [onField, bind_eq_ok_iff, guard_eq_ok_iff, FieldType.nameField_eq_ok_iff,
    Bool.and_eq_true, isNull_iff, Bool.not_eq_true', not_and, Bool.not_eq_false]
  constructor
  · rintro ⟨hfits, operand, hoperand, hnull, ⟨⟩⟩
    exact ⟨hfits, operand, hoperand, hnull, rfl⟩
  · rintro ⟨hfits, operand, hoperand, hnull, rfl⟩
    exact ⟨hfits, operand, hoperand, hnull, rfl⟩

/-- A name in any case makes a constraint on what has the name. -/
theorem make_eq (hc : c.Definable) (hf : f ∈ c.constrainable) {name : String}
    (hname : Text.lower name = f.name) (comparison : Comparison) (given : Value) :
    make c name comparison given = onField f comparison given := by
  rw [make, hc.target_eq hf hname, ok_bind]

/-! ## Which entries satisfy them -/

variable {e : Entry} {v w : Value}

/-- Without an operand, equality asks whether the entry has nothing there. -/
theorem holds_eq_null : (⟨f, .eq, .null⟩ : Constraint).holds e ↔ e.value f.name = .null := by
  rw [← isNull_iff]
  rfl

/-- Without an operand, inequality asks whether the entry has something there. -/
theorem holds_ne_null : (⟨f, .ne, .null⟩ : Constraint).holds e ↔ e.value f.name ≠ .null := by
  rw [Ne, ← isNull_iff, Bool.not_eq_true, ← Bool.not_eq_true']
  rfl

/-- Where the entry has nothing, it satisfies no comparison with a value. -/
theorem not_holds_of_null (hv : v ≠ .null) (he : e.value f.name = .null) :
    (⟨f, comparison, v⟩ : Constraint).holds e = false := by
  have hoperand : v.isNull = false := Bool.eq_false_iff.2 (isNull_iff.not.2 hv)
  simp only [holds, hoperand, he]
  rfl

/-- Where the entry has an accepted value, it is compared with the operand. -/
theorem holds_of_value (hv : v ≠ .null) (he : e.value f.name = w) (hw : w ≠ .null)
    (haccepts : f.type.accepts w) :
    (⟨f, comparison, v⟩ : Constraint).holds e = comparison.holds w v := by
  have hoperand : v.isNull = false := Bool.eq_false_iff.2 (isNull_iff.not.2 hv)
  have hvalue : w.isNull = false := Bool.eq_false_iff.2 (isNull_iff.not.2 hw)
  simp [holds, hoperand, he, hvalue, haccepts]

end Constraint

/-! ## The values of entries -/

namespace Entry

variable {e : Entry} {c : Category} {f : FieldDef}

/-- The properties have reserved names. -/
theorem property?_eq_none {name : String} (h : name ∉ Name.reserved) : e.property? name = none := by
  unfold property?
  split
  case h_7 => rfl
  all_goals exact absurd (by decide) h

/-- A declared field has the value that the entry holds for it. -/
theorem value_field (hc : c.Definable) (hf : f ∈ c.fields) :
    e.value f.name = (e.fields.get? f.name).getD .null := by
  have hfield := hc.named f hf
  rw [value, hfield.lower, property?_eq_none hfield.unreserved]
  rfl

end Entry

end Inventory
