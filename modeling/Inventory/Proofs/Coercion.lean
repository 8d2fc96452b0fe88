import Inventory.Proofs.Fallible
import Inventory.Query.Constraint

/-!
# Coerced values

A value that a type has coerced is accepted by the type when it is read again.
-/

namespace Inventory.FieldType

/-- The value is one that coercion to the type gives. -/
def Gives (t : FieldType) (v : Value) : Prop :=
  ∃ given, t.coerce given = .ok v

theorem checkRange_ok {n m : Int} (h : checkRange n = .ok m) : m = n ∧ inInt64 n := by
  unfold checkRange at h
  split at h
  · cases h
    exact ⟨rfl, ‹_›⟩
  · cases h

theorem parseInteger_ok {raw : String} {n : Int} (h : parseInteger raw = .ok n) :
    inInt64 n := by
  unfold parseInteger at h
  simp only [refuse_eq_ok_iff] at h
  obtain ⟨-, h⟩ := h
  split at h
  · obtain ⟨rfl, hn⟩ := checkRange_ok h
    exact hn
  · cases h
  · cases h

theorem accepts_of_parse {t : FieldType} {raw : String} {v : Value} (h : t.parse raw = .ok v) :
    t.accepts v := by
  unfold parse at h
  split at h
  · cases h
    rfl
  · cases t with
    | text =>
        obtain ⟨s, -, rfl⟩ := map_eq_ok_iff.1 h
        rfl
    | integer =>
        obtain ⟨n, hn, rfl⟩ := map_eq_ok_iff.1 h
        exact parseInteger_ok hn
    | real =>
        obtain ⟨x, -, rfl⟩ := map_eq_ok_iff.1 h
        rfl

theorem accepts_of_coerce {t : FieldType} {given v : Value} (h : t.coerce given = .ok v) :
    t.accepts v := by
  cases given with
  | null =>
      cases h
      rfl
  | bool b => cases h
  | text s => exact accepts_of_parse h
  | int n =>
      cases t with
      | text => cases h
      | integer =>
          obtain ⟨m, hm, rfl⟩ := map_eq_ok_iff.1 h
          obtain ⟨rfl, hn⟩ := checkRange_ok hm
          exact hn
      | real =>
          simp only [coerce] at h
          split at h <;> cases h
          rfl
  | real x =>
      cases t with
      | text => cases h
      | integer => cases h
      | real =>
          simp only [coerce] at h
          split at h <;> cases h
          rfl
  | list items => cases h
  | mapping items => cases h

theorem Gives.accepts {t : FieldType} {v : Value} (h : t.Gives v) : t.accepts v := by
  obtain ⟨given, hgiven⟩ := h
  exact accepts_of_coerce hgiven

/-- What is named in a fault does not change a success. -/
theorem nameField_eq_ok_iff {field : String} {e : Except Fault Value} {v : Value} :
    Constraint.nameField field e = .ok v ↔ e = .ok v := by
  cases e <;> simp [Constraint.nameField]

/-- Only a mismatch of types names its field, and it stays one. -/
theorem failsAs_nameField {P : Fault → Prop} (hP : ∀ f : Fault, f.kind = .typeMismatch → ¬P f)
    (field : String) (r : Except Fault Value) :
    FailsAs P (Constraint.nameField field r) ↔ FailsAs P r := by
  cases r with
  | ok v => exact iff_of_false (not_failsAs_ok v) (not_failsAs_ok v)
  | error f =>
      rw [Constraint.nameField, failsAs_error_iff]
      by_cases hkind : f.kind = .typeMismatch
      · rw [if_pos hkind, failsAs_error_iff]
        exact iff_of_false (hP _ rfl) (hP f hkind)
      · rw [if_neg hkind, failsAs_error_iff]

end Inventory.FieldType
