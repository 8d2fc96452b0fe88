import Inventory.Proofs.Fallible
import Inventory.Store

/-!
# What checks find wrong

The checks of values and of entries refuse with faults of few kinds, and none of these says where it
arose: only an import does. What a check does not find is then a matter of its kinds.
-/

namespace Inventory

variable {α β : Type} {kinds more : List FaultKind} {r : Except Fault α} {f : Fault}

/-- If the result is a fault, it is of one of these kinds and does not say where it arose. -/
def Finds (kinds : List FaultKind) (r : Except Fault α) : Prop :=
  ∀ f, r = .error f → f.kind ∈ kinds ∧ f.notes = []

namespace Finds

theorem ok (x : α) : Finds kinds (.ok x) :=
  nofun

theorem error (hkind : kinds.contains f.kind) (hnotes : f.notes = []) :
    Finds kinds (.error f : Except Fault α) := by
  rintro g ⟨⟩
  exact ⟨by simpa using hkind, hnotes⟩

theorem mono (h : Finds kinds r) (hmore : ∀ k ∈ kinds, k ∈ more) : Finds more r :=
  fun f hf => (h f hf).imp_left (hmore f.kind)

theorem bind {k : α → Except Fault β} (h : Finds kinds r) (hk : ∀ x, Finds kinds (k x)) :
    Finds kinds (r >>= k) := by
  cases r with
  | error f =>
      rintro g ⟨⟩
      exact h f rfl
  | ok x => exact hk x

theorem map (h : Finds kinds r) (g : α → β) : Finds kinds (r.map g) :=
  fun f hf => h f (map_eq_error_iff.1 hf)

theorem about (hkind : kinds.contains f.kind) (hnotes : f.notes = []) (hbad : .badValue ∈ kinds)
    (v : Value) : Finds kinds (.error (.about v f) : Except Fault α) := by
  rw [Fault.about]
  split
  · exact error hkind hnotes
  · exact error (List.contains_iff_mem.2 hbad) rfl

theorem nameField (h : Finds kinds r) (htype : .typeMismatch ∈ kinds) (field : String) :
    Finds kinds (Constraint.nameField field r) := by
  cases r with
  | ok x => exact ok x
  | error f =>
      rw [Constraint.nameField]
      split
      · exact error (List.contains_iff_mem.2 htype) rfl
      · exact h

end Finds

theorem finds_checkText (s what : String) : Finds [.typeMismatch] (checkText s what) := by
  unfold checkText
  split
  · exact .error rfl rfl
  · exact .ok s

theorem finds_checkRange (n : Int) : Finds [.typeMismatch, .badValue] (checkRange n) := by
  unfold checkRange
  split
  · exact .ok n
  · exact .about rfl rfl (by decide) _

namespace FieldType

theorem finds_parseInteger (raw : String) :
    Finds [.typeMismatch, .badValue] (parseInteger raw) := by
  unfold parseInteger
  dsimp only
  split
  · exact .error rfl rfl
  · split
    · exact finds_checkRange _
    · exact .error rfl rfl
    · exact .error rfl rfl

theorem finds_parseReal (raw : String) : Finds [.typeMismatch] (parseReal raw) := by
  unfold parseReal
  split
  · exact .error rfl rfl
  · split
    · exact .ok _
    · exact .error rfl rfl

theorem finds_parse (t : FieldType) (raw : String) :
    Finds [.typeMismatch, .badValue] (t.parse raw) := by
  unfold parse
  split
  · exact .ok _
  · cases t with
    | text => exact ((finds_checkText raw _).mono (by decide)).map _
    | integer => exact (finds_parseInteger raw).map _
    | real => exact ((finds_parseReal raw).mono (by decide)).map _

theorem finds_coerce (t : FieldType) (v : Value) :
    Finds [.typeMismatch, .badValue, .beyondRange] (t.coerce v) := by
  cases v with
  | null => exact .ok _
  | bool b => exact .error rfl rfl
  | text s => exact (t.finds_parse s).mono (by decide)
  | int n =>
      cases t with
      | text => exact .about rfl rfl (by decide) _
      | integer => exact ((finds_checkRange n).mono (by decide)).map _
      | real =>
          simp only [coerce]
          split
          · exact .ok _
          · exact .error rfl rfl
  | real x =>
      cases t with
      | text => exact .error rfl rfl
      | integer => exact .error rfl rfl
      | real =>
          rw [coerce]
          split
          · exact .ok _
          · exact .error rfl rfl
  | list items => exact .about rfl rfl (by decide) _
  | mapping items => exact .about rfl rfl (by decide) _

end FieldType

namespace Store

theorem finds_checkKey (v : Value) : Finds [.validation, .typeMismatch] (checkKey v) := by
  unfold checkKey
  split
  · split
    · exact .error rfl rfl
    · exact (finds_checkText _ _).mono (by decide)
  · exact .error rfl rfl

theorem finds_checkLocation (v : Value) : Finds [.typeMismatch] (checkLocation v) := by
  unfold checkLocation
  split
  · exact finds_checkText _ _
  · exact .error rfl rfl

theorem finds_checkQuantity (v : Value) :
    Finds [.typeMismatch, .badValue, .negativeQuantity] (checkQuantity v) := by
  unfold checkQuantity
  split
  · refine ((finds_checkRange _).mono (by decide)).bind fun n => ?_
    split
    · exact .error rfl rfl
    · exact .ok _
  · exact .about rfl rfl (by decide) _

theorem finds_coerceUpdates (c : Category) (items : Mapping Value) : ∀ done,
    Finds [.unknownField, .typeMismatch, .badValue, .beyondRange] (coerceUpdates c done items) := by
  induction items with
  | nil => exact fun done => .ok done
  | cons item rest ih =>
      intro done
      rw [coerceUpdates]
      split
      · exact .error rfl rfl
      · next f _ =>
          have hcoerce : Finds [.unknownField, .typeMismatch, .badValue, .beyondRange]
              (f.type.coerce item.2) := (f.type.finds_coerce item.2).mono (by decide)
          exact (hcoerce.nameField (by decide) f.name).bind fun w => ih _

end Store

end Inventory
