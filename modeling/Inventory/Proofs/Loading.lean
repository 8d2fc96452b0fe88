import Inventory.Proofs.Coercion
import Inventory.Proofs.Mapping
import Inventory.Proofs.Schema
import Inventory.Store
import Mathlib.Data.List.Nodup

/-!
# Rows that can be read

A row that its category describes is loaded as an entry with one value for each declared field,
in the order of declaration; a field that is not stored reads as null.
-/

namespace Inventory

namespace Category

/-- Field data as the store writes them: the names differ, and each of them is declared and has a
value that the type of the field gives. Null is not stored. -/
structure Stores (c : Category) (m : Mapping Value) : Prop where
  names_nodup : m.names.Nodup
  declared : ∀ name v, (name, v) ∈ m →
    v.isNull = false ∧ ∃ f ∈ c.fields, f.name = name ∧ f.type.Gives v

/-- A row as the store writes it for an entry of the category. -/
structure Describes (c : Category) (row : EntryRow) : Prop where
  category : row.categoryId = c.id
  quantity : ∃ n : Int, row.quantity = .int n ∧ 0 ≤ n ∧ n ≤ int64Max
  fields : ∃ m : Mapping Value, row.fields = .mapping m ∧ c.Stores m

/-- What a category describes, it describes with one more field. -/
theorem Describes.withField {c : Category} {row : EntryRow} (h : c.Describes row)
    (f : FieldDef) : (c.withField f).Describes row where
  category := h.category
  quantity := h.quantity
  fields := by
    obtain ⟨m, hm, hstores⟩ := h.fields
    refine ⟨m, hm, hstores.names_nodup, fun name v hmem => ?_⟩
    obtain ⟨hnull, g, hg, hgives⟩ := hstores.declared name v hmem
    exact ⟨hnull, g, List.mem_append_left _ hg, hgives⟩

/-- A value of a declared field that is well-typed or null. -/
def Declares (c : Category) (name : String) (v : Value) : Prop :=
  v.isNull ∨ ∃ f ∈ c.fields, f.name = name ∧ f.type.Gives v

theorem Stores.declares {c : Category} {m : Mapping Value} (h : c.Stores m) {name : String}
    {v : Value} (hmem : (name, v) ∈ m) : c.Declares name v :=
  .inr (h.declared name v hmem).2

/-- What remains of declared values when null is not stored. -/
theorem stores_stored {c : Category} {m : Mapping Value} (hnames : m.names.Nodup)
    (h : ∀ name v, (name, v) ∈ m → c.Declares name v) : c.Stores (Store.stored m) where
  names_nodup := Mapping.nodup_filter _ hnames
  declared := by
    intro name v hmem
    obtain ⟨hmem, hnull⟩ := List.mem_filter.1 hmem
    have hnull : v.isNull = false := by simpa using hnull
    refine ⟨hnull, ?_⟩
    rcases h name v hmem with hv | hv
    · exact absurd (hnull.symm.trans hv) (by decide)
    · exact hv

/-- Coerced updates are well-typed values of declared fields. -/
theorem declares_of_coerceUpdates {c : Category} (updates : Mapping Value) :
    ∀ done values, Store.coerceUpdates c done updates = .ok values →
      (∀ name v, (name, v) ∈ done → c.Declares name v) →
      ∀ name v, (name, v) ∈ values → c.Declares name v := by
  induction updates with
  | nil =>
      rintro done values ⟨⟩ hdone
      exact hdone
  | cons u rest ih =>
      intro done values h hdone
      obtain ⟨given, v⟩ := u
      unfold Store.coerceUpdates at h
      split at h
      · cases h
      · next f hf =>
          obtain ⟨w, hw, h⟩ := bind_eq_ok_iff.1 h
          refine ih _ _ h fun name v' hmem => ?_
          rcases Mapping.mem_insert hmem with ⟨rfl, rfl⟩ | hmem
          · exact .inr ⟨f, (mem_of_field? hf).1, rfl, v, FieldType.nameField_eq_ok_iff.1 hw⟩
          · exact hdone name v' hmem

/-- The values of the declared fields in field data. -/
def values (c : Category) (m : Mapping Value) : Mapping Value :=
  c.fields.map fun f => (f.name, (m.get? f.name).getD .null)

@[simp] theorem names_values (c : Category) (m : Mapping Value) :
    (c.values m).names = c.fieldNames := by
  simp [values, Mapping.names, fieldNames]

theorem Stores.values_declares {c : Category} {m : Mapping Value} (h : c.Stores m)
    {name : String} {v : Value} (hmem : (name, v) ∈ c.values m) : c.Declares name v := by
  obtain ⟨f, -, hpair⟩ := List.mem_map.1 hmem
  cases hpair
  cases hget : m.get? f.name with
  | none => exact .inl rfl
  | some w => exact h.declares (Mapping.mem_of_get? hget)

/-- Of two fields with one name there is only one. -/
theorem Canonical.field_unique {c : Category} (hc : c.Canonical) {f g : FieldDef}
    (hf : f ∈ c.fields) (hg : g ∈ c.fields) (h : f.name = g.name) : f = g :=
  List.inj_on_of_nodup_map hc.names_nodup hf hg h

theorem Canonical.field?_isSome {c : Category} (hc : c.Canonical) {f : FieldDef}
    (hf : f ∈ c.fields) : (c.field? f.name).isSome := by
  rw [field?_of_lower c (hc.names_lower f hf), List.find?_isSome]
  exact ⟨f, hf, by simp⟩

/-- What is stored of a new entry. A field that is not given a value starts as null, which is not
stored. -/
theorem Canonical.stores_unset {c : Category} (hc : c.Canonical) {updates values : Mapping Value}
    (h : Store.coerceUpdates c [] updates = .ok values) :
    c.Stores (Store.stored (Mapping.update (c.fieldNames.map (·, .null)) values)) := by
  refine stores_stored (Mapping.nodup_update values _ ?_) fun name v hmem => ?_
  · simpa [Mapping.names, Function.comp_def] using hc.names_nodup
  · rcases Mapping.mem_update values _ hmem with hmem | hmem
    · obtain ⟨field, -, hpair⟩ := List.mem_map.1 hmem
      cases hpair
      exact .inl rfl
    · exact declares_of_coerceUpdates updates [] values h (by simp) name v hmem

/-- What is stored of an entry after updates. -/
theorem Stores.update {c : Category} (hc : c.Canonical) {m : Mapping Value} (hm : c.Stores m)
    {updates values : Mapping Value} (h : Store.coerceUpdates c [] updates = .ok values) :
    c.Stores (Store.stored ((c.values m).update values)) := by
  refine stores_stored (Mapping.nodup_update values _ ?_) fun name v hmem => ?_
  · simpa using hc.names_nodup
  · rcases Mapping.mem_update values _ hmem with hmem | hmem
    · exact hm.values_declares hmem
    · exact declares_of_coerceUpdates updates [] values h (by simp) name v hmem

/-- What is stored for a field is accepted by its type. -/
theorem Stores.accepts {c : Category} (hc : c.Canonical) {m : Mapping Value} (h : c.Stores m)
    {f : FieldDef} (hf : f ∈ c.fields) : f.type.accepts ((m.get? f.name).getD .null) := by
  cases hget : m.get? f.name with
  | none => rfl
  | some v =>
      obtain ⟨-, g, hg, hname, hgives⟩ := h.declared _ _ (Mapping.mem_of_get? hget)
      rw [← hc.field_unique hg hf hname]
      exact hgives.accepts

end Category

namespace Record

theorem fieldValue_of_accepts {r : Record} {f : FieldDef}
    (h : f.type.accepts ((r.fields.get? f.name).getD .null)) :
    r.fieldValue f = .ok ((r.fields.get? f.name).getD .null) := by
  unfold fieldValue
  generalize (r.fields.get? f.name).getD .null = v at h
  dsimp only
  split
  · next n hreal =>
      -- a real field holds no whole number, so nothing is widened
      simp [FieldType.accepts, hreal] at h
  · rw [pure_bind, if_pos h]
    rfl

theorem fieldValues_of_accepts {r : Record} (fields : List FieldDef) :
    (∀ f ∈ fields, f.type.accepts ((r.fields.get? f.name).getD .null)) →
      r.fieldValues fields =
        .ok (fields.map fun f => (f.name, (r.fields.get? f.name).getD .null)) := by
  induction fields with
  | nil => exact fun _ => rfl
  | cons f rest ih =>
      intro h
      rw [fieldValues, fieldValue_of_accepts (h f (by simp)), ih fun g hg => h g (by simp [hg])]
      rfl

/-- A record with sound field data and quantity is loaded. -/
theorem load_of_stores {r : Record} {c : Category} (hc : c.Canonical) (h : c.Stores r.fields)
    {n : Int} (hr : r.quantity = .int n) (hn : 0 ≤ n) :
    r.load c = .ok ⟨r.key, c.id, r.location, .int n, c.values r.fields, some r.created,
      some r.modified⟩ := by
  have hdeclared : (r.fields.names.filter fun name => (c.field? name).isNone) = [] := by
    refine List.filter_eq_nil_iff.2 fun name hname => ?_
    obtain ⟨⟨_, v⟩, hmem, rfl⟩ := List.mem_map.1 hname
    obtain ⟨-, f, hf, hfname, -⟩ := h.declared _ _ hmem
    have hsome := hc.field?_isSome hf
    rw [hfname] at hsome
    simp [Option.isNone_iff_eq_none, Option.ne_none_iff_isSome.2 hsome]
  unfold load
  rw [hdeclared, fieldValues_of_accepts c.fields fun f hf => h.accepts hc hf]
  have hnonneg : ¬n < 0 := by omega
  simp only [hr, List.isEmpty_nil, Bool.not_true, Bool.false_eq_true, if_false, if_neg hnonneg]
  rfl

end Record

end Inventory
