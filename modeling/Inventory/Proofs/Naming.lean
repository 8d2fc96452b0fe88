import Inventory.Proofs.Case
import Inventory.Proofs.Rows

/-!
# What updates name

Updates name fields in any case, and of several items for one name the last counts. A field that is
not named keeps its value. So it is for new entries, where all fields are null at first, and for
modified ones, although updates go through lower case, coercion, storage and loading in between.
-/

namespace Inventory

/-! ## Last items -/

namespace Mapping

variable {α : Type} {m other : Mapping α} {name : String}

/-- The value of the last item with a name, in any case. -/
def lastNamed? (m : Mapping α) (name : String) : Option α :=
  (m.filter (Text.lower ·.1 == name)).getLast?.map Prod.snd

theorem lastNamed?_eq_last? (m : Mapping α) (name : String) :
    m.lastNamed? name = last? (m.map fun p => (Text.lower p.1, p.2)) name := by
  rw [last?, List.filter_map, List.getLast?_map, Option.map_map]
  rfl

theorem lastNamed?_cons (p : String × α) (m : Mapping α) (name : String) :
    lastNamed? (p :: m) name =
      (m.lastNamed? name).or (if Text.lower p.1 = name then some p.2 else none) := by
  simp only [lastNamed?_eq_last?, List.map_cons, last?_cons]

/-- What is named was given. -/
theorem mem_of_lastNamed? {a : α} (h : m.lastNamed? name = some a) :
    ∃ given, Text.lower given = name ∧ (given, a) ∈ m := by
  obtain ⟨p, hp, rfl⟩ := Option.map_eq_some_iff.1 h
  obtain ⟨hmem, hname⟩ := List.mem_filter.1 (List.mem_of_getLast? hp)
  exact ⟨p.1, by simpa using hname, hmem⟩

/-- A name in lower case is the only one that means itself among names in lower case. -/
theorem lastNamed?_of_lowered {m : Mapping α} (hname : ∀ c ∈ name.toList, Text.isAscii c)
    (hlower : Text.lower name = name)
    (h : ∀ n ∈ m.names, ∃ given, n = Text.lower given) : m.lastNamed? name = m.last? name := by
  have hsame : ∀ p ∈ m, (Text.lower p.1 == name) = (p.1 == name) := by
    intro p hp
    obtain ⟨given, hgiven⟩ := h p.1 (List.mem_map_of_mem hp)
    rw [Bool.eq_iff_iff, beq_iff_eq, beq_iff_eq]
    constructor
    · intro heq
      rw [hgiven] at heq ⊢
      exact Text.lower_eq_of_lower_lower hname heq
    · rintro rfl
      exact hlower
  rw [lastNamed?, last?, List.filter_congr hsame]

end Mapping

/-! ## Checked names -/

/-- A name that a field can have: one that was checked. -/
def Name.IsField (name : String) : Prop :=
  ∃ given, Name.checkField given = .ok name

theorem Name.IsField.lower {name : String} (h : IsField name) : Text.lower name = name := by
  obtain ⟨given, hgiven⟩ := h
  exact lower_of_check hgiven

theorem Name.IsField.ascii {name : String} (h : IsField name) :
    ∀ c ∈ name.toList, Text.isAscii c := by
  obtain ⟨given, hgiven⟩ := h
  obtain ⟨s, -, hs, rfl⟩ := check_ok hgiven
  have hascii := ascii_of_isName hs
  intro c hc
  rw [Text.lower_of_ascii hascii, String.toList_ofList, List.mem_map] at hc
  obtain ⟨d, hd, rfl⟩ := hc
  exact Text.isAscii_toLower (hascii d hd)

theorem Name.IsField.unreserved {name : String} (h : IsField name) : name ∉ reserved := by
  obtain ⟨given, hgiven⟩ := h
  intro hmem
  unfold checkField check at hgiven
  split at hgiven
  · simp only [Bool.not_false, Bool.true_and, List.contains_iff_mem] at hgiven
    split at hgiven
    · cases hgiven
    · split at hgiven
      · cases hgiven
      · cases hgiven
        exact absurd hmem ‹_›
  · cases hgiven

/-- The fields have checked names. -/
def Category.Named (c : Category) : Prop :=
  ∀ f ∈ c.fields, Name.IsField f.name

namespace Category

theorem checkFields_named (id : String) (given : List (Value × FieldType)) :
    ∀ (seen : List String) (fields : List FieldDef), checkFields id seen given = .ok fields →
      ∀ f ∈ fields, Name.IsField f.name := by
  induction given with
  | nil =>
      rintro seen fields ⟨⟩
      exact fun _ h => nomatch h
  | cons g rest ih =>
      intro seen fields h
      simp only [checkFields, bind_eq_ok_iff, guard_eq_ok_iff] at h
      obtain ⟨canonical, hname, -, others, hrest, h⟩ := h
      cases h
      intro f hf
      rcases List.mem_cons.1 hf with rfl | hf
      · exact ⟨g.1, hname⟩
      · exact ih _ _ hrest f hf

theorem define_named {id : Value} {given : List (Value × FieldType)} {c : Category}
    (h : define id given = .ok c) : c.Named := by
  simp only [define, bind_eq_ok_iff, guard_eq_ok_iff] at h
  obtain ⟨-, canonical, -, fields, hfields, h⟩ := h
  cases h
  exact checkFields_named _ _ _ _ hfields

theorem Named.withField {c : Category} (h : c.Named) {f : FieldDef} (hf : Name.IsField f.name) :
    (c.withField f).Named := by
  intro g hg
  rcases List.mem_append.1 hg with hg | hg
  · exact h g hg
  · rw [List.mem_singleton.1 hg]
    exact hf

end Category

/-! ## Updated values -/

/-- A value after updates: what the last item that names it is coerced to, or else what it was. -/
def Mapping.Sets (updates : Mapping Value) (name : String)
    (coerce : Value → Except Fault Value) (old new : Value) : Prop :=
  match updates.lastNamed? name with
  | some given => coerce given = .ok new
  | none => new = old

/-- The fields of an entry after updates: those that are named hold what they were given, and the
others what they held. -/
structure Category.Changes (c : Category) (updates old new : Mapping Value) : Prop where
  names : new.names = c.fieldNames
  sets : ∀ f ∈ c.fields, ∃ before after, old.get? f.name = some before ∧
    new.get? f.name = some after ∧ updates.Sets f.name f.type.coerce before after

namespace Category

/-- The fields of an entry that nothing was given for. -/
def unset (c : Category) : Mapping Value :=
  c.fieldNames.map (·, .null)

variable {c : Category}

@[simp] theorem names_unset : c.unset.names = c.fieldNames := by
  simp [unset, Mapping.names, Function.comp_def]

theorem Canonical.get?_values (hc : c.Canonical) (m : Mapping Value) {f : FieldDef}
    (hf : f ∈ c.fields) : (c.values m).get? f.name = some ((m.get? f.name).getD .null) :=
  Mapping.get?_of_mem (by simpa using hc.names_nodup) (List.mem_map_of_mem hf)

/-- What is not stored reads as null, and so does null. -/
theorem getD_stored {m : Mapping Value} (hm : m.names.Nodup) (name : String) :
    ((Store.stored m).get? name).getD .null = (m.get? name).getD .null := by
  cases hget : (Store.stored m).get? name with
  | some v =>
      have hmem := List.mem_of_mem_filter (Mapping.mem_of_get? hget)
      rw [Mapping.get?_of_mem hm hmem]
  | none =>
      cases hfull : m.get? name with
      | none => rfl
      | some v =>
          cases hv : v.isNull with
          | true =>
              cases v <;> first | rfl | cases hv
          | false =>
              -- a value that is not null is stored
              have hmem : (name, v) ∈ Store.stored m :=
                List.mem_filter.2 ⟨Mapping.mem_of_get? hfull, by simp [hv]⟩
              have hsome := Mapping.get?_of_mem (Mapping.nodup_filter _ hm) hmem
              cases hget.symm.trans hsome

theorem nodup_coerceUpdates (items : Mapping Value) :
    ∀ done values, Store.coerceUpdates c done items = .ok values → done.names.Nodup →
      values.names.Nodup := by
  induction items with
  | nil =>
      rintro done values ⟨⟩ hdone
      exact hdone
  | cons item rest ih =>
      intro done values h hdone
      unfold Store.coerceUpdates at h
      split at h
      · cases h
      · obtain ⟨v, -, h⟩ := bind_eq_ok_iff.1 h
        exact ih _ _ h (Mapping.nodup_insert hdone)

/-- Coerced updates hold what the last item for a field is coerced to. -/
theorem Canonical.get?_coerceUpdates (hc : c.Canonical) {f : FieldDef} (hf : f ∈ c.fields)
    (items : Mapping Value) :
    ∀ done values, Store.coerceUpdates c done items = .ok values →
      match items.lastNamed? f.name with
      | some given => ∃ v, f.type.coerce given = .ok v ∧ values.get? f.name = some v
      | none => values.get? f.name = done.get? f.name := by
  induction items with
  | nil =>
      rintro done values ⟨⟩
      rfl
  | cons item rest ih =>
      obtain ⟨given, raw⟩ := item
      intro done values h
      unfold Store.coerceUpdates at h
      split at h
      · cases h
      · next g hg =>
          obtain ⟨v, hv, h⟩ := bind_eq_ok_iff.1 h
          have hrest := ih _ _ h
          obtain ⟨hmem, hname⟩ := mem_of_field? hg
          rw [Mapping.lastNamed?_cons]
          cases hlast : Mapping.lastNamed? rest f.name with
          | some w =>
              rw [hlast] at hrest
              exact hrest
          | none =>
              simp only [hlast, Mapping.get?_insert] at hrest
              by_cases hsame : Text.lower given = f.name
              · rw [if_pos (hname.trans hsame)] at hrest
                rw [if_pos hsame, Option.none_or]
                have hgf : g = f :=
                  hc.field_unique hmem hf (hname.trans hsame)
                exact ⟨v, hgf ▸ FieldType.nameField_eq_ok_iff.1 hv, hrest⟩
              · rw [if_neg fun h => hsame (hname.symm.trans h)] at hrest
                rw [if_neg hsame, Option.none_or]
                exact hrest

/-- Through storage and loading, the fields of an entry change as the updates say. -/
theorem Canonical.changes_stored (hc : c.Canonical) {updates items old values : Mapping Value}
    (hold : old.names = c.fieldNames)
    (hitems : ∀ f ∈ c.fields, items.lastNamed? f.name = updates.lastNamed? f.name)
    (hvalues : Store.coerceUpdates c [] items = .ok values) :
    c.Changes updates old (c.values (Store.stored (old.update values))) where
  names := names_values c _
  sets := by
    intro f hf
    have hnames : old.names.Nodup := hold ▸ hc.names_nodup
    have hmem : f.name ∈ old.names := hold ▸ List.mem_map_of_mem hf
    obtain ⟨⟨_, before⟩, hp, hpname⟩ := List.mem_map.1 hmem
    dsimp only at hpname
    subst hpname
    have hbefore := Mapping.get?_of_mem hnames hp
    have hcoerced := hc.get?_coerceUpdates hf items [] values hvalues
    have hnodup := nodup_coerceUpdates items [] values hvalues List.nodup_nil
    rw [hitems f hf] at hcoerced
    refine ⟨before, _, hbefore, hc.get?_values _ hf, ?_⟩
    rw [getD_stored (Mapping.nodup_update values old hnames), Mapping.get?_update,
      Mapping.last?_of_nodup hnodup, hbefore]
    unfold Mapping.Sets
    cases hlast : updates.lastNamed? f.name with
    | some given =>
        rw [hlast] at hcoerced
        obtain ⟨v, hv, hget⟩ := hcoerced
        rw [hget]
        exact hv
    | none =>
        rw [hlast] at hcoerced
        rw [hcoerced]
        rfl

end Category

/-! ## Updates in lower case -/

namespace Store

theorem names_lowerNames (updates : Mapping Value) :
    ∀ n ∈ (lowerNames updates).names, ∃ given, n = Text.lower given := by
  intro n hn
  obtain ⟨⟨_, v⟩, hp, rfl⟩ := List.mem_map.1 hn
  rcases Mapping.mem_update _ _ hp with hp | hp
  · cases hp
  · obtain ⟨item, -, hitem⟩ := List.mem_map.1 hp
    cases hitem
    exact ⟨item.1, rfl⟩

theorem nodup_lowerNames (updates : Mapping Value) : (lowerNames updates).names.Nodup :=
  Mapping.nodup_update _ [] List.nodup_nil

/-- Updates in lower case hold the last value for each name. -/
theorem get?_lowerNames (updates : Mapping Value) (name : String) :
    (lowerNames updates).get? name = updates.lastNamed? name := by
  rw [Mapping.lastNamed?_eq_last?]
  refine (Mapping.get?_update _ name []).trans ?_
  exact Option.or_none

theorem newLocation_sets {e : Entry} {updates : Mapping Value} {place : String}
    (h : newLocation e (lowerNames updates) = .ok place) :
    updates.Sets "location" (fun v => (checkLocation v).map .text) (.text e.location)
      (.text place) := by
  unfold newLocation at h
  rw [get?_lowerNames] at h
  cases hlast : updates.lastNamed? "location" with
  | some given =>
      rw [hlast] at h
      simp only [Mapping.Sets, hlast, map_eq_ok_iff]
      exact ⟨place, h, rfl⟩
  | none =>
      rw [hlast] at h
      cases h
      simp only [Mapping.Sets, hlast]

theorem newQuantity_sets {e : Entry} {updates : Mapping Value} {v : Value}
    (h : newQuantity e (lowerNames updates) = .ok v) :
    updates.Sets "quantity" FieldType.integer.coerce e.quantity v := by
  unfold newQuantity at h
  rw [get?_lowerNames] at h
  cases hlast : updates.lastNamed? "quantity" with
  | some given =>
      rw [hlast] at h
      obtain ⟨w, hw, h⟩ := bind_eq_ok_iff.1 h
      obtain ⟨n, hn, h⟩ := bind_eq_ok_iff.1 h
      cases h
      simp only [Mapping.Sets, hlast]
      rw [hw, (checkQuantity_ok hn).1]
  | none =>
      rw [hlast] at h
      cases h
      simp only [Mapping.Sets, hlast]

/-- What is taken for location and quantity is no field. -/
theorem lastNamed?_fieldUpdates (updates : Mapping Value) {name : String}
    (hname : Name.IsField name) :
    Mapping.lastNamed? (((lowerNames updates).erase "location").erase "quantity") name =
      updates.lastNamed? name := by
  have hlocation : name ≠ "location" := by
    rintro rfl
    exact hname.unreserved (by decide)
  have hquantity : name ≠ "quantity" := by
    rintro rfl
    exact hname.unreserved (by decide)
  have hsub : ∀ n ∈ Mapping.names (((lowerNames updates).erase "location").erase "quantity"),
      ∃ given, n = Text.lower given := by
    intro n hn
    obtain ⟨p, hp, rfl⟩ := List.mem_map.1 hn
    exact names_lowerNames updates _
      (List.mem_map_of_mem (List.mem_of_mem_filter (List.mem_of_mem_filter hp)))
  rw [Mapping.lastNamed?_of_lowered hname.ascii hname.lower hsub, Mapping.erase, Mapping.erase,
    Mapping.last?_of_nodup (Mapping.nodup_filter _ (Mapping.nodup_filter _
      (nodup_lowerNames updates))),
    Mapping.get?_filter fun _ => by simpa using hquantity,
    Mapping.get?_filter fun _ => by simpa using hlocation, get?_lowerNames]

end Store

end Inventory
