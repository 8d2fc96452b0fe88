import Inventory.Proofs.Rejection
import Inventory.Proofs.Seen

/-!
# Updates that are taken

Whether an entry can be modified depends on its category and on the values alone. Each value is
checked by itself, of several items for one name only the last, and what the entry holds does not
count. An entry that can be created without values can be created with all that can be coerced.
-/

namespace Inventory

open Database (Change)

/-! ## Single values -/

namespace Category

variable {c : Category} {name : String} {v : Value} {updates : Mapping Value}

/-- The category has a field with the name, in any case, to whose type the value can be coerced. -/
def Coerces (c : Category) (name : String) (v : Value) : Prop :=
  ∃ f, c.field? name = some f ∧ ∃ w, f.type.coerce v = .ok w

/-- Entries of the category take the value under a name in lower case, which is that of the place,
of the quantity, or of a field. -/
def Takes (c : Category) (name : String) (v : Value) : Prop :=
  if name = "location" then ∃ place, Store.checkLocation v = .ok place
  else if name = "quantity" then
    ∃ w, FieldType.integer.coerce v = .ok w ∧ ∃ n, Store.checkQuantity w = .ok n
  else c.Coerces name v

/-- What the updates come to under each name is taken. -/
def Admits (c : Category) (updates : Mapping Value) : Prop :=
  ∀ name v, updates.lastNamed? name = some v → c.Takes name v

/-- A value that is coerced is that of a field, so its name is not reserved. -/
theorem Coerces.unreserved (h : c.Coerces name v) (hnamed : c.Named) :
    Text.lower name ∉ Name.reserved := by
  obtain ⟨f, hf, -⟩ := h
  obtain ⟨hmem, hname⟩ := mem_of_field? hf
  exact hname ▸ (hnamed f hmem).unreserved

/-- What never changes is not taken. -/
theorem Takes.mutable (h : c.Takes name v) (hnamed : c.Named) : name ∉ Store.immutable := by
  intro hmem
  have himmutable : ∀ name ∈ Store.immutable, name ≠ "location" ∧ name ≠ "quantity" ∧
      Text.lower name ∈ Name.reserved := by
    decide
  obtain ⟨hlocation, hquantity, hreserved⟩ := himmutable name hmem
  rw [Takes, if_neg hlocation, if_neg hquantity] at h
  exact h.unreserved hnamed hreserved

/-- Updates are coerced if each of them can be. -/
theorem coerceUpdates_ok_iff (items : Mapping Value) : ∀ done,
    (∃ values, Store.coerceUpdates c done items = .ok values) ↔
      ∀ p ∈ items, c.Coerces p.1 p.2 := by
  induction items with
  | nil => exact fun done => iff_of_true ⟨done, rfl⟩ nofun
  | cons item rest ih =>
      obtain ⟨name, v⟩ := item
      intro done
      rw [List.forall_mem_cons, Store.coerceUpdates, Coerces]
      cases hf : c.field? name with
      | none =>
          refine iff_of_false ?_ ?_
          · rintro ⟨values, h⟩
            cases h
          · rintro ⟨⟨f, h, -⟩, -⟩
            cases h
      | some f =>
          show (∃ values, (Constraint.nameField f.name (f.type.coerce v) >>= _) = .ok values) ↔ _
          simp only [bind_eq_ok_iff, FieldType.nameField_eq_ok_iff]
          constructor
          · rintro ⟨values, w, hw, hrest⟩
            exact ⟨⟨f, rfl, w, hw⟩, (ih _).1 ⟨values, hrest⟩⟩
          · rintro ⟨⟨g, hg, w, hw⟩, hrest⟩
            cases hg
            obtain ⟨values, hvalues⟩ := (ih (done.insert f.name w)).2 hrest
            exact ⟨values, w, hw, hvalues⟩

end Category

/-! ## Updates -/

namespace Store

variable {c : Category} {e : Entry} {updates : Mapping Value} {name : String} {v : Value}

/-- Updates in lower case are what they come to under each name. -/
theorem mem_lowerNames : (name, v) ∈ lowerNames updates ↔ updates.lastNamed? name = some v := by
  rw [← get?_lowerNames]
  exact ⟨Mapping.get?_of_mem (nodup_lowerNames updates), Mapping.mem_of_get?⟩

theorem checkMutable_of_admits (h : c.Admits updates) (hnamed : c.Named) (key : String) :
    checkMutable key (lowerNames updates) = .ok () := by
  have hnone : immutable.find? (lowerNames updates).contains = none := by
    refine List.find?_eq_none.2 fun name hname hcontains => ?_
    have hmem : name ∈ (lowerNames updates).names := by simpa [Mapping.contains] using hcontains
    obtain ⟨⟨_, v⟩, hp, rfl⟩ := List.mem_map.1 hmem
    exact (h _ v (mem_lowerNames.1 hp)).mutable hnamed hname
  rw [checkMutable, hnone]

theorem newLocation_ok_iff : (∃ place, newLocation e (lowerNames updates) = .ok place) ↔
    ∀ v, updates.lastNamed? "location" = some v → c.Takes "location" v := by
  rw [newLocation, get?_lowerNames]
  cases updates.lastNamed? "location" with
  | none => exact iff_of_true ⟨_, rfl⟩ fun _ hnone => by cases hnone
  | some v => simp [Category.Takes]

/-- A quantity that is taken is in range. -/
theorem newQuantity_ok_iff {q : Int} (hq : e.quantity = .int q) (hlow : 0 ≤ q)
    (hhigh : q ≤ int64Max) :
    (∃ n : Int, newQuantity e (lowerNames updates) = .ok (.int n) ∧ 0 ≤ n ∧ n ≤ int64Max) ↔
      ∀ v, updates.lastNamed? "quantity" = some v → c.Takes "quantity" v := by
  rw [newQuantity, get?_lowerNames]
  cases updates.lastNamed? "quantity" with
  | none => exact iff_of_true ⟨q, congrArg Except.ok hq, hlow, hhigh⟩ fun _ hnone => by cases hnone
  | some v =>
      simp only [Option.some.injEq, forall_eq', bind_eq_ok_iff]
      constructor
      · rintro ⟨n, ⟨w, hw, m, hm, -⟩, -⟩
        exact ⟨w, hw, m, hm⟩
      · rintro ⟨w, hw, m, hm⟩
        exact ⟨m, ⟨w, hw, m, hm, rfl⟩, (checkQuantity_ok hm).2⟩

/-- Beside place and quantity, fields are updated. -/
theorem fieldUpdates_ok_iff :
    (∃ values, coerceUpdates c []
      (((lowerNames updates).erase "location").erase "quantity") = .ok values) ↔
      ∀ name v, updates.lastNamed? name = some v → name ≠ "location" → name ≠ "quantity" →
        c.Takes name v := by
  rw [Category.coerceUpdates_ok_iff]
  constructor
  · intro h name v hv hlocation hquantity
    rw [Category.Takes, if_neg hlocation, if_neg hquantity]
    refine h (name, v) ?_
    simp only [Mapping.erase, List.mem_filter, bne_iff_ne]
    exact ⟨⟨mem_lowerNames.2 hv, hlocation⟩, hquantity⟩
  · rintro h ⟨name, v⟩ hp
    simp only [Mapping.erase, List.mem_filter, bne_iff_ne] at hp
    obtain ⟨⟨hmem, hlocation⟩, hquantity⟩ := hp
    have htakes := h name v (mem_lowerNames.1 hmem) hlocation hquantity
    rwa [Category.Takes, if_neg hlocation, if_neg hquantity] at htakes

end Store

/-! ## Tables -/

namespace Sound

variable {cs : List Category} {db : Database} {row : EntryRow} {c : Category}

/-- An entry is modified if and only if its category admits the updates. -/
theorem modification_ok_iff (h : Sound cs db) (hrow : row ∈ db.entries) (hc : c ∈ cs)
    (hd : c.Describes row) (hnamed : c.Named) (updates : Mapping Value) (now : String) :
    (∃ x, Tables.modification row.key updates now db = .ok x) ↔ c.Admits updates := by
  obtain ⟨q, hrowq, hlow, hhigh⟩ := hd.quantity
  have hq : (c.entry row).quantity = .int q := by
    rw [Category.entry, hrowq]
    rfl
  constructor
  · rintro ⟨⟨x, change⟩, hop⟩ name v hv
    obtain ⟨e, c', place, w, values, cell, he, hc', hplace, hw, hvalues, hcell, -⟩ :=
      Tables.modification_ok hop
    cases (h.find_of_mem hrow hc hd).symm.trans he
    cases (h.resolve_of_mem hc).symm.trans hc'
    obtain ⟨n, rfl⟩ := Tables.newQuantity_int hw hq
    by_cases hlocation : name = "location"
    · subst hlocation
      exact Store.newLocation_ok_iff.1 ⟨place, hplace⟩ v hv
    · by_cases hquantity : name = "quantity"
      · subst hquantity
        exact (Store.newQuantity_ok_iff hq hlow hhigh).1
          ⟨n, hw, (Tables.quantityCell_int hcell).2⟩ v hv
      · exact Store.fieldUpdates_ok_iff.1 ⟨values, hvalues⟩ name v hv hlocation hquantity
  · intro hadmits
    have hmutable := Store.checkMutable_of_admits hadmits hnamed row.key
    obtain ⟨place, hplace⟩ := (Store.newLocation_ok_iff (e := c.entry row)).2 (hadmits "location")
    obtain ⟨n, hn, hrange⟩ := (Store.newQuantity_ok_iff hq hlow hhigh).2 (hadmits "quantity")
    obtain ⟨values, hvalues⟩ := Store.fieldUpdates_ok_iff.2 fun name v hv _ _ => hadmits name v hv
    obtain ⟨change, hchange⟩ := hd.exists_update (h.canonical c hc) hvalues hrange.1 hrange.2 now
      row.key place db
    refine ⟨(change.rows, change), ?_⟩
    simp only [Tables.modification, bind_eq_ok_iff, map_eq_ok_iff]
    exact ⟨c.entry row, h.find_of_mem hrow hc hd, c, h.resolve_of_mem hc, (), hmutable, place,
      hplace, .int n, hn, values, hvalues, change, hchange, rfl⟩

/-- An entry is created with values if and only if it is without them and they can be coerced. -/
theorem creation_ok_iff (h : Sound cs db) {id : String} (hc : Tables.resolve id db = .ok c)
    (key location quantity : Value) (fields : Mapping Value) (now : String) :
    (∃ x, Tables.creation id key location quantity fields now db = .ok x) ↔
      (∃ x, Tables.creation id key location quantity [] now db = .ok x) ∧
        ∀ p ∈ fields, c.Coerces p.1 p.2 := by
  have hcanonical := h.canonical c (h.mem_of_resolve hc).1
  rw [← Category.coerceUpdates_ok_iff fields []]
  simp only [Tables.creation, bind_eq_ok_iff]
  constructor
  · rintro ⟨x, c', hc', key', hkey, place, hplace, n, hn, values, hvalues, hinsert⟩
    cases hc.symm.trans hc'
    have hnone : Store.coerceUpdates c [] [] = .ok [] := rfl
    obtain ⟨p, hp⟩ := hcanonical.exists_insertion hnone hinsert
    exact ⟨⟨p, c, hc, key', hkey, place, hplace, n, hn, [], rfl, hp⟩, values, hvalues⟩
  · rintro ⟨⟨x, c', hc', key', hkey, place, hplace, n, hn, given, -, hinsert⟩, values, hvalues⟩
    cases hc.symm.trans hc'
    obtain ⟨p, hp⟩ := hcanonical.exists_insertion hvalues hinsert
    exact ⟨p, c, hc, key', hkey, place, hplace, n, hn, values, hvalues, hp⟩

end Sound

/-! ## Sessions -/

namespace Session.Sees

variable {s : Session} {v : View} {c : Category}

theorem modify_ok_iff (h : s.Sees v) {key : String} {e : Entry} (he : v.find key = .ok e)
    (hc : v.resolve e.category = .ok c) (updates : Mapping Value) :
    (∃ e', ((Store.modify key updates).exec s).1 = .ok e') ↔ c.Admits updates := by
  obtain ⟨hmem, rfl⟩ := View.mem_of_find he
  obtain ⟨row, hrow, d, hd, hdescribes, rfl⟩ := h.shows.exists_row hmem
  obtain rfl : d = c := Except.ok.inj ((h.shows.resolve_of_mem hd).symm.trans hc)
  have hsound := h.shows.sound
  obtain ⟨_, hexec, -⟩ := Store.does_modify row.key updates s h.ready
  rw [← hsound.modification_ok_iff hrow hd hdescribes (h.shows.named d hd) updates s.now]
  show (∃ e', ((Store.modify row.key updates).exec s).1 = .ok e') ↔ _
  rw [hexec, Effect.change_ok_iff fun x change hop => hsound.find_modification hop]

theorem create_ok_iff (h : s.Sees v) {id : String} (hc : v.resolve id = .ok c)
    (key location quantity : Value) (fields : Mapping Value) :
    (∃ e, ((Store.create id key location quantity fields).exec s).1 = .ok e) ↔
      (∃ e, ((Store.create id key location quantity []).exec s).1 = .ok e) ∧
        ∀ p ∈ fields, c.Coerces p.1 p.2 := by
  have hsound := h.shows.sound
  obtain ⟨_, hexec, -⟩ := Store.does_create id key location quantity fields s h.ready
  obtain ⟨_, hempty, -⟩ := Store.does_create id key location quantity [] s h.ready
  rw [hexec, hempty, Effect.change_ok_iff fun x change hop => hsound.find_creation hop,
    Effect.change_ok_iff fun x change hop => hsound.find_creation hop]
  exact hsound.creation_ok_iff ((h.shows.resolve_eq id).trans hc) key location quantity fields s.now

end Session.Sees

end Inventory
