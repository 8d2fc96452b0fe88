import Inventory.Proofs.Atomicity
import Inventory.Proofs.View

/-!
# What operations make of the view

Each operation that succeeds changes what readers see in one way, and one that fails does not
change it. `View.Becomes` says for each operation what it requires and what it does; what whole
runs come to is read off from there.
-/

namespace Inventory

open Database (Change)
open Effect (change)

/-! ## Amounts -/

/-- The whole number that a value stands for, if it has at most 64 bits. -/
def Value.whole? (v : Value) : Option Int :=
  match FieldType.integer.coerce v with
  | .ok (.int n) => some n
  | _ => none

/-- The number that an operation is to add to the quantity of a key. Amounts to give or take are
whole numbers as they stand, and not negative. -/
def Operation.delta? (key : String) : Operation → Option Int
  | adjust other delta => if other = key then delta.whole? else none
  | give other (.int n) => if other = key ∧ 0 ≤ n ∧ n ≤ int64Max then some n else none
  | take other (.int n) => if other = key ∧ 0 ≤ n ∧ n ≤ int64Max then some (-n) else none
  | _ => none

/-- The operation only reads. -/
def Operation.IsReading : Operation → Prop
  | resolve _ | categories | stats | invalidate | find _ | list _ | nextKeys .. => True
  | _ => False

namespace Operation

/-- An operation adds to the quantity of one key only. -/
theorem delta?_of_ne {o : Operation} {key other : String} {d : Int} (h : o.delta? key = some d)
    (hne : other ≠ key) : o.delta? other = none := by
  unfold delta? at h
  split at h
  · refine if_neg fun hother => hne ?_
    split at h
    · exact hother.symm.trans ‹_›
    · cases h
  · refine if_neg fun hother => hne ?_
    split at h
    · next hkey => exact hother.1.symm.trans hkey.1
    · cases h
  · refine if_neg fun hother => hne ?_
    split at h
    · next hkey => exact hother.1.symm.trans hkey.1
    · cases h
  · cases h

theorem delta?_unique {o : Operation} {key other : String} {d d' : Int}
    (h : o.delta? key = some d) (h' : o.delta? other = some d') : other = key ∧ d' = d := by
  by_cases hkey : other = key
  · subst hkey
    cases h.symm.trans h'
    exact ⟨rfl, rfl⟩
  · cases (delta?_of_ne h hkey).symm.trans h'

theorem IsReading.delta? {o : Operation} (ho : o.IsReading) (key : String) :
    o.delta? key = none := by
  cases o with
  | resolve | categories | stats | invalidate | find | list | nextKeys => rfl
  | _ => exact ho.elim

end Operation

/-! ## Written entries -/

/-- The entry that is created from what is given. -/
structure Category.Creates (c : Category) (key location quantity : Value)
    (fields : Mapping Value) (now : String) (e : Entry) : Prop where
  key : key = .text e.key
  category : e.category = c.id
  location : location = .text e.location
  quantity : ∃ n : Int, quantity = .int n ∧ e.quantity = .int n ∧ 0 ≤ n ∧ n ≤ int64Max
  fields : c.Changes fields c.unset e.fields
  created : e.created = some now
  modified : e.modified = some now

/-- The entry that another becomes by updates. -/
structure Category.Modifies (c : Category) (updates : Mapping Value) (now : String)
    (e e' : Entry) : Prop where
  key : e'.key = e.key
  category : e'.category = e.category
  location : updates.Sets "location" (fun v => (Store.checkLocation v).map .text)
    (.text e.location) (.text e'.location)
  quantity : updates.Sets "quantity" FieldType.integer.coerce e.quantity e'.quantity
  fields : c.Changes updates e.fields e'.fields
  created : e'.created = e.created
  modified : e'.modified = some now

/-- An entry with another quantity. -/
def Entry.withQuantity (e : Entry) (n : Int) (now : String) : Entry :=
  { e with quantity := .int n, modified := some now }

/-! ## Transitions -/

/-- What becomes of the view by an operation that succeeds, and what is answered. -/
inductive View.Becomes (now : String) (v : View) : Operation → Answer → View → Prop
  | define {id : Value} {fields : List (Value × FieldType)} {c : Category}
      (hdefine : Category.define id fields = .ok c) (hnew : ∀ d ∈ v.categories, d.id ≠ c.id) :
      Becomes now v (.define id fields) (.category c)
        { v with categories := v.categories ++ [c] }
  | addField {id : String} {name : Value} {type : FieldType} {c : Category} {canonical : String}
      (hc : v.resolve id = .ok c) (hname : Name.checkField name = .ok canonical)
      (hnew : c.field? canonical = none) :
      Becomes now v (.addField id name type) (.category (c.withField ⟨canonical, type⟩))
        (v.withField c.id ⟨canonical, type⟩)
  | remove {id : String} {c : Category} (hc : v.resolve id = .ok c)
      (hempty : ∀ e ∈ v.entries, e.category ≠ c.id) :
      Becomes now v (.remove id) .done
        { v with categories := v.categories.filter (·.id != c.id) }
  | create {id : String} {key location quantity : Value} {fields : Mapping Value} {c : Category}
      {e : Entry} (hc : v.resolve id = .ok c) (hnew : ∀ other ∈ v.entries, other.key ≠ e.key)
      (he : c.Creates key location quantity fields now e) :
      Becomes now v (.create id key location quantity fields) (.entry e)
        { v with entries := v.entries ++ [e] }
  | modify {key : String} {updates : Mapping Value} {c : Category} {e e' : Entry}
      (he : v.find key = .ok e) (hc : v.resolve e.category = .ok c)
      (he' : c.Modifies updates now e e') :
      Becomes now v (.modify key updates) (.entry e') (v.replace e')
  | adjust {o : Operation} {key : String} {e : Entry} {n d : Int} (hd : o.delta? key = some d)
      (he : v.find key = .ok e) (hn : e.quantity = .int n) (hlow : 0 ≤ n + d)
      (hhigh : n + d ≤ int64Max) :
      Becomes now v o (.entry (e.withQuantity (n + d) now)) (v.replace (e.withQuantity (n + d) now))
  | delete {key : String} {e : Entry} (he : v.find key = .ok e) :
      Becomes now v (.delete key) .done { v with entries := v.entries.filter (·.key != key) }
  | read {o : Operation} {a : Answer} (ho : o.IsReading) : Becomes now v o a v

namespace Tables

/-- Only an entry that is there is deleted. -/
theorem deletion_hasKey {key now : String} {db : Database} {x : Unit} {change : Change}
    (h : deletion key now db = .ok (x, change)) :
    db.hasKey key ∧
      change = ⟨1, true, { db with entries := db.entries.filter (·.key != key) }⟩ := by
  refine ⟨?_, deletion_ok h⟩
  simp only [deletion, bind_eq_ok_iff, refuse_eq_ok_iff] at h
  obtain ⟨change, hdelete, hrows, -⟩ := h
  unfold Database.deleteEntry at hdelete
  split at hdelete
  · assumption
  · cases hdelete
    exact absurd rfl hrows

end Tables

namespace Database.Shows

variable {db : Database} {v : View} {now : String}

/-! ### Categories -/

theorem definition (h : db.Shows v) {id : Value} {fields : List (Value × FieldType)}
    {c : Category} {change : Change}
    (hop : Tables.definition id fields now db = .ok (c, change)) :
    ∃ v', change.db.Shows v' ∧ v.Becomes now (.define id fields) (.category c) v' := by
  obtain ⟨hdefine, ⟨cs, hcs, hnew⟩, hchange⟩ := Tables.definition_ok hop
  cases h.sound.categories_eq.symm.trans hcs
  have hsound := h.sound.definition hop
  refine ⟨{ v with categories := v.categories ++ [c] }, ⟨hsound, ?_, ?_⟩, .define hdefine hnew⟩
  · intro d hd
    rcases List.mem_append.1 hd with hd | hd
    · exact h.named d hd
    · rw [List.mem_singleton.1 hd]
      exact Category.define_named hdefine
  · rw [hchange, h.entries]
    refine List.map_congr_left fun row hrow => ?_
    obtain ⟨d, hd, hdescribes⟩ := h.sound.described row hrow
    rw [h.sound.entryOf_eq hd hdescribes.category,
      hsound.entryOf_eq (List.mem_append_left _ hd) hdescribes.category]

/-- A row that a category describes holds nothing for a name that is not a field. -/
theorem get?_of_field? {c : Category} {row : EntryRow} (hd : c.Describes row) {name : String}
    (hlower : Text.lower name = name) (hnew : c.field? name = none) :
    row.fields.items.get? name = none := by
  obtain ⟨m, hm, hstores⟩ := hd.fields
  cases hget : row.fields.items.get? name with
  | none => rfl
  | some x =>
      rw [hm, FieldData.items] at hget
      obtain ⟨-, f, hf, hname, -⟩ := hstores.declared _ _ (Mapping.mem_of_get? hget)
      rw [Category.field?_of_lower c hlower, List.find?_eq_none] at hnew
      exact absurd hname (by simpa using hnew f hf)

theorem entry_withField (c : Category) (f : FieldDef) (row : EntryRow) :
    (c.withField f).entry row = { c.entry row with
      fields := (c.entry row).fields ++ [(f.name, (row.fields.items.get? f.name).getD .null)] } := by
  simp only [Category.entry, Category.withField, Category.values, List.map_append, List.map_cons,
    List.map_nil]

theorem extension (h : db.Shows v) {id : String} {name : Value} {type : FieldType}
    {x : Category} {change : Change}
    (hop : Tables.extension id name type now db = .ok (x, change)) :
    ∃ v', change.db.Shows v' ∧ v.Becomes now (.addField id name type) (.category x) v' := by
  obtain ⟨c, canonical, hc, hname, hnew, rfl, rfl⟩ := Tables.extension_ok hop
  obtain ⟨hmem, -⟩ := h.sound.mem_of_resolve hc
  have hlower : Text.lower canonical = canonical := Name.lower_of_check hname
  have hsound := h.sound.extend hmem (f := ⟨canonical, type⟩) hlower hnew
  refine ⟨v.withField c.id ⟨canonical, type⟩, ⟨hsound, ?_, ?_⟩,
    .addField ((h.resolve_eq id).symm.trans hc) hname hnew⟩
  · intro d' hd'
    obtain ⟨d, hd, rfl⟩ := List.mem_map.1 hd'
    by_cases hid : d.id = c.id
    · rw [if_pos hid]
      exact (h.named d hd).withField ⟨name, hname⟩
    · rw [if_neg hid]
      exact h.named d hd
  · show (v.entries.map _) = db.entries.map _
    rw [h.entries, List.map_map]
    refine List.map_congr_left fun row hrow => ?_
    obtain ⟨d, hd, hdescribes⟩ := h.sound.described row hrow
    have hid : row.categoryId =
        (if d.id = c.id then d.withField ⟨canonical, type⟩ else d).id := by
      rw [hdescribes.category]
      split <;> rfl
    have hafter := hsound.entryOf_eq (List.mem_map_of_mem hd) hid
    refine Eq.trans ?_ hafter.symm
    rw [Function.comp_apply, entryOf_category, h.sound.entryOf_eq hd hdescribes.category,
      hdescribes.category]
    by_cases hsame : d.id = c.id
    · obtain rfl := h.sound.category_unique hd hmem hsame
      rw [if_pos rfl, if_pos rfl, entry_withField, get?_of_field? hdescribes hlower hnew]
      rfl
    · rw [if_neg hsame, if_neg hsame]

theorem removal (h : db.Shows v) {id : String} {x : Unit} {change : Change}
    (hop : Tables.removal id now db = .ok (x, change)) :
    ∃ v', change.db.Shows v' ∧ v.Becomes now (.remove id) .done v' := by
  obtain ⟨c, hc, hempty, hchange⟩ := Tables.removal_ok hop
  obtain ⟨hmem, -⟩ := h.sound.mem_of_resolve hc
  -- a category that readers see has a row
  have hrow : (db.category? c.id).isSome := by
    rw [Database.category?, h.sound.rows, List.find?_isSome]
    exact ⟨_, List.mem_map_of_mem hmem, by simp [Tables.rowOf]⟩
  have hnone : ∀ row ∈ db.entries, row.categoryId ≠ c.id := by
    intro row hrow
    simpa using List.filter_eq_nil_iff.1 hempty row hrow
  obtain rfl : change = ⟨1, true, { db with
      categories := db.categories.filter (·.id != c.id) }⟩ := by
    rcases hchange with ⟨hgone, -⟩ | hchange
    · rw [hgone] at hrow
      cases hrow
    · exact hchange
  have hsound := h.sound.remove hempty
  refine ⟨{ v with categories := v.categories.filter (·.id != c.id) },
    ⟨hsound, fun d hd => h.named d (List.mem_of_mem_filter hd), ?_⟩,
    .remove ((h.resolve_eq id).symm.trans hc) ?_⟩
  · show v.entries = db.entries.map _
    rw [h.entries]
    refine List.map_congr_left fun row hrow => ?_
    obtain ⟨d, hd, hdescribes⟩ := h.sound.described row hrow
    have hkept : d ∈ v.categories.filter (·.id != c.id) := by
      have hother := hnone row hrow
      rw [hdescribes.category] at hother
      exact List.mem_filter.2 ⟨hd, by simpa using hother⟩
    rw [h.sound.entryOf_eq hd hdescribes.category, hsound.entryOf_eq hkept hdescribes.category]
  · intro e he
    obtain ⟨row, hrow, d, -, hd, rfl⟩ := h.exists_row he
    exact fun hid => hnone row hrow (hd.category.trans hid)

/-! ### Entries -/

/-- A row in the place of the one with its key is an entry in the place of another. -/
theorem withRow (h : db.Shows v) {row : EntryRow} (hrow : row ∈ db.entries)
    {f : EntryRow → EntryRow} (hsound : Sound v.categories (db.withRow row.key f))
    (hkey : (f row).key = row.key) :
    (db.withRow row.key f).Shows (v.replace (entryOf v.categories (f row))) where
  sound := hsound
  named := h.named
  entries := by
    show v.entries.map _ = _
    rw [h.entries, Database.withRow, List.map_map, List.map_map]
    refine List.map_congr_left fun other hother => ?_
    rw [Function.comp_apply, Function.comp_apply, entryOf_key, entryOf_key, hkey]
    by_cases hsame : other.key = row.key
    · rw [if_pos hsame, if_pos hsame, h.sound.row_unique hrow hother hsame]
      rfl
    · rw [if_neg hsame, if_neg hsame]
      rfl

theorem creation (h : db.Shows v) {id : String} {key location quantity : Value}
    {fields : Mapping Value} {x : String} {change : Change}
    (hop : Tables.creation id key location quantity fields now db = .ok (x, change)) :
    ∃ e v', change.db.Shows v' ∧ v'.find x = .ok e ∧
      v.Becomes now (.create id key location quantity fields) (.entry e) v' := by
  have hsound := h.sound.creation hop
  obtain ⟨c, place, n, values, cell, hc, hkey, hplace, hn, hvalues, hcell, hfresh, rfl⟩ :=
    Tables.creation_ok hop
  obtain ⟨hmem, -⟩ := h.sound.mem_of_resolve hc
  obtain ⟨rfl, -⟩ := Tables.quantityCell_int hcell
  obtain ⟨rfl, hlow, hhigh⟩ := Store.checkQuantity_ok hn
  have hcanonical := h.sound.canonical c hmem
  let e := c.entry (c.newRow x place n values now)
  have he : entryOf v.categories (c.newRow x place n values now) = e :=
    h.sound.entryOf_eq hmem rfl
  have hshows : Database.Shows
      { db with entries := db.entries ++ [c.newRow x place n values now] }
      { v with entries := v.entries ++ [e] } :=
    ⟨hsound, h.named, by simp [h.entries, he]⟩
  refine ⟨e, _, hshows, hshows.find_of_mem (e := e) (by simp),
    .create ((h.resolve_eq id).symm.trans hc) ?_ ?_⟩
  · intro other hother hsame
    obtain ⟨row, hrow, d, -, -, rfl⟩ := h.exists_row hother
    have hne : row.key ≠ x := by simpa using List.any_eq_false.1 hfresh row hrow
    exact hne hsame
  · exact {
      key := Store.checkKey_ok hkey
      category := rfl
      location := Store.checkLocation_ok hplace
      quantity := ⟨n, rfl, rfl, hlow, hhigh⟩
      fields := hcanonical.changes_stored Category.names_unset (fun _ _ => rfl) hvalues
      created := rfl
      modified := rfl }

theorem modification (h : db.Shows v) {key : String} {updates : Mapping Value} {x : Nat}
    {change : Change} (hop : Tables.modification key updates now db = .ok (x, change)) :
    ∃ e v', change.db.Shows v' ∧ v'.find key = .ok e ∧
      v.Becomes now (.modify key updates) (.entry e) v' := by
  have hsound := h.sound.modification hop
  obtain ⟨row, hrow, rfl, c, hc, hd, place, n, values, hplace, hquantity, hvalues, hchange⟩ :=
    h.sound.modification_row hop
  rw [hchange] at hsound
  let e' := c.entry (c.updatedRow row place n values now)
  have he' : entryOf v.categories (c.updatedRow row place n values now) = e' :=
    h.sound.entryOf_eq hc hd.category
  have hshows := h.withRow hrow hsound rfl
  rw [he'] at hshows
  have hfind : v.find row.key = .ok (c.entry row) :=
    (h.find_eq row.key).symm.trans (h.sound.find_of_mem hrow hc hd)
  refine ⟨e', v.replace e', hchange ▸ hshows, ?_, .modify hfind (h.resolve_of_mem hc) ?_⟩
  · refine hshows.find_of_mem (e := e') ?_
    exact List.mem_map.2 ⟨c.entry row, (View.mem_of_find hfind).1, if_pos rfl⟩
  · exact {
      key := rfl
      category := rfl
      location := Store.newLocation_sets hplace
      quantity := Store.newQuantity_sets hquantity
      fields := (h.sound.canonical c hc).changes_stored (Category.names_values c _)
        (fun f hf => Store.lastNamed?_fieldUpdates updates (h.named c hc f hf)) hvalues
      created := rfl
      modified := rfl }

theorem sum (h : db.Shows v) {key : String} {d : Int} {change : Change}
    (hop : Tables.sum key d now db = .ok ((), change)) :
    ∃ e n, v.find key = .ok e ∧ e.quantity = .int n ∧ 0 ≤ n + d ∧ n + d ≤ int64Max ∧
      change.db.Shows (v.replace (e.withQuantity (n + d) now)) ∧
      Tables.find key change.db = .ok (e.withQuantity (n + d) now) := by
  have hsound := h.sound.sum hop
  obtain ⟨row, r, hentry, -, -, hd, -, -⟩ := Tables.sum_ok hop
  obtain ⟨hrow, rfl⟩ := Sound.mem_of_entry? hentry
  obtain ⟨c, hc, hdescribes⟩ := h.sound.described row hrow
  obtain ⟨n, hn, -, -⟩ := hdescribes.quantity
  have hfind : v.find row.key = .ok (c.entry row) :=
    (h.find_eq row.key).symm.trans (h.sound.find_of_mem hrow hc hdescribes)
  rcases h.sound.sum_eq hrow hn hd now with ⟨change', hok, hlow, hhigh, hdb⟩ | ⟨herror, -⟩ |
    ⟨herror, -⟩
  · cases hop.symm.trans hok
    rw [hdb] at hsound ⊢
    have hshows := h.withRow hrow hsound rfl
    have hentry : entryOf v.categories (row.withQuantity (n + d) now) =
        (c.entry row).withQuantity (n + d) now := h.sound.entryOf_eq hc hdescribes.category
    rw [hentry] at hshows
    have hquantity : (c.entry row).quantity = .int n := by
      rw [Category.entry, hn]
      rfl
    have hafter : (c.entry row).withQuantity (n + d) now ∈
        (v.replace ((c.entry row).withQuantity (n + d) now)).entries :=
      List.mem_map.2 ⟨c.entry row, (View.mem_of_find hfind).1, if_pos rfl⟩
    exact ⟨c.entry row, n, hfind, hquantity, hlow, hhigh, hshows,
      (hshows.find_eq row.key).trans (hshows.find_of_mem hafter)⟩
  · cases hop.symm.trans herror
  · cases hop.symm.trans herror

theorem deletion (h : db.Shows v) {key : String} {x : Unit} {change : Change}
    (hop : Tables.deletion key now db = .ok (x, change)) :
    ∃ v', change.db.Shows v' ∧ v.Becomes now (.delete key) .done v' := by
  have hsound := h.sound.deletion hop
  obtain ⟨hkey, rfl⟩ := Tables.deletion_hasKey hop
  obtain ⟨row, hrow, rfl⟩ : ∃ row ∈ db.entries, row.key = key := by
    simpa [Database.hasKey] using hkey
  obtain ⟨c, hc, hdescribes⟩ := h.sound.described row hrow
  refine ⟨{ v with entries := v.entries.filter (·.key != row.key) }, ⟨hsound, h.named, ?_⟩,
    .delete ((h.find_eq row.key).symm.trans (h.sound.find_of_mem hrow hc hdescribes))⟩
  show v.entries.filter _ = List.map _ (db.entries.filter _)
  rw [h.entries, List.filter_map]
  rfl

end Database.Shows

/-! ## Operations -/

theorem Store.checkDelta_eq_ok_iff {key : String} {v : Value} {d : Int} :
    checkDelta key v = .ok d ↔ v.whole? = some d := by
  simp only [checkDelta, Value.whole?, bind_eq_ok_iff]
  constructor
  · rintro ⟨w, hw, h⟩
    rw [hw]
    split at h
    · cases h
      rfl
    · cases h
  · intro h
    split at h
    · next n hn =>
        cases h
        exact ⟨_, hn, rfl⟩
    · cases h

theorem Value.inInt64_of_whole? {v : Value} {n : Int} (h : v.whole? = some n) : inInt64 n := by
  unfold whole? at h
  split at h
  · next hn =>
      cases h
      simpa [FieldType.accepts] using FieldType.accepts_of_coerce hn
  · cases h

theorem Value.whole?_int {n : Int} (h : inInt64 n) : (Value.int n).whole? = some n := by
  simp only [whole?, FieldType.coerce, checkRange, h, if_true, Except.map]

/-- An amount and its negative have at most 64 bits. -/
theorem inInt64_of_amount {n : Int} (hlow : 0 ≤ n) (hhigh : n ≤ int64Max) :
    inInt64 n ∧ inInt64 (-n) := by
  have hmin : int64Min = -0x8000000000000000 := rfl
  have hmax : int64Max = 0x7fffffffffffffff := rfl
  simp only [inInt64, Bool.and_eq_true, decide_eq_true_eq]
  omega

theorem Store.checkQuantity_int {n : Int} (hlow : 0 ≤ n) (hhigh : n ≤ int64Max) :
    checkQuantity (.int n) = .ok n := by
  simp only [checkQuantity, checkRange, (inInt64_of_amount hlow hhigh).1, if_true]
  show (if n < 0 then _ else _) = _
  rw [if_neg (by omega)]
  rfl

namespace Tables

theorem adjustment_eq_sum {key : String} {v : Value} {d : Int} (h : v.whole? = some d) :
    adjustment key v = sum key d := by
  funext now db
  rw [adjustment, Store.checkDelta_eq_ok_iff.2 h]
  rfl

theorem transfer_eq_sum (signed : Int → Int) {key : String} {n : Int} (hlow : 0 ≤ n)
    (hhigh : n ≤ int64Max) (hsigned : inInt64 (signed n)) :
    transfer signed key (.int n) = sum key (signed n) := by
  funext now db
  rw [transfer, Store.checkQuantity_int hlow hhigh]
  exact congrFun (congrFun (adjustment_eq_sum (Value.whole?_int hsigned)) now) db

end Tables

namespace Operation

/-- An operation that is to add to a quantity comes to the sum. -/
theorem effect_of_delta? {o : Operation} {key : String} {d : Int} (h : o.delta? key = some d) :
    inInt64 d ∧ o.effect = (change (Tables.sum key d) fun _ => Tables.find key).map .entry := by
  unfold delta? at h
  split at h
  · split at h
    · next hkey =>
        subst hkey
        exact ⟨Value.inInt64_of_whole? h, by rw [effect, Tables.adjustment_eq_sum h]⟩
    · cases h
  · split at h
    · next hrange =>
        obtain ⟨rfl, hlow, hhigh⟩ := hrange
        cases h
        have hd := (inInt64_of_amount hlow hhigh).1
        exact ⟨hd, by rw [effect, Tables.transfer_eq_sum id hlow hhigh hd]; rfl⟩
    · cases h
  · split at h
    · next hrange =>
        obtain ⟨rfl, hlow, hhigh⟩ := hrange
        cases h
        have hd := (inInt64_of_amount hlow hhigh).2
        exact ⟨hd, by rw [effect, Tables.transfer_eq_sum (- ·) hlow hhigh hd]⟩
    · cases h
  · cases h

/-- What succeeds in adding to a quantity was to add a number. -/
theorem becomes_of_delta? {o : Operation} {key : String} {d : Int} (hd : o.delta? key = some d)
    {now : String} {db : Database} {v : View} (h : db.Shows v) {a : Answer}
    (ha : (o.effect now db).1 = .ok a) :
    ∃ v', (o.effect now db).2.db.Shows v' ∧ v.Becomes now o a v' := by
  obtain ⟨-, heffect⟩ := effect_of_delta? hd
  rw [heffect] at ha ⊢
  obtain ⟨e', he', rfl⟩ := map_eq_ok_iff.1 ha
  obtain ⟨⟨⟩, c, hop, hback, hchange⟩ := Effect.change_ok he'
  obtain ⟨e, n, he, hn, hlow, hhigh, hshows, hfind⟩ := h.sum hop
  cases hback.symm.trans hfind
  refine ⟨_, ?_, .adjust hd he hn hlow hhigh⟩
  show Database.Shows (change _ _ _ _).2.db _
  rw [hchange]
  exact hshows

/-- What succeeds makes its change of the view. -/
theorem effect_becomes (o : Operation) {now : String} {db : Database} {v : View}
    (h : db.Shows v) {a : Answer} (ha : (o.effect now db).1 = .ok a) :
    ∃ v', (o.effect now db).2.db.Shows v' ∧ v.Becomes now o a v' := by
  cases o with
  | define id fields =>
      obtain ⟨c, hc, rfl⟩ := map_eq_ok_iff.1 ha
      obtain ⟨x, c, hop, hback, hchange⟩ := Effect.change_ok hc
      cases hback
      exact hchange ▸ h.definition hop
  | addField id name type =>
      obtain ⟨c, hc, rfl⟩ := map_eq_ok_iff.1 ha
      obtain ⟨x, c, hop, hback, hchange⟩ := Effect.change_ok hc
      cases hback
      exact hchange ▸ h.extension hop
  | remove id =>
      obtain ⟨c, hc, rfl⟩ := map_eq_ok_iff.1 ha
      obtain ⟨x, c, hop, -, hchange⟩ := Effect.change_ok hc
      exact hchange ▸ h.removal hop
  | create id key location quantity fields =>
      obtain ⟨e', he', rfl⟩ := map_eq_ok_iff.1 ha
      obtain ⟨x, c, hop, hback, hchange⟩ := Effect.change_ok he'
      obtain ⟨e, v', hshows, hfind, hbecomes⟩ := h.creation hop
      cases ((hshows.find_eq x).symm.trans hback).symm.trans hfind
      exact ⟨v', hchange ▸ hshows, hbecomes⟩
  | modify key updates =>
      obtain ⟨e', he', rfl⟩ := map_eq_ok_iff.1 ha
      obtain ⟨x, c, hop, hback, hchange⟩ := Effect.change_ok he'
      obtain ⟨e, v', hshows, hfind, hbecomes⟩ := h.modification hop
      cases ((hshows.find_eq key).symm.trans hback).symm.trans hfind
      exact ⟨v', hchange ▸ hshows, hbecomes⟩
  | adjust key delta =>
      obtain ⟨e', he', -⟩ := map_eq_ok_iff.1 ha
      obtain ⟨x, c, hop, -, -⟩ := Effect.change_ok he'
      obtain ⟨d, hd, -⟩ := Tables.adjustment_ok hop
      have hdelta : (adjust key delta).delta? key = some d :=
        (if_pos rfl).trans (Store.checkDelta_eq_ok_iff.1 hd)
      exact becomes_of_delta? hdelta h ha
  | give key amount =>
      obtain ⟨e', he', -⟩ := map_eq_ok_iff.1 ha
      obtain ⟨x, c, hop, -, -⟩ := Effect.change_ok he'
      obtain ⟨n, hn, -⟩ := Tables.transfer_ok hop
      obtain ⟨rfl, hlow, hhigh⟩ := Store.checkQuantity_ok hn
      have hd : (give key (.int n)).delta? key = some n := if_pos ⟨rfl, hlow, hhigh⟩
      exact becomes_of_delta? hd h ha
  | take key amount =>
      obtain ⟨e', he', -⟩ := map_eq_ok_iff.1 ha
      obtain ⟨x, c, hop, -, -⟩ := Effect.change_ok he'
      obtain ⟨n, hn, -⟩ := Tables.transfer_ok hop
      obtain ⟨rfl, hlow, hhigh⟩ := Store.checkQuantity_ok hn
      have hd : (take key (.int n)).delta? key = some (-n) := if_pos ⟨rfl, hlow, hhigh⟩
      exact becomes_of_delta? hd h ha
  | delete key =>
      obtain ⟨c, hc, rfl⟩ := map_eq_ok_iff.1 ha
      obtain ⟨x, c, hop, -, hchange⟩ := Effect.change_ok hc
      exact hchange ▸ h.deletion hop
  | resolve | categories | stats | invalidate | find | list | nextKeys =>
      exact ⟨v, h, .read trivial⟩

end Operation

end Inventory
