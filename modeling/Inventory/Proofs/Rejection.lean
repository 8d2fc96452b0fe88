import Inventory.Proofs.Checks
import Inventory.Proofs.Decoding
import Inventory.Proofs.Frame
import Inventory.Proofs.Limits

/-!
# Values that are refused

A value that does not fit a field is refused as a mismatch of types, unless it is too large: a
whole number that is beyond the real ones, a numeral with too many digits to be read, or a whole
number with too many digits to be shown in the message. This is so for the types themselves, for
constraints, and for entries that are created or modified.
-/

namespace Inventory

open Database (Change)

variable {α β : Type}

/-! ## Faults of another kind -/

/-- A fault that callers who expect a mismatch of types do not catch. -/
def Escapes (r : Except Fault α) : Prop :=
  ∃ f, r = .error f ∧ f.kind ≠ .typeMismatch

@[simp] theorem escapes_ok (x : α) : ¬Escapes (.ok x : Except Fault α) :=
  not_failsAs_ok x

theorem escapes_error_iff (f : Fault) :
    Escapes (.error f : Except Fault α) ↔ f.kind ≠ .typeMismatch :=
  failsAs_error_iff f

theorem not_escapes_error {f : Fault} (hf : f.kind = .typeMismatch) :
    ¬Escapes (.error f : Except Fault α) :=
  fun h => (escapes_error_iff f).1 h hf

instance (r : Except Fault α) : Decidable (Escapes r) :=
  match r with
  | .ok x => isFalse (escapes_ok x)
  | .error f => decidable_of_iff _ (escapes_error_iff f).symm

@[simp] theorem escapes_map (r : Except Fault α) (g : α → β) :
    Escapes (r.map g) ↔ Escapes r :=
  failsAs_map r g

theorem escapes_bind (r : Except Fault α) (k : α → Except Fault β) :
    Escapes (r >>= k) ↔ Escapes r ∨ ∃ x, r = .ok x ∧ Escapes (k x) :=
  failsAs_bind r k

/-- Only a mismatch of types names its field. -/
@[simp] theorem escapes_nameField (field : String) (r : Except Fault Value) :
    Escapes (Constraint.nameField field r) ↔ Escapes r :=
  FieldType.failsAs_nameField (fun _ hkind hne => hne hkind) field r

/-- A check that finds mismatches of types only lets nothing through. -/
theorem Finds.not_escapes {r : Except Fault α} (h : Finds [.typeMismatch] r) : ¬Escapes r :=
  fun ⟨f, hf, hkind⟩ => hkind (List.mem_singleton.1 (h f hf).1)

/-- A mismatch that shows its value is one unless the value cannot be written. -/
theorem escapes_about {v : Value} {f : Fault} (hf : f.kind = .typeMismatch) :
    Escapes (.error (.about v f) : Except Fault α) ↔ ¬v.isWritable := by
  rw [escapes_error_iff, Fault.about]
  by_cases hv : v.isWritable
  · simp [hv, hf]
  · simp only [hv, Bool.false_eq_true, if_false, not_false_eq_true, iff_true]
    decide

/-! ## Single values -/

theorem Numeral.isWritable_of_inInt64 {n : Int} (h : inInt64 n) : isWritable n := by
  have hrange : int64Min ≤ n ∧ n ≤ int64Max := by simpa [inInt64] using h
  have hdigits : n.natAbs < 10 ^ 19 := by
    simp only [int64Min, int64Max] at hrange
    omega
  exact isWritable_iff.2 (hdigits.trans_le (Nat.pow_le_pow_right (by decide) (by decide)))

namespace FieldType

/-- What a type cannot refuse as a mismatch: for an integer a text with too many digits; for a real
number a whole one beyond the finite ones; and every value that is not taken, but holds a whole
number with too many digits to be shown. -/
def TooLarge (t : FieldType) : Value → Prop
  | .text s =>
    t = .integer ∧ isIntegerText (Text.trim s) ∧
      Numeral.digitLimit < (Numeral.signOf (Text.trim s).toList).2.length
  | .int n =>
    if t = .real then Binary64.leastBeyond ≤ n.natAbs else ¬Numeral.isWritable n
  | v => ¬v.isWritable

theorem escapes_checkRange (n : Int) : Escapes (checkRange n) ↔ ¬Numeral.isWritable n := by
  unfold checkRange
  by_cases hrange : inInt64 n
  · simp [hrange, Numeral.isWritable_of_inInt64 hrange]
  · rw [if_neg hrange, escapes_about rfl, Value.isWritable]

theorem escapes_parseInteger (raw : String) :
    Escapes (parseInteger raw) ↔ FieldType.integer.TooLarge (.text raw) := by
  simp only [parseInteger, TooLarge, true_and]
  by_cases htext : isIntegerText (Text.trim raw)
  · simp only [htext, Bool.not_true, Bool.false_eq_true, if_false, true_and]
    rcases Nat.lt_or_ge Numeral.digitLimit (Numeral.signOf (Text.trim raw).toList).2.length
      with hlong | hshort
    · rw [Numeral.read_of_long htext hlong]
      exact iff_of_true ⟨_, rfl, nofun⟩ hlong
    · obtain ⟨n, hn, hwritable⟩ := Numeral.read_of_short htext hshort
      rw [hn]
      exact iff_of_false (fun h => (escapes_checkRange n).1 h hwritable) (Nat.not_lt.2 hshort)
  · rw [if_pos (by simpa using htext)]
    exact iff_of_false (not_escapes_error rfl) fun h => htext h.1

/-- A text is not taken as a mismatch of types only if it writes an integer with too many digits. -/
theorem escapes_parse (t : FieldType) (raw : String) :
    Escapes (t.parse raw) ↔ t.TooLarge (.text raw) := by
  unfold parse
  by_cases hempty : raw = ""
  · subst hempty
    exact iff_of_false (escapes_ok _) fun h => absurd h.2.1 (by decide)
  · rw [if_neg hempty]
    cases t with
    | text =>
        rw [escapes_map]
        exact iff_of_false (finds_checkText raw _).not_escapes fun h => nomatch h.1
    | integer => rw [escapes_map, escapes_parseInteger]
    | real =>
        rw [escapes_map]
        exact iff_of_false (finds_parseReal raw).not_escapes fun h => nomatch h.1

theorem escapes_coerce (t : FieldType) (v : Value) : Escapes (t.coerce v) ↔ t.TooLarge v := by
  cases v with
  | null => exact iff_of_false (escapes_ok _) fun h => h rfl
  | bool b => exact iff_of_false (not_escapes_error rfl) fun h => h rfl
  | text s => exact escapes_parse t s
  | int n =>
      cases t with
      | text => exact escapes_about rfl
      | integer => exact (escapes_map ..).trans (escapes_checkRange n)
      | real =>
          have hbeyond := Binary64.ofInt?_eq_none_iff n
          simp only [coerce, TooLarge, if_true, ← hbeyond]
          cases hreal : Binary64.ofInt? n with
          | none => exact iff_of_true ⟨_, rfl, by rintro ⟨⟩⟩ rfl
          | some x => exact iff_of_false (escapes_ok _) (by rintro ⟨⟩)
  | real x =>
      cases t with
      | text => exact iff_of_false (not_escapes_error rfl) fun h => h rfl
      | integer => exact iff_of_false (not_escapes_error rfl) fun h => h rfl
      | real =>
          rw [coerce]
          split
          · exact iff_of_false (escapes_ok _) fun h => h rfl
          · exact iff_of_false (not_escapes_error rfl) fun h => h rfl
  | list items => exact escapes_about rfl
  | mapping items => exact escapes_about rfl

/-- A value that a type accepts can be written. -/
theorem isWritable_of_accepts {t : FieldType} {v : Value} (h : t.accepts v) : v.isWritable := by
  cases v with
  | int n =>
      simp only [accepts, Bool.and_eq_true] at h
      exact Numeral.isWritable_of_inInt64 h.2
  | list items => cases h
  | mapping items => cases h
  | _ => rfl

end FieldType

/-! ## Constraints -/

/-- Where the comparison can take the operand, a constraint is refused like its operand. -/
theorem Constraint.escapes_make {c : Category} {name : String} {comparison : Comparison}
    {operand : Value} {f : FieldDef} (hf : c.field? name = some f) (hfits : comparison.fits f.type)
    (hnull : f.type.coerce operand = .ok .null → comparison.takesNull) :
    Escapes (make c name comparison operand) ↔ f.type.TooLarge operand := by
  have htarget : target c name = .ok f := by simp [target, target?, hf]
  have hmake : make c name comparison operand = onField f comparison operand := by
    rw [make, htarget]
    rfl
  rw [hmake, onField, ← FieldType.escapes_coerce]
  simp only [hfits, Bool.not_true, Bool.false_eq_true, if_false]
  rw [escapes_bind, escapes_nameField, or_iff_left]
  rintro ⟨v, hv, hescapes⟩
  have hcoerce := FieldType.nameField_eq_ok_iff.1 hv
  have hallowed : (v.isNull && !comparison.takesNull) = false := by
    cases v with
    | null => simp [hnull hcoerce]
    | _ => rfl
  simp only [hallowed, Bool.false_eq_true, if_false] at hescapes
  exact escapes_ok _ hescapes

/-! ## Updates -/

namespace Category

variable {c : Category} {updates : Mapping Value}

/-- All updates are of declared fields. -/
def DeclaresAll (c : Category) (updates : Mapping Value) : Prop :=
  ∀ name ∈ updates.names, (c.field? name).isSome

instance (c : Category) (updates : Mapping Value) : Decidable (c.DeclaresAll updates) :=
  inferInstanceAs (Decidable (∀ name ∈ updates.names, (c.field? name).isSome))

/-- The first of the updates that cannot be coerced is too large for its field. -/
def TooLarge (c : Category) (updates : Mapping Value) : Prop :=
  ∃ before name v after f, updates = before ++ (name, v) :: after ∧ c.field? name = some f ∧
    f.type.TooLarge v ∧
    ∀ p ∈ before, ∀ g, c.field? p.1 = some g → ∃ w, g.type.coerce p.2 = .ok w

theorem not_tooLarge_nil : ¬c.TooLarge [] := by
  rintro ⟨before, name, v, after, f, heq, -⟩
  exact absurd heq.symm (List.append_ne_nil_of_right_ne_nil _ (List.cons_ne_nil _ _))

theorem tooLarge_cons_iff {name : String} {v : Value} {f : FieldDef} (hf : c.field? name = some f) :
    c.TooLarge ((name, v) :: updates) ↔
      f.type.TooLarge v ∨ (∃ w, f.type.coerce v = .ok w) ∧ c.TooLarge updates := by
  constructor
  · rintro ⟨before, name', v', after, g, heq, hg, hlarge, hbefore⟩
    cases before with
    | nil =>
        cases heq
        cases hf.symm.trans hg
        exact .inl hlarge
    | cons p before =>
        cases heq
        exact .inr ⟨hbefore _ (List.mem_cons_self ..) f hf, before, name', v', after, g, rfl, hg,
          hlarge, fun q hq => hbefore q (List.mem_cons_of_mem _ hq)⟩
  · rintro (hlarge | ⟨⟨w, hw⟩, before, name', v', after, g, rfl, hg, hlarge, hbefore⟩)
    · exact ⟨[], name, v, updates, f, rfl, hf, hlarge, nofun⟩
    · refine ⟨(name, v) :: before, name', v', after, g, rfl, hg, hlarge, fun q hq h hh => ?_⟩
      rcases List.mem_cons.1 hq with rfl | hq
      · cases hf.symm.trans hh
        exact ⟨w, hw⟩
      · exact hbefore q hq h hh

theorem escapes_coerceUpdates (items : Mapping Value) :
    ∀ done, c.DeclaresAll items →
      (Escapes (Store.coerceUpdates c done items) ↔ c.TooLarge items) := by
  induction items with
  | nil => exact fun done _ => iff_of_false (escapes_ok done) not_tooLarge_nil
  | cons item rest ih =>
      obtain ⟨name, v⟩ := item
      intro done hdeclared
      obtain ⟨f, hf⟩ := Option.isSome_iff_exists.1 (hdeclared name (List.mem_cons_self ..))
      have hrest : c.DeclaresAll rest := fun n hn => hdeclared n (List.mem_cons_of_mem _ hn)
      rw [tooLarge_cons_iff hf, ← FieldType.escapes_coerce, Store.coerceUpdates, hf]
      show Escapes (Constraint.nameField f.name (f.type.coerce v) >>= _) ↔ _
      simp only [escapes_bind, escapes_nameField, FieldType.nameField_eq_ok_iff, ih _ hrest,
        exists_and_right]

/-- What is stored of an entry can be written. -/
theorem Stores.checkFields {m : Mapping Value} (h : c.Stores m) :
    Database.checkFields m = .ok () := by
  refine if_pos ((Value.pairsWritable_iff m).2 fun p hp => ?_)
  obtain ⟨-, f, -, -, hgives⟩ := h.declared p.1 p.2 hp
  exact FieldType.isWritable_of_accepts hgives.accepts

/-- Names of declared fields are reserved neither as they are given nor in lower case. -/
theorem DeclaresAll.lowerNames (hnamed : c.Named) (h : c.DeclaresAll updates) :
    c.DeclaresAll (Store.lowerNames updates) ∧
      ∀ name ∈ (Store.lowerNames updates).names, name ∉ Name.reserved := by
  have hfield : ∀ name ∈ (Store.lowerNames updates).names, ∃ f ∈ c.fields, f.name = name := by
    intro name hname
    obtain ⟨⟨_, v⟩, hp, rfl⟩ := List.mem_map.1 hname
    have hget := Mapping.get?_of_mem (Store.nodup_lowerNames updates) hp
    rw [Store.get?_lowerNames] at hget
    obtain ⟨given, hgiven, hmem⟩ := Mapping.mem_of_lastNamed? hget
    obtain ⟨f, hf⟩ := Option.isSome_iff_exists.1 (h given (List.mem_map_of_mem hmem))
    obtain ⟨hf, hlower⟩ := mem_of_field? hf
    exact ⟨f, hf, hlower.trans hgiven⟩
  refine ⟨fun name hname => ?_, fun name hname => ?_⟩
  · obtain ⟨f, hf, rfl⟩ := hfield name hname
    rw [field?_of_lower c (hnamed f hf).lower, List.find?_isSome]
    exact ⟨f, hf, by simp⟩
  · obtain ⟨f, hf, rfl⟩ := hfield name hname
    exact (hnamed f hf).unreserved

end Category

/-! ## Entries -/

theorem Tables.quantityCell_of_range (parameter : Nat) {n : Int} (hn : 0 ≤ n)
    (hmax : n ≤ int64Max) :
    Database.quantityCell parameter (.int n) = .ok (.int n) := by
  have hmin : int64Min ≤ 0 := by decide
  have hrange : inInt64 n := by simp [inInt64, hmin.trans hn, hmax]
  have hbind : Cell.bind parameter (.int n) = .ok (some (.int n)) := if_pos hrange
  rw [Database.quantityCell, hbind]
  exact if_pos (by simpa [Cell.kept, Cell.isNonnegative] using hn)

/-- If what is written can be read back, a change is refused like what it would write. -/
theorem Effect.escapes_change {w : String → Database → Except Fault (β × Change)}
    {back : β → Database → Except Fault α} {now : String} {db : Database}
    (hback : ∀ x c, w now db = .ok (x, c) → ∃ y, back x c.db = .ok y) :
    Escapes (Effect.change w back now db).1 ↔ Escapes (w now db) := by
  rcases Effect.change_cases w back now db with ⟨f, hw, hchange⟩ | ⟨x, c, hw, hchange⟩
  · rw [hchange, hw, escapes_error_iff, escapes_error_iff]
  · obtain ⟨y, hy⟩ := hback x c hw
    rw [hchange, hw]
    exact iff_of_false (by rw [hy]; exact escapes_ok y) (escapes_ok _)

/-- Whether an entry can be inserted does not depend on its values, once they are coerced. -/
theorem Category.Canonical.exists_insertion {c : Category} (hc : c.Canonical)
    {fields values given : Mapping Value} (hvalues : Store.coerceUpdates c [] fields = .ok values)
    {key place now : String} {n : Int} {db : Database} {p : String × Change}
    (h : Tables.insertion c key place n given now db = .ok p) :
    ∃ p', Tables.insertion c key place n values now db = .ok p' := by
  simp only [Tables.insertion, Database.addEntry, refuse_eq_ok_iff, map_eq_ok_iff,
    bind_eq_ok_iff, guard_eq_ok_iff] at h ⊢
  obtain ⟨hfresh, -, ⟨-, -, cell, hcell, hkey, hcategory, -⟩, -⟩ := h
  exact ⟨_, hfresh, _, ⟨(), (hc.stores_unset hvalues).checkFields, cell, hcell, hkey, hcategory,
    rfl⟩, rfl⟩

/-- A described row can be updated with coerced values and a quantity in range. -/
theorem Category.Describes.exists_update {c : Category} {row : EntryRow} (hd : c.Describes row)
    (hc : c.Canonical) {updates values : Mapping Value}
    (hvalues : Store.coerceUpdates c [] updates = .ok values) {n : Int} (hlow : 0 ≤ n)
    (hhigh : n ≤ int64Max) (now key place : String) (db : Database) :
    ∃ change, Database.updateEntry now key place (.int n)
      (Store.stored ((c.entry row).fields.update values)) db = .ok change := by
  obtain ⟨m, hfields, hstores⟩ := hd.fields
  have hcheck : Database.checkFields (Store.stored ((c.entry row).fields.update values)) =
      .ok () := by
    rw [Category.entry, hfields]
    exact (hstores.update hc hvalues).checkFields
  simp only [Database.updateEntry, bind_eq_ok_iff]
  exact ⟨_, (), hcheck, _, Tables.quantityCell_of_range 2 hlow hhigh, rfl⟩

/-- Declared fields are updated alone: place and quantity stay what they are. -/
theorem Tables.modification_of_declaresAll {c : Category} {key : String} {e : Entry}
    {updates : Mapping Value} {db : Database} (he : find key db = .ok e)
    (hc : resolve e.category db = .ok c) (hnamed : c.Named) (hdeclared : c.DeclaresAll updates)
    (now : String) :
    modification key updates now db =
      Store.coerceUpdates c [] (Store.lowerNames updates) >>= fun values =>
        (Database.updateEntry now e.key e.location e.quantity
          (Store.stored (e.fields.update values)) db).map fun change => (change.rows, change) := by
  have habsent {name : String} (hname : name ∈ Name.reserved) :
      name ∉ (Store.lowerNames updates).names :=
    fun hmem => (hdeclared.lowerNames hnamed).2 name hmem hname
  have hmutable : Store.checkMutable key (Store.lowerNames updates) = .ok () := by
    have hreserved : ∀ name ∈ Store.immutable, name ∈ Name.reserved := by decide
    have hnone : Store.immutable.find? (Store.lowerNames updates).contains = none :=
      List.find?_eq_none.2 fun name hname => by
        simpa [Mapping.contains] using habsent (hreserved name hname)
    rw [Store.checkMutable, hnone]
  have hplace : Store.newLocation e (Store.lowerNames updates) = .ok e.location := by
    rw [Store.newLocation, Mapping.get?_eq_none (habsent (by decide))]
  have hquantity : Store.newQuantity e (Store.lowerNames updates) = .ok e.quantity := by
    rw [Store.newQuantity, Mapping.get?_eq_none (habsent (by decide))]
  have herase : ((Store.lowerNames updates).erase "location").erase "quantity" =
      Store.lowerNames updates := by
    have hne {name : String} (hname : name ∈ Name.reserved) :
        ∀ p ∈ Store.lowerNames updates, (p.1 != name) = true := fun p hp =>
      bne_iff_ne.2 fun heq => habsent hname (heq ▸ List.mem_map_of_mem hp)
    rw [Mapping.erase, Mapping.erase, List.filter_eq_self.2 (hne (by decide)),
      List.filter_eq_self.2 (hne (by decide))]
  simp only [modification, he, hc, hmutable, hplace, hquantity, herase, ok_bind]

namespace Sound

variable {cs : List Category} {db : Database} {c : Category}

/-- An entry that can be created without values is refused with them like the values. -/
theorem escapes_creation (h : Sound cs db) {id x now : String} {key location quantity : Value}
    {fields : Mapping Value} {change : Change} (hc : Tables.resolve id db = .ok c)
    (hempty : Tables.creation id key location quantity [] now db = .ok (x, change))
    (hdeclared : c.DeclaresAll fields) :
    Escapes (Tables.creation id key location quantity fields now db) ↔ c.TooLarge fields := by
  have hcanonical := h.canonical c (h.mem_of_resolve hc).1
  simp only [Tables.creation, bind_eq_ok_iff] at hempty
  obtain ⟨c', hc', key', hkey, place, hplace, n, hn, values, hvalues, hinsert⟩ := hempty
  cases hc.symm.trans hc'
  have hcreation : Tables.creation id key location quantity fields now db =
      Store.coerceUpdates c [] fields >>= fun values =>
        Tables.insertion c key' place n values now db := by
    rw [Tables.creation, hc, hkey, hplace, hn]
    rfl
  rw [hcreation, escapes_bind, Category.escapes_coerceUpdates fields [] hdeclared, or_iff_left]
  rintro ⟨values', hvalues', hescapes⟩
  -- the row differs in its field data only
  obtain ⟨p, hp⟩ := hcanonical.exists_insertion hvalues' hinsert
  rw [hp] at hescapes
  exact escapes_ok p hescapes

/-- An entry that is found is modified in declared fields unless their values are refused. -/
theorem escapes_modification (h : Sound cs db) {key now : String} {e : Entry}
    {updates : Mapping Value} (he : Tables.find key db = .ok e)
    (hc : Tables.resolve e.category db = .ok c) (hnamed : c.Named)
    (hdeclared : c.DeclaresAll updates) :
    Escapes (Tables.modification key updates now db) ↔
      c.TooLarge (Store.lowerNames updates) := by
  rw [Tables.modification_of_declaresAll he hc hnamed hdeclared, escapes_bind,
    Category.escapes_coerceUpdates _ [] (hdeclared.lowerNames hnamed).1, or_iff_left]
  rintro ⟨values, hvalues, hescapes⟩
  -- the row differs in its field data only
  obtain ⟨row, hrow, rfl, c', hc', hd, rfl⟩ := h.exists_of_find he
  cases (h.resolve_of_mem hc').symm.trans hc
  obtain ⟨n, hn, hnonneg, hmax⟩ := hd.quantity
  obtain ⟨change, hchange⟩ := hd.exists_update (h.canonical c hc') hvalues hnonneg hmax now
    (c.entry row).key (c.entry row).location db
  have hquantity : (c.entry row).quantity = .int n := by
    rw [Category.entry, hn]
    rfl
  rw [escapes_map, hquantity, hchange] at hescapes
  exact escapes_ok _ hescapes

end Sound

/-! ## Main result -/

/-- A type refuses a value as a mismatch of types unless the value is too large, and so do a
constraint whose comparison can take the operand, an entry that could be created without values,
and an entry that is modified. -/
theorem escapes_iff_tooLarge (m : Moment) :
    (∀ (t : FieldType) (v : Value), Escapes (t.coerce v) ↔ t.TooLarge v) ∧
    (∀ (t : FieldType) (raw : String), Escapes (t.parse raw) ↔ t.TooLarge (.text raw)) ∧
    (∀ (c : Category) (name : String) (comparison : Comparison) (operand : Value) (f : FieldDef),
      c.field? name = some f → comparison.fits f.type →
      (f.type.coerce operand = .ok .null → comparison.takesNull) →
      (Escapes (Constraint.make c name comparison operand) ↔ f.type.TooLarge operand)) ∧
    (∀ (id : String) (key location quantity : Value) (fields : Mapping Value) (c : Category)
      (e : Entry), ((Registry.resolve id).exec m.session).1 = .ok c →
      ((Store.create id key location quantity []).exec m.session).1 = .ok e →
      c.DeclaresAll fields →
      (Escapes ((Store.create id key location quantity fields).exec m.session).1 ↔
        c.TooLarge fields)) ∧
    ∀ (key : String) (updates : Mapping Value) (e : Entry) (c : Category),
      ((Store.find key).exec m.session).1 = .ok e →
      ((Registry.resolve e.category).exec m.session).1 = .ok c → c.DeclaresAll updates →
      (Escapes ((Store.modify key updates).exec m.session).1 ↔
        c.TooLarge (Store.lowerNames updates)) := by
  obtain ⟨v, hsees⟩ := m.sees
  have hsound := hsees.shows.sound
  refine ⟨FieldType.escapes_coerce, FieldType.escapes_parse, ?_, ?_, ?_⟩
  · intro c name comparison operand f hf hfits hnull
    exact Constraint.escapes_make hf hfits hnull
  · intro id key location quantity fields c e hc hempty hdeclared
    rw [hsees.resolve, ← hsees.shows.resolve_eq] at hc
    obtain ⟨_, hexec, -⟩ := Store.does_create id key location quantity [] m.session hsees.ready
    obtain ⟨_, hexec', -⟩ := Store.does_create id key location quantity fields m.session hsees.ready
    rw [hexec] at hempty
    obtain ⟨x, change, hcreation, -, -⟩ := Effect.change_ok hempty
    rw [hexec', Effect.escapes_change fun x change hop => hsound.find_creation hop]
    exact hsound.escapes_creation hc hcreation hdeclared
  · intro key updates e c he hc hdeclared
    rw [hsees.find, ← hsees.shows.find_eq] at he
    rw [hsees.resolve] at hc
    have hnamed := hsees.shows.named c (View.mem_of_resolve hc).1
    rw [← hsees.shows.resolve_eq] at hc
    obtain ⟨_, hexec, -⟩ := Store.does_modify key updates m.session hsees.ready
    rw [hexec, Effect.escapes_change fun x change hop => hsound.find_modification hop]
    exact hsound.escapes_modification he hc hnamed hdeclared

/-- A hammer is waiting to be weighed. -/
def unweighed : Moment where
  stamp := "2024-01-01 00:00:00"
  events := [⟨.first, "2024-01-01 00:00:01",
    .op (.define (.text "tools") [(.text "weight", .real)])
      (.op (.create "tools" (.text "hammer") (.text "shed") (.int 1) []) .done)⟩]
  turn := .first
  now := "2024-01-01 00:00:02"
  inScope := false
  script := .done

theorem hammer_weighed :
    let tools : Category := ⟨"tools", [⟨"weight", .real⟩]⟩
    ¬Escapes (Constraint.make tools "weight" .eq (.text "heavy")) ∧
      Escapes ((Store.create "tools" (.text "anvil") (.text "shop") (.int 1)
        [("weight", .int (10 ^ 200 * 10 ^ 200))]).exec unweighed.session).1 ∧
      Escapes ((Store.modify "hammer" [("Weight", .int (10 ^ 200 * 10 ^ 200))]).exec
        unweighed.session).1 := by
  intro tools
  obtain ⟨-, -, hmake, hcreate, hmodify⟩ := escapes_iff_tooLarge unweighed
  have hresolve : ((Registry.resolve "tools").exec unweighed.session).1 = .ok tools := rfl
  have hlarge : FieldType.real.TooLarge (.int (10 ^ 200 * 10 ^ 200)) := by
    show Binary64.leastBeyond ≤ _
    decide +kernel
  refine ⟨?_, ?_, ?_⟩
  · rw [hmake tools "weight" .eq (.text "heavy") ⟨"weight", .real⟩ rfl rfl fun _ => rfl]
    exact fun h => nomatch h.1
  · exact (hcreate "tools" (.text "anvil") (.text "shop") (.int 1) _ tools _ hresolve rfl
      (by decide)).2 ⟨[], "weight", _, [], ⟨"weight", .real⟩, rfl, rfl, hlarge, nofun⟩
  · exact (hmodify "hammer" _ _ tools rfl hresolve (by decide)).2
      ⟨[], "weight", _, [], ⟨"weight", .real⟩, rfl, rfl, hlarge, nofun⟩

/-- A weight beyond the real numbers is not refused as a mismatch of types. -/
theorem weight_beyond_reals :
    Escapes (FieldType.real.coerce (.int (10 ^ 200 * 10 ^ 200))) ∧
      Escapes ((Store.create "tools" (.text "anvil") (.text "shop") (.int 1)
        [("weight", .int (10 ^ 200 * 10 ^ 200))]).exec unweighed.session).1 := by
  decide +kernel

end Inventory
