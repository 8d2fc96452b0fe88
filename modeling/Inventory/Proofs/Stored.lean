import Inventory.Proofs.Decoding
import Inventory.Proofs.WellTyped

/-!
# What is read of a stored row

A stored row is read in steps: its field data become a mapping, each declared field takes the value
that is stored under its name, and the quantity is checked. For each step there is one statement of
what it gives, one of the faults with which it ends, and together they say what is read of a row.
-/

namespace Inventory

/-! ## Records -/

namespace EntryRow

variable {row : EntryRow} {r : Record} {f : Fault}

theorem record_eq_ok_iff : row.record = .ok r ↔
    ∃ m, row.fields.value? = some (.mapping m) ∧
      r = ⟨row.key, row.categoryId, row.location, row.quantity, m, row.created, row.modified⟩ := by
  unfold record
  split
  · next hnone => simp [hnone]
  · next m hm =>
    rw [hm]
    constructor
    · rintro ⟨⟩
      exact ⟨m, rfl, rfl⟩
    · rintro ⟨m', hm', rfl⟩
      cases hm'
      rfl
  · next v hnot hv =>
    rw [hv]
    refine iff_of_false nofun ?_
    rintro ⟨m, hm, -⟩
    exact hnot m (Option.some.inj hm)

theorem kind_of_record_error (h : row.record = .error f) : f.kind = .corruptEntry := by
  unfold record at h
  split at h <;> cases h <;> rfl

end EntryRow

namespace FieldType

variable {t : FieldType} {v w : Value}

/-- What is read of a stored value: a value that is accepted is read as it is, and a whole number
under a real type as the nearest real one. -/
inductive Reads : FieldType → Value → Value → Prop
  | same {t : FieldType} {v : Value} (accepted : t.accepts v) : Reads t v v
  | widened {n : Int} {x : Binary64} (nearest : Binary64.ofInt? n = some x) :
      Reads .real (.int n) (.real x)

theorem Reads.accepts (h : t.Reads v w) : t.accepts w := by
  cases h with
  | same accepted => exact accepted
  | widened nearest => rfl

/-- What is accepted is read as it is. -/
theorem Reads.eq_of_accepts (h : t.Reads v w) (hv : t.accepts v) : w = v := by
  cases h with
  | same accepted => rfl
  | widened nearest => cases hv

/-- A whole number that some real number equals is read as such a number. -/
theorem Reads.toInt? {n : Int} {y : Binary64} (h : real.Reads (.int n) w) (hy : y.toInt? = some n) :
    ∃ x, w = .real x ∧ x.toInt? = some n := by
  cases h with
  | same accepted => cases accepted
  | widened nearest =>
      obtain ⟨x, hx, hn⟩ := Binary64.toInt?_ofInt? hy
      cases nearest.symm.trans hx
      exact ⟨_, rfl, hn⟩

end FieldType

/-- The value stored under a name; null if there is none. -/
def Mapping.valueAt (m : Mapping Value) (name : String) : Value :=
  (m.get? name).getD .null

/-- The field is real and holds a whole number that is beyond the real ones. -/
def FieldDef.Beyond (f : FieldDef) (m : Mapping Value) : Prop :=
  f.type = .real ∧ ∃ n, m.valueAt f.name = .int n ∧ Binary64.leastBeyond ≤ n.natAbs

namespace Record

variable {r : Record} {f : FieldDef} {v : Value} {fields : List FieldDef} {values : Mapping Value}

theorem fieldValue_eq (r : Record) (f : FieldDef) :
    r.fieldValue f =
      match f.type, r.fields.valueAt f.name with
      | .real, .int n =>
        match Binary64.ofInt? n with
        | some x => .ok (.real x)
        | none => .error .beyondReals
      | t, v =>
        if t.accepts v then .ok v else .error (.about v (.badStoredValue r.key f.name v t)) := by
  unfold fieldValue Mapping.valueAt
  generalize (r.fields.get? f.name).getD .null = v
  cases f.type <;> cases v <;> rfl

theorem fieldValue_eq_ok_iff :
    r.fieldValue f = .ok v ↔ f.type.Reads (r.fields.valueAt f.name) v := by
  rw [fieldValue_eq]
  split
  · next n htype hn =>
    rw [htype, hn]
    cases hx : Binary64.ofInt? n with
    | none =>
        refine iff_of_false nofun fun h => ?_
        cases h with
        | same accepted => cases accepted
        | widened nearest => cases hx.symm.trans nearest
    | some x =>
        constructor
        · rintro ⟨⟩
          exact .widened hx
        · intro h
          cases h with
          | same accepted => cases accepted
          | widened nearest => rw [Option.some.inj (hx.symm.trans nearest)]
  · next hnot =>
    constructor
    · intro h
      split at h
      · next haccepts =>
        cases h
        exact .same haccepts
      · cases h
    · intro h
      generalize htype : f.type = t at h
      generalize hstored : r.fields.valueAt f.name = w at h
      cases h with
      | same accepted => rw [if_pos accepted]
      | widened nearest => exact absurd hstored (hnot _ htype)

theorem fieldValue_beyond_iff : r.fieldValue f = .error .beyondReals ↔ f.Beyond r.fields := by
  rw [fieldValue_eq]
  split
  · next n htype hn =>
    have hbeyond := Binary64.ofInt?_eq_none_iff n
    constructor
    · intro h
      split at h
      · cases h
      · next hnone => exact ⟨htype, n, hn, hbeyond.1 hnone⟩
    · rintro ⟨-, m, hm, hlarge⟩
      cases hn.symm.trans hm
      rw [hbeyond.2 hlarge]
  · next hnot =>
    refine iff_of_false (fun h => ?_) ?_
    · split at h
      · cases h
      · unfold Fault.about at h
        split at h <;> cases h
    · rintro ⟨htype, n, hn, -⟩
      exact hnot n htype hn

theorem kind_of_fieldValue_error {e : Fault} (hwritable : (r.fields.valueAt f.name).isWritable)
    (h : r.fieldValue f = .error e) : e.kind = .corruptEntry ∨ e = .beyondReals := by
  rw [fieldValue_eq] at h
  split at h
  · split at h <;> cases h
    exact .inr rfl
  · split at h
    · cases h
    · rw [Fault.about, if_pos hwritable] at h
      cases h
      exact .inl rfl

/-! ## All values -/

theorem fieldValues_eq_mapM (r : Record) (fields : List FieldDef) :
    r.fieldValues fields = fields.mapM fun f => (r.fieldValue f).map (f.name, ·) := by
  induction fields with
  | nil => rfl
  | cons f rest ih =>
      rw [fieldValues, List.mapM_cons, ih]
      cases r.fieldValue f <;> rfl

theorem fieldValues_eq_ok_iff : r.fieldValues fields = .ok values ↔
    List.Forall₂ (fun f p => p.1 = f.name ∧ f.type.Reads (r.fields.valueAt f.name) p.2) fields
      values := by
  have hfield (f : FieldDef) (p : String × Value) : (r.fieldValue f).map (f.name, ·) = .ok p ↔
      p.1 = f.name ∧ f.type.Reads (r.fields.valueAt f.name) p.2 := by
    rw [map_eq_ok_iff]
    constructor
    · rintro ⟨v, hv, rfl⟩
      exact ⟨rfl, fieldValue_eq_ok_iff.1 hv⟩
    · rintro ⟨hname, hv⟩
      exact ⟨p.2, fieldValue_eq_ok_iff.2 hv, by rw [← hname]⟩
  rw [fieldValues_eq_mapM, mapM_eq_ok_iff]
  simp only [hfield]

/-- The first field that cannot be read decides. -/
theorem fieldValues_eq_error_iff {e : Fault} : r.fieldValues fields = .error e ↔
    ∃ before f after, fields = before ++ f :: after ∧ r.fieldValue f = .error e ∧
      ∀ g ∈ before, ∃ v, g.type.Reads (r.fields.valueAt g.name) v := by
  have hread (g : FieldDef) : (∃ p, (r.fieldValue g).map (g.name, ·) = .ok p) ↔
      ∃ v, g.type.Reads (r.fields.valueAt g.name) v := by
    simp [map_eq_ok_iff, fieldValue_eq_ok_iff]
  rw [fieldValues_eq_mapM, mapM_eq_error_iff]
  simp only [map_eq_error_iff, hread]

end Record

/-! ## Records as entries -/

/-- The stored names that are no declared ones in any case. -/
def Category.undeclared (c : Category) (m : Mapping Value) : List String :=
  m.names.filter fun name => (c.field? name).isNone

/-- The entry of a record with the values of its fields; its quantity must be a whole number. -/
def Record.entry (r : Record) (c : Category) (fields : Mapping Value) : Except Fault Entry :=
  match r.quantity with
  | .int n =>
    if n < 0 then .error (.badStoredQuantity r.key (.int n))
    else .ok ⟨r.key, c.id, r.location, .int n, fields, some r.created, some r.modified⟩
  | q => .error (.badStoredQuantity r.key q.toValue)

theorem Category.undeclared_eq_nil_iff {c : Category} {m : Mapping Value} :
    c.undeclared m = [] ↔ c.DeclaresAll m := by
  simp [undeclared, List.filter_eq_nil_iff, DeclaresAll, Option.isSome_iff_ne_none]

namespace Record

variable {r : Record} {c : Category} {e : Entry}

theorem load_of_declaresAll (h : c.DeclaresAll r.fields) :
    r.load c = r.fieldValues c.fields >>= r.entry c := by
  have hnone := Category.undeclared_eq_nil_iff.2 h
  unfold Category.undeclared at hnone
  unfold load
  rw [hnone]
  cases r.fieldValues c.fields with
  | error f => rfl
  | ok fields =>
      unfold entry
      simp only [ok_bind]
      cases r.quantity with
      | int n => by_cases hn : n < 0 <;> simp only [hn, if_true, if_false] <;> rfl
      | _ => rfl

theorem load_of_not_declaresAll (h : ¬c.DeclaresAll r.fields) :
    r.load c = .error (.undeclaredFields r.key c.id (c.undeclared r.fields)) := by
  have hsome := mt Category.undeclared_eq_nil_iff.1 h
  unfold Category.undeclared at hsome ⊢
  unfold load
  dsimp only
  rw [List.isEmpty_eq_false_iff.2 hsome]
  rfl

theorem entry_eq_ok_iff {fields : Mapping Value} : r.entry c fields = .ok e ↔
    ∃ n : Int, r.quantity = .int n ∧ 0 ≤ n ∧
      e = ⟨r.key, c.id, r.location, .int n, fields, some r.created, some r.modified⟩ := by
  unfold entry
  split
  · next n hn =>
    rw [refuse_eq_ok_iff, hn]
    constructor
    · rintro ⟨hnonneg, ⟨⟩⟩
      exact ⟨n, rfl, Int.not_lt.1 hnonneg, rfl⟩
    · rintro ⟨m, hm, hnonneg, rfl⟩
      cases hm
      exact ⟨Int.not_lt.2 hnonneg, rfl⟩
  · next q hnot =>
    refine iff_of_false nofun ?_
    rintro ⟨n, hn, -⟩
    exact hnot n hn

theorem kind_of_entry_error {fields : Mapping Value} {f : Fault} (h : r.entry c fields = .error f) :
    f.kind = .corruptEntry := by
  unfold entry at h
  split at h
  · split at h <;> cases h
    rfl
  · cases h
    rfl

theorem declaresAll_of_load (h : r.load c = .ok e) : c.DeclaresAll r.fields := by
  by_contra hnot
  cases (load_of_not_declaresAll hnot).symm.trans h

theorem fields_of_load (h : r.load c = .ok e) :
    List.Forall₂ (fun f p => p.1 = f.name ∧ f.type.Reads (r.fields.valueAt f.name) p.2) c.fields
      e.fields := by
  rw [load_of_declaresAll (declaresAll_of_load h), bind_eq_ok_iff] at h
  obtain ⟨fields, hfields, hentry⟩ := h
  obtain ⟨n, -, -, rfl⟩ := entry_eq_ok_iff.1 hentry
  exact fieldValues_eq_ok_iff.1 hfields

theorem category_of_load (h : r.load c = .ok e) : e.category = c.id := by
  rw [load_of_declaresAll (declaresAll_of_load h), bind_eq_ok_iff] at h
  obtain ⟨fields, -, hentry⟩ := h
  obtain ⟨n, -, -, rfl⟩ := entry_eq_ok_iff.1 hentry
  rfl

end Record

/-! ## Faults of reading -/

/-- Field data as a table can hold them: what was given as a value could be written. -/
def FieldData.Storable : FieldData → Prop
  | .mapping m => Value.pairsWritable m
  | .text _ => True

theorem FieldData.Storable.isWritable {d : FieldData} {v : Value} (h : d.Storable)
    (hv : d.value? = some v) : v.isWritable := by
  cases d with
  | mapping m =>
      cases hv
      exact h
  | text raw => exact Json.isWritable_read? hv

theorem Mapping.isWritable_valueAt {m : Mapping Value} (h : Value.pairsWritable m) (name : String) :
    (m.valueAt name).isWritable := by
  unfold valueAt
  cases hget : m.get? name with
  | none => rfl
  | some v => exact (Value.pairsWritable_iff m).1 h _ (mem_of_get? hget)

/-- A real field holds a whole number that is beyond the real ones, and all fields before it can be
read. -/
def Category.FirstBeyond (c : Category) (m : Mapping Value) : Prop :=
  ∃ before f after, c.fields = before ++ f :: after ∧ f.Beyond m ∧
    ∀ g ∈ before, ∃ v, g.type.Reads (m.valueAt g.name) v

namespace Record

variable {r : Record} {c : Category} {f : Fault}

theorem fieldValues_beyond_iff :
    r.fieldValues c.fields = .error .beyondReals ↔ c.FirstBeyond r.fields := by
  simp only [fieldValues_eq_error_iff, fieldValue_beyond_iff, Category.FirstBeyond]

theorem load_beyond_iff :
    r.load c = .error .beyondReals ↔ c.DeclaresAll r.fields ∧ c.FirstBeyond r.fields := by
  rw [← fieldValues_beyond_iff]
  by_cases hdeclared : c.DeclaresAll r.fields
  · rw [load_of_declaresAll hdeclared, and_iff_right hdeclared]
    cases r.fieldValues c.fields with
    | error g => exact ⟨fun h => by cases h; rfl, fun h => by cases h; rfl⟩
    | ok fields =>
        refine iff_of_false (fun h => ?_) nofun
        cases kind_of_entry_error h
  · rw [load_of_not_declaresAll hdeclared]
    exact iff_of_false nofun fun h => hdeclared h.1

theorem kind_of_load_error (hwritable : Value.pairsWritable r.fields)
    (h : r.load c = .error f) :
    f.kind = .corruptEntry ∨ f.kind = .schemaDrift ∨ f = .beyondReals := by
  by_cases hdeclared : c.DeclaresAll r.fields
  · rw [load_of_declaresAll hdeclared] at h
    cases hvalues : r.fieldValues c.fields with
    | error g =>
        rw [hvalues] at h
        cases h
        obtain ⟨before, d, after, -, hd, -⟩ := fieldValues_eq_error_iff.1 hvalues
        rcases kind_of_fieldValue_error (Mapping.isWritable_valueAt hwritable d.name) hd
          with hkind | hbeyond
        · exact .inl hkind
        · exact .inr (.inr hbeyond)
    | ok fields =>
        rw [hvalues] at h
        exact .inl (kind_of_entry_error h)
  · rw [load_of_not_declaresAll hdeclared] at h
    cases h
    exact .inr (.inl rfl)

end Record

/-! ## Names in another case -/

section Names

variable {P : FieldDef → Value → Prop} {fields : List FieldDef} {values : Mapping Value}

theorem names_of_forall₂
    (h : List.Forall₂ (fun f p => p.1 = f.name ∧ P f p.2) fields values) :
    values.names = fields.map (·.name) := by
  induction h with
  | nil => rfl
  | cons hp _ ih => exact congrArg₂ List.cons hp.1 ih

theorem get?_of_forall₂ {name : String}
    (h : List.Forall₂ (fun f p => p.1 = f.name ∧ P f p.2) fields values)
    (hname : name ∈ fields.map (·.name)) :
    ∃ f ∈ fields, f.name = name ∧ ∃ v, values.get? name = some v ∧ P f v := by
  induction h with
  | nil => cases hname
  | @cons f p rest others hp _ ih =>
      by_cases hf : f.name = name
      · exact ⟨f, List.mem_cons_self .., hf, p.2,
          by rw [Mapping.get?_cons, if_pos (hp.1.trans hf)], hp.2⟩
      · obtain ⟨g, hg, hgname, v, hv, hgv⟩ := ih (List.mem_of_ne_of_mem (Ne.symm hf) hname)
        refine ⟨g, List.mem_cons_of_mem _ hg, hgname, v, ?_, hgv⟩
        rw [Mapping.get?_cons, if_neg (hp.1 ▸ hf), hv]

end Names

/-- The part of field data whose names are declared exactly as they are written. -/
def Category.exactly (c : Category) (m : Mapping Value) : Mapping Value :=
  m.filter fun p => c.fieldNames.contains p.1

namespace Record

variable {r : Record} {c : Category} {e : Entry}

theorem fieldValues_congr {m : Mapping Value} (fields : List FieldDef)
    (h : ∀ f ∈ fields, m.valueAt f.name = r.fields.valueAt f.name) :
    ({ r with fields := m } : Record).fieldValues fields = r.fieldValues fields := by
  induction fields with
  | nil => rfl
  | cons f rest ih =>
      obtain ⟨hf, hrest⟩ := List.forall_mem_cons.1 h
      have hvalue : ({ r with fields := m } : Record).fieldValue f = r.fieldValue f := by
        rw [fieldValue_eq, fieldValue_eq, hf]
      rw [fieldValues, fieldValues, hvalue, ih hrest]

/-- Values under names that are not declared exactly do not count. -/
theorem load_exactly (h : c.DeclaresAll r.fields) :
    ({ r with fields := c.exactly r.fields } : Record).load c = r.load c := by
  have hdeclared : c.DeclaresAll (c.exactly r.fields) := fun name hname =>
    h name ((List.filter_sublist.map Prod.fst).subset hname)
  have hvalues : ∀ f ∈ c.fields, (c.exactly r.fields).valueAt f.name = r.fields.valueAt f.name := by
    intro f hf
    have hname : c.fieldNames.contains f.name :=
      List.contains_iff_mem.2 (List.mem_map_of_mem hf)
    rw [Mapping.valueAt, Category.exactly, Mapping.get?_filter (fun _ => hname), Mapping.valueAt]
  rw [load_of_declaresAll h, load_of_declaresAll hdeclared, fieldValues_congr c.fields hvalues]
  rfl

/-- How the field data of a record appear in an entry: all names are declared in some case, what is
stored under an exactly declared name is read, and what is stored under another name is dropped. -/
structure ReadAs (r : Record) (c : Category) (e : Entry) : Prop where
  category : e.category = c.id
  names : e.fields.names = c.fieldNames
  declared : c.DeclaresAll r.fields
  kept : ∀ name v, r.fields.get? name = some v → name ∈ c.fieldNames →
    ∃ f ∈ c.fields, f.name = name ∧ ∃ w, e.fields.get? name = some w ∧ f.type.Reads v w
  dropped : ({ r with fields := c.exactly r.fields } : Record).load c = .ok e

theorem readAs_of_load (h : r.load c = .ok e) : r.ReadAs c e where
  category := category_of_load h
  names := names_of_forall₂ (fields_of_load h)
  declared := declaresAll_of_load h
  kept := by
    intro name v hv hname
    obtain ⟨f, hf, hfname, w, hw, hreads⟩ := get?_of_forall₂ (fields_of_load h) hname
    refine ⟨f, hf, hfname, w, hw, ?_⟩
    rwa [Mapping.valueAt, hfname, hv, Option.getD_some] at hreads
  dropped := (load_exactly (declaresAll_of_load h)).trans h

/-- A record that stores just one value is loaded with it as it is exactly if the type accepts
it. -/
theorem load_single_iff {f : FieldDef} {v : Value} {n : Int} (hfields : r.fields = [(f.name, v)])
    (hquantity : r.quantity = .int n) (hn : 0 ≤ n) (hc : c.Canonical) (hf : f ∈ c.fields) :
    (∃ e, r.load c = .ok e ∧ e.fields.get? f.name = some v) ↔ f.type.accepts v := by
  have hvalue (g : FieldDef) : r.fields.valueAt g.name = if f.name = g.name then v else .null := by
    rw [hfields, Mapping.valueAt, Mapping.get?_cons]
    split <;> rfl
  -- whatever is loaded holds under the name what is read of the value
  have hreads {e : Entry} (hload : r.load c = .ok e) :
      ∃ w, e.fields.get? f.name = some w ∧ f.type.Reads v w := by
    obtain ⟨g, hg, hname, w, hw, hreads⟩ :=
      get?_of_forall₂ (fields_of_load hload) (List.mem_map_of_mem hf)
    obtain rfl := hc.field_unique hg hf hname
    rw [hvalue, if_pos rfl] at hreads
    exact ⟨w, hw, hreads⟩
  constructor
  · rintro ⟨e, hload, hget⟩
    obtain ⟨w, hw, hread⟩ := hreads hload
    cases hget.symm.trans hw
    exact hread.accepts
  · intro haccepts
    have hdeclared : c.DeclaresAll r.fields := by
      rw [hfields]
      exact List.forall_mem_singleton.2 (hc.field?_isSome hf)
    have hall : ∀ g ∈ c.fields, g.type.accepts (r.fields.valueAt g.name) := by
      intro g hg
      rw [hvalue]
      split
      · next hname =>
        obtain rfl := hc.field_unique hf hg hname
        exact haccepts
      · rfl
    have hload := load_of_declaresAll hdeclared
    rw [fieldValues_of_accepts c.fields hall, ok_bind,
      entry_eq_ok_iff.2 ⟨n, hquantity, hn, rfl⟩] at hload
    obtain ⟨w, hw, hread⟩ := hreads hload
    rw [hread.eq_of_accepts haccepts] at hw
    exact ⟨_, hload, hw⟩

/-! ### Lists of records -/

theorem loadAll_eq_mapM (c : Category) (records : List Record) :
    loadAll c records = records.mapM (·.load c) := by
  induction records with
  | nil => rfl
  | cons r rest ih =>
      rw [loadAll, List.mapM_cons, ih]

end Record

theorem Database.readRecords_eq_mapM (rows : List EntryRow) :
    readRecords rows = rows.mapM (·.record) := by
  induction rows with
  | nil => rfl
  | cons row rest ih =>
      rw [readRecords, List.mapM_cons, ih]

/-- The rows are read one after the other. -/
theorem Record.loadRows_eq_ok_iff {c : Category} {rows : List EntryRow} {es : List Entry} :
    (Database.readRecords rows >>= loadAll c) = .ok es ↔
      List.Forall₂ (fun row e => ∃ r, row.record = .ok r ∧ r.load c = .ok e) rows es := by
  rw [Database.readRecords_eq_mapM, funext (loadAll_eq_mapM c), mapM_bind_mapM_eq_ok_iff]

end Inventory
