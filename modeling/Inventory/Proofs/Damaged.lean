import Inventory.Proofs.Stored

/-!
# Rows that were changed by hand

Field data are checked again whenever a row is read, so that damage does not pass for an entry. The
check falls short of that in three ways: it looks at the kind of a value and not at its content, it
takes a name for a declared one in any case while values are looked up in exactly the declared case,
and it widens a whole number before it looks at its size.
-/

namespace Inventory

/-! ## Reading a row -/

/-- The result of an action in a session. -/
def Session.result {α : Type} (s : Session) (a : Action α) : Except Fault α :=
  (a.exec s).1

/-- The category under which the row with a key is read; a row whose category is gone is
damaged. -/
def Session.owner (s : Session) (key id : String) : Except Fault Category :=
  match s.result (Registry.resolve id) with
  | .ok c => .ok c
  | .error f => .error (if f.kind = .categoryNotFound then .missingCategory key id else f)

theorem Session.owner_eq_ok_iff {s : Session} {key id : String} {c : Category} :
    s.owner key id = .ok c ↔ s.result (Registry.resolve id) = .ok c := by
  unfold owner
  cases s.result (Registry.resolve id) <;> simp

namespace Registry

/-- To look up categories changes nothing but the cache. -/
theorem snd_exec_categories (s : Session) :
    ∃ cache, (categories.exec s).2 = { s with cache := cache } := by
  have hreload : ∃ cache, ((categories.reload s).exec s).2 = { s with cache := cache } := by
    rw [exec_reload]
    split
    · split
      · exact ⟨_, rfl⟩
      · exact ⟨s.cache, rfl⟩
    · exact ⟨s.cache, rfl⟩
  rw [exec_categories]
  split
  · split
    · exact ⟨s.cache, rfl⟩
    · exact hreload
  · exact hreload

theorem db_exec_categories (s : Session) : (categories.exec s).2.db = s.db := by
  obtain ⟨cache, hexec⟩ := snd_exec_categories s
  rw [hexec]

theorem db_exec_resolve (s : Session) (id : String) : ((resolve id).exec s).2.db = s.db := by
  have hcategories := db_exec_categories s
  rw [resolve, Action.exec_bind]
  rcases hexec : categories.exec s with ⟨f | cs, t⟩
  · rwa [hexec] at hcategories
  · rw [hexec] at hcategories
    dsimp only
    split <;> exact hcategories

end Registry

namespace Store

theorem result_category (s : Session) (key id : String) :
    s.result (find.category key id) = s.owner key id := by
  unfold Session.owner Session.result find.category
  rw [Action.exec_tryCatch]
  rcases (Registry.resolve id).exec s with ⟨_ | _, t⟩ <;> rfl

theorem result_find (s : Session) (key : String) :
    s.result (find key) =
      match s.db.entry? key with
      | none => .error (.entryNotFound key)
      | some row => row.record >>= fun r => s.owner key r.categoryId >>= r.load := by
  unfold Session.result find
  rw [Action.exec_bind, Action.exec_read, Database.record?]
  cases s.db.entry? key with
  | none => rfl
  | some row =>
      cases hrecord : row.record with
      | error f => simp only [hrecord]; rfl
      | ok r =>
          have hcategory := result_category s key r.categoryId
          simp only [Except.map, hrecord, Action.exec_bind, Action.exec_ofExcept]
          unfold Session.result at hcategory
          rw [ok_bind, ← hcategory]
          rcases (find.category key r.categoryId).exec s with ⟨_ | _, t⟩ <;> rfl

theorem result_list (s : Session) (id : String) :
    s.result (list id) = s.result (Registry.resolve id) >>= fun c =>
      Database.readRecords (s.db.entriesOf c.id) >>= Record.loadAll c := by
  have hdb := Registry.db_exec_resolve s id
  unfold Session.result list
  rw [Action.exec_bind]
  rcases hexec : (Registry.resolve id).exec s with ⟨f | c, t⟩
  · rfl
  · rw [hexec] at hdb
    dsimp only at hdb ⊢
    rw [Action.exec_bind, Action.exec_read, hdb, ok_bind]
    cases Database.readRecords (s.db.entriesOf c.id) with
    | error f => rfl
    | ok records => exact congrArg Prod.fst (Action.exec_ofExcept _ t)

variable {s : Session} {key : String}

theorem result_find_eq_ok_iff {e : Entry} : s.result (find key) = .ok e ↔
    ∃ row r c, s.db.entry? key = some row ∧ row.record = .ok r ∧
      s.owner key r.categoryId = .ok c ∧ r.load c = .ok e := by
  rw [result_find]
  cases s.db.entry? key with
  | none => simp
  | some row => simp [bind_eq_ok_iff]

theorem result_find_of_owner {row : EntryRow} {r : Record} {c : Category}
    (hrow : s.db.entry? key = some row) (hr : row.record = .ok r)
    (hc : s.owner key r.categoryId = .ok c) : s.result (find key) = r.load c := by
  rw [result_find, hrow]
  dsimp only
  rw [hr, ok_bind, hc, ok_bind]

theorem key_of_record {row : EntryRow} {r : Record} (hrow : s.db.entry? key = some row)
    (hr : row.record = .ok r) : r.key = key := by
  obtain ⟨m, -, rfl⟩ := EntryRow.record_eq_ok_iff.1 hr
  simpa using List.find?_some hrow

theorem reads_of_list {id : String} {es : List Entry} (h : s.result (list id) = .ok es) :
    ∃ c, s.result (Registry.resolve id) = .ok c ∧
      List.Forall₂ (fun row e => ∃ r, row.record = .ok r ∧ r.load c = .ok e) (s.db.entriesOf c.id)
        es := by
  rw [result_list, bind_eq_ok_iff] at h
  obtain ⟨c, hc, h⟩ := h
  exact ⟨c, hc, Record.loadRows_eq_ok_iff.1 h⟩

/-! ### A row that was written by hand -/

/-- A hammer among tools that have a size of some type; its field data were written by hand. -/
def holding (t : FieldType) (raw : String) : Session :=
  .fresh
    { Database.empty with
      categories := [⟨"tools", [("size", t.code)]⟩]
      entries := [⟨"hammer", "tools", "shed", .int 1, .text raw, "2024-01-01 00:00:01",
        "2024-01-01 00:00:01"⟩] }
    "2024-01-01 00:00:02"

def tools (t : FieldType) : Category :=
  ⟨"tools", [⟨"size", t⟩]⟩

def hammerRow (raw : String) : EntryRow :=
  ⟨"hammer", "tools", "shed", .int 1, .text raw, "2024-01-01 00:00:01", "2024-01-01 00:00:01"⟩

def hammerRecord (m : Mapping Value) : Record :=
  ⟨"hammer", "tools", "shed", .int 1, m, "2024-01-01 00:00:01", "2024-01-01 00:00:01"⟩

def hammer (size : Value) : Entry :=
  ⟨"hammer", "tools", "shed", .int 1, [("size", size)], some "2024-01-01 00:00:01",
    some "2024-01-01 00:00:01"⟩

section Hammer

variable {t : FieldType} {raw : String} {m : Mapping Value}

theorem entry?_holding (t : FieldType) (raw : String) :
    (holding t raw).db.entry? "hammer" = some (hammerRow raw) :=
  rfl

theorem result_resolve_holding (t : FieldType) (raw : String) :
    (holding t raw).result (Registry.resolve "tools") = .ok (tools t) := by
  cases t <;> rfl

theorem resolve_holding (t : FieldType) (raw : String) (f : Fault)
    (h : (holding t raw).result (Registry.resolve "tools") = .error f) :
    f.kind = .categoryNotFound := by
  cases (result_resolve_holding t raw).symm.trans h

theorem declaresAll_size (t : FieldType) (v : Value) : (tools t).DeclaresAll [("size", v)] := by
  have hdeclared : ((tools t).field? "size").isSome := by
    cases t <;> decide +kernel
  exact List.forall_mem_singleton.2 hdeclared

theorem hammerRow_value? (h : Json.read? raw = some (.mapping m)) :
    (hammerRow raw).fields.value? = some (.mapping m) :=
  h

theorem hammerRow_record (h : Json.read? raw = some (.mapping m)) :
    (hammerRow raw).record = .ok (hammerRecord m) :=
  EntryRow.record_eq_ok_iff.2 ⟨m, hammerRow_value? h, rfl⟩

theorem find_holding (h : Json.read? raw = some (.mapping m)) :
    (holding t raw).result (find "hammer") = (hammerRecord m).load (tools t) :=
  result_find_of_owner (entry?_holding t raw) (hammerRow_record h)
    (Session.owner_eq_ok_iff.2 (result_resolve_holding t raw))

theorem records_holding (h : Json.read? raw = some (.mapping m)) :
    Database.readRecords ((holding t raw).db.entriesOf "tools") = .ok [hammerRecord m] := by
  show Database.readRecords [hammerRow raw] = _
  rw [Database.readRecords, hammerRow_record h]
  rfl

theorem list_holding (h : Json.read? raw = some (.mapping m)) :
    (holding t raw).result (list "tools") = Record.loadAll (tools t) [hammerRecord m] := by
  rw [result_list, result_resolve_holding, ok_bind]
  exact congrArg (· >>= Record.loadAll (tools t)) (records_holding h)

end Hammer

/-! ### Values that are not well-typed -/

/-- What a type accepts are the values that it coerces to themselves and those that it overlooks,
and no value is both. Entries are found with such values only, and with each of them if a row stores
just that value. The values that satisfy a constraint with an operand are such values too. -/
theorem accepts_iff_coerces_or_overlooks (t : FieldType) (v : Value) (s : Session) :
    (t.accepts v ↔ t.coerce v = .ok v ∨ t.Overlooks v) ∧
    ¬(t.coerce v = .ok v ∧ t.Overlooks v) ∧
    (∀ key e, s.result (find key) = .ok e →
      ∃ row c, s.db.entry? key = some row ∧ s.owner key row.categoryId = .ok c ∧
        List.Forall₂ (fun f p => p.1 = f.name ∧
          (f.type.coerce p.2 = .ok p.2 ∨ f.type.Overlooks p.2)) c.fields e.fields) ∧
    (∀ key row c name (n : Int), s.db.entry? key = some row →
      row.fields.value? = some (.mapping [(name, v)]) → row.quantity = .int n → 0 ≤ n →
      s.owner key row.categoryId = .ok c → c.Canonical → ⟨name, t⟩ ∈ c.fields →
        ((∃ e, s.result (find key) = .ok e ∧ e.fields.get? name = some v) ↔
          t.coerce v = .ok v ∨ t.Overlooks v)) ∧
    (∀ (k : Constraint) e, k.operand.isNull = false → k.holds e →
      k.field.type.coerce (e.value k.field.name) = .ok (e.value k.field.name) ∨
        k.field.type.Overlooks (e.value k.field.name)) := by
  have haccepts (t : FieldType) (v : Value) :
      t.accepts v ↔ t.coerce v = .ok v ∨ t.Overlooks v := by
    rw [FieldType.coerce_eq_self_iff, FieldType.accepts_iff]
  refine ⟨haccepts t v, ?apart, ?found, ?stored, ?compared⟩
  case apart =>
    rintro ⟨hcoerce, hoverlooks⟩
    exact hoverlooks.not_wellTyped (FieldType.coerce_eq_self_iff.1 hcoerce)
  case found =>
    intro key e h
    obtain ⟨row, r, c, hrow, hr, hc, hload⟩ := result_find_eq_ok_iff.1 h
    obtain ⟨m, -, rfl⟩ := EntryRow.record_eq_ok_iff.1 hr
    exact ⟨row, c, hrow, hc, (Record.fields_of_load hload).imp fun f p ⟨hname, hreads⟩ =>
      ⟨hname, (haccepts f.type p.2).1 hreads.accepts⟩⟩
  case stored =>
    intro key row c name n hrow hdata hquantity hn howner hc hf
    have hrecord : row.record = .ok _ := EntryRow.record_eq_ok_iff.2 ⟨_, hdata, rfl⟩
    rw [← haccepts, result_find_of_owner hrow hrecord howner]
    exact Record.load_single_iff rfl hquantity hn hc hf
  case compared =>
    intro k e hnull hholds
    rw [← haccepts]
    simp only [Constraint.holds, hnull, Bool.false_eq_true, if_false, Bool.and_eq_true] at hholds
    exact hholds.1.2

/-- A size that is not a number. -/
def nanSize : String :=
  "\x7b\"size\": NaN\x7d"

theorem read_nanSize : Json.read? nanSize = some (.mapping [("size", .real .nan)]) := by
  cbv

theorem find_nanSize : (holding .real nanSize).result (find "hammer") = .ok (hammer (.real .nan)) :=
  (find_holding read_nanSize).trans rfl

theorem canonical_tools (t : FieldType) : (tools t).Canonical where
  id_lower := show Text.lower "tools" = "tools" by decide +kernel
  nonempty := nofun
  names_lower := List.forall_mem_singleton.2 (show Text.lower "size" = "size" by decide +kernel)
  names_nodup := by simp [Category.fieldNames, tools]

theorem nan_size_overlooked :
    let s := holding .real nanSize
    let k : Constraint := ⟨⟨"size", .real⟩, .ne, .real .zero⟩
    (FieldType.real.coerce (.real .nan) = .ok (.real .nan) ∨
        FieldType.real.Overlooks (.real .nan)) ∧
      (∃ e, s.result (find "hammer") = .ok e ∧ e.fields.get? "size" = some (.real .nan)) ∧
      (∃ c : Category, List.Forall₂ (fun (f : FieldDef) (p : String × Value) => p.1 = f.name ∧
        (f.type.coerce p.2 = .ok p.2 ∨ f.type.Overlooks p.2)) c.fields
          (hammer (.real .nan)).fields) ∧
      (k.field.type.coerce ((hammer (.real .nan)).value "size") =
          .ok ((hammer (.real .nan)).value "size") ∨
        k.field.type.Overlooks ((hammer (.real .nan)).value "size")) := by
  obtain ⟨haccepts, -, hfound, hstored, hcompared⟩ :=
    accepts_iff_coerces_or_overlooks .real (.real .nan) (holding .real nanSize)
  have hnan := haccepts.1 rfl
  refine ⟨hnan, ?_, ?_, ?_⟩
  · exact (hstored "hammer" (hammerRow nanSize) (tools .real) "size" 1
      (entry?_holding .real nanSize) (hammerRow_value? read_nanSize) rfl (by decide)
      (Session.owner_eq_ok_iff.2 (result_resolve_holding .real nanSize)) (canonical_tools .real)
      (List.mem_singleton.2 rfl)).2 hnan
  · obtain ⟨-, c, -, -, hvalues⟩ := hfound "hammer" _ find_nanSize
    exact ⟨c, hvalues⟩
  · exact hcompared ⟨⟨"size", .real⟩, .ne, .real .zero⟩ (hammer (.real .nan)) rfl
      (by decide +kernel)

/-- What is not a number is accepted and handed out, and coercion refuses it. -/
theorem accepts_nan :
    FieldType.real.accepts (.real .nan) ∧
      FieldType.real.coerce (.real .nan) = .error (.notFinite .nan) ∧
      (holding .real nanSize).result (find "hammer") = .ok (hammer (.real .nan)) :=
  ⟨rfl, rfl, find_nanSize⟩

/-! ### What is kept of a row -/

/-- Reading a row, alone or with the others of its category, keeps what is stored under an exactly
declared name: as it is, and a whole number of a real field as the nearest real number, which equals
it if any does. A stored name that is declared in no case is a fault. A stored name that is declared
in another case only is neither: the entry is that of the row without it. -/
theorem stored_names_read (s : Session) :
    (∀ key e, s.result (find key) = .ok e →
      ∃ row r c, s.db.entry? key = some row ∧ row.record = .ok r ∧
        s.owner key r.categoryId = .ok c ∧ r.ReadAs c e) ∧
    (∀ id es, s.result (list id) = .ok es →
      ∃ c, s.result (Registry.resolve id) = .ok c ∧
        List.Forall₂ (fun row e => ∃ r, row.record = .ok r ∧ r.ReadAs c e) (s.db.entriesOf c.id)
          es) ∧
    (∀ n w, FieldType.real.Reads (.int n) w → (∃ y : Binary64, y.toInt? = some n) →
      ∃ x, w = .real x ∧ x.toInt? = some n) ∧
    (∀ key row r c, s.db.entry? key = some row → row.record = .ok r →
      s.owner key r.categoryId = .ok c → ¬c.DeclaresAll r.fields →
        s.result (find key) = .error (.undeclaredFields key c.id (c.undeclared r.fields))) ∧
    (∀ id c before r after, s.result (Registry.resolve id) = .ok c →
      Database.readRecords (s.db.entriesOf c.id) = .ok (before ++ r :: after) →
      (∀ q ∈ before, ∃ e, q.load c = .ok e) → ¬c.DeclaresAll r.fields →
        s.result (list id) = .error (.undeclaredFields r.key c.id (c.undeclared r.fields))) := by
  refine ⟨?found, ?listed, ?widened, ?drift, ?listedDrift⟩
  case found =>
    intro key e h
    obtain ⟨row, r, c, hrow, hr, hc, hload⟩ := result_find_eq_ok_iff.1 h
    exact ⟨row, r, c, hrow, hr, hc, Record.readAs_of_load hload⟩
  case listed =>
    intro id es h
    obtain ⟨c, hc, hreads⟩ := reads_of_list h
    exact ⟨c, hc, hreads.imp fun row e ⟨r, hr, hload⟩ => ⟨r, hr, Record.readAs_of_load hload⟩⟩
  case widened =>
    rintro n w hreads ⟨y, hy⟩
    exact hreads.toInt? hy
  case drift =>
    intro key row r c hrow hr hc hnot
    rw [result_find_of_owner hrow hr hc, Record.load_of_not_declaresAll hnot, key_of_record hrow hr]
  case listedDrift =>
    intro id c before r after hc hrecords hbefore hnot
    rw [result_list, hc, ok_bind, hrecords, ok_bind]
    rw [Record.loadAll_eq_mapM, mapM_eq_error_iff]
    exact ⟨before, r, after, rfl, Record.load_of_not_declaresAll hnot, hbefore⟩

/-- A size under a name in another case. -/
def miscasedSize : String :=
  "\x7b\"Size\": \"big\"\x7d"

/-- A field that is not declared. -/
def undeclaredColor : String :=
  "\x7b\"color\": \"red\"\x7d"

theorem read_miscasedSize : Json.read? miscasedSize = some (.mapping [("Size", .text "big")]) := by
  cbv

theorem read_undeclaredColor :
    Json.read? undeclaredColor = some (.mapping [("color", .text "red")]) := by
  cbv

theorem find_miscasedSize :
    (holding .text miscasedSize).result (find "hammer") = .ok (hammer .null) :=
  (find_holding read_miscasedSize).trans rfl

/-- The real number three. -/
def three : Binary64 :=
  .finite false 4613937818241073152 (by decide)

theorem names_read_of_hammers :
    let s := holding .text miscasedSize
    let d := holding .text undeclaredColor
    (∃ row r c, s.db.entry? "hammer" = some row ∧ row.record = .ok r ∧
      s.owner "hammer" r.categoryId = .ok c ∧ r.ReadAs c (hammer .null)) ∧
    (∃ c, s.result (Registry.resolve "tools") = .ok c ∧
      List.Forall₂ (fun row e => ∃ r, row.record = .ok r ∧ r.ReadAs c e) (s.db.entriesOf c.id)
        [hammer .null]) ∧
    (∃ x, Value.real three = .real x ∧ x.toInt? = some 3) ∧
    d.result (find "hammer") = .error (.undeclaredFields "hammer" "tools" ["color"]) ∧
    d.result (list "tools") = .error (.undeclaredFields "hammer" "tools" ["color"]) := by
  have hundeclared : ¬(tools .text).DeclaresAll [("color", .text "red")] := fun h => by
    have hcolor : ((tools .text).field? "color").isSome = false := by decide +kernel
    exact absurd (h "color" (List.mem_singleton.2 rfl)) (by simp [hcolor])
  have hlisted : (holding .text miscasedSize).result (list "tools") = .ok [hammer .null] :=
    (list_holding read_miscasedSize).trans rfl
  obtain ⟨hfound, hlist, -, -, -⟩ := stored_names_read (holding .text miscasedSize)
  obtain ⟨-, -, hwidened, hdrift, hlistedDrift⟩ := stored_names_read (holding .text undeclaredColor)
  refine ⟨hfound "hammer" (hammer .null) find_miscasedSize,
    hlist "tools" [hammer .null] hlisted,
    hwidened 3 (.real three) (.widened (by decide +kernel)) ⟨three, by decide +kernel⟩, ?_, ?_⟩
  · exact hdrift "hammer" (hammerRow undeclaredColor) (hammerRecord [("color", .text "red")])
      (tools .text) (entry?_holding .text undeclaredColor) (hammerRow_record read_undeclaredColor)
      (Session.owner_eq_ok_iff.2 (result_resolve_holding .text undeclaredColor)) hundeclared
  · exact hlistedDrift "tools" (tools .text) [] (hammerRecord [("color", .text "red")]) []
      (result_resolve_holding .text undeclaredColor) (records_holding read_undeclaredColor) nofun
      hundeclared

/-- The hammer is found without a size, although its row stores one. -/
theorem miscased_size_dropped :
    (hammerRow miscasedSize).fields.value? = some (.mapping [("Size", .text "big")]) ∧
      (holding .text miscasedSize).result (find "hammer") = .ok (hammer .null) ∧
      (hammer .null).fields = [("size", .null)] :=
  ⟨hammerRow_value? read_miscasedSize, find_miscasedSize, rfl⟩

/-! ### Numbers beyond the real ones -/

/-- Whatever the field data of a row are, to find it fails only because the row is damaged or
because a number is beyond the real ones. The latter happens exactly when the data are a mapping,
all of its names are declared, and the first field that cannot be read is a real one with such a
number. -/
theorem find_faults {row : EntryRow} (hrow : s.db.entry? key = some row)
    (hdata : row.fields.Storable)
    (hresolve : ∀ f, s.result (Registry.resolve row.categoryId) = .error f →
      f.kind = .categoryNotFound) :
    (∀ f, s.result (find key) = .error f →
      f.kind = .corruptEntry ∨ f.kind = .schemaDrift ∨ f = .beyondReals) ∧
    (s.result (find key) = .error .beyondReals ↔
      ∃ c m, s.result (Registry.resolve row.categoryId) = .ok c ∧
        row.fields.value? = some (.mapping m) ∧ c.DeclaresAll m ∧ c.FirstBeyond m) := by
  have howner {f : Fault} (h : s.owner key row.categoryId = .error f) : f.kind = .corruptEntry := by
    unfold Session.owner at h
    split at h
    · cases h
    · next g hg =>
      rw [if_pos (hresolve g hg)] at h
      cases h
      rfl
  rw [result_find, hrow]
  dsimp only
  cases hrecord : row.record with
  | error g =>
      have hkind := EntryRow.kind_of_record_error hrecord
      refine ⟨?_, iff_of_false ?_ ?_⟩
      · rintro f ⟨⟩
        exact .inl hkind
      · rintro ⟨⟩
        cases hkind
      · rintro ⟨c, m, -, hm, -⟩
        have hok : row.record = .ok _ := EntryRow.record_eq_ok_iff.2 ⟨m, hm, rfl⟩
        cases hrecord.symm.trans hok
  | ok r =>
      obtain ⟨m, hm, rfl⟩ := EntryRow.record_eq_ok_iff.1 hrecord
      have hwritable : Value.pairsWritable m := hdata.isWritable hm
      rw [ok_bind]
      cases hc : s.owner key row.categoryId with
      | error g =>
          have hkind := howner hc
          refine ⟨?_, iff_of_false ?_ ?_⟩
          · rintro f ⟨⟩
            exact .inl hkind
          · rintro ⟨⟩
            cases hkind
          · rintro ⟨c, -, hresolved, -⟩
            cases hc.symm.trans (Session.owner_eq_ok_iff.2 hresolved)
      | ok c =>
          rw [ok_bind]
          refine ⟨fun f hf => Record.kind_of_load_error hwritable hf,
            Record.load_beyond_iff.trans ?_⟩
          constructor
          · rintro ⟨hdeclared, hbeyond⟩
            exact ⟨c, m, Session.owner_eq_ok_iff.1 hc, hm, hdeclared, hbeyond⟩
          · rintro ⟨c', m', hresolved, hm', hbeyond⟩
            cases hc.symm.trans (Session.owner_eq_ok_iff.2 hresolved)
            cases hm.symm.trans hm'
            exact hbeyond

/-- A size that starts with a one. -/
def sizeText (ds : List Char) : String :=
  String.ofList ('\x7b' :: '"' :: 's' :: 'i' :: 'z' :: 'e' :: '"' :: ':' :: '1' :: (ds ++ ['\x7d']))

theorem read_sizeText {ds : List Char} {n : Int}
    (hnumber : Json.number? ('1' :: (ds ++ ['\x7d'])) = some (.int n, ['\x7d'])) :
    Json.read? (sizeText ds) = some (.mapping [("size", .int n)]) := by
  have hword : Json.word? ('1' :: (ds ++ ['\x7d'])) = none := rfl
  have hvalue (fuel : Nat) : Json.value? (2 * (fuel + 1)) ('1' :: (ds ++ ['\x7d'])) =
      some (.int n, ['\x7d']) := by
    rw [Nat.mul_succ, Json.value?, hword, hnumber]
    · rfl
    all_goals simp
  rw [Json.read?, sizeText, String.toList_ofList]
  simp [Json.skipSpace, Json.isSpace, Json.value?, Json.pairs?, Json.textAfter?, hvalue]
  rfl

/-- A size of one and four hundred zeros. -/
def hugeSize : String :=
  sizeText (List.replicate 400 '0')

theorem find_hugeSize :
    let s := holding .real hugeSize
    let row := hammerRow hugeSize
    (∀ f, s.result (find "hammer") = .error f →
      f.kind = .corruptEntry ∨ f.kind = .schemaDrift ∨ f = .beyondReals) ∧
    (s.result (find "hammer") = .error .beyondReals ↔
      ∃ c m, s.result (Registry.resolve row.categoryId) = .ok c ∧
        row.fields.value? = some (.mapping m) ∧ c.DeclaresAll m ∧ c.FirstBeyond m) :=
  find_faults (entry?_holding .real hugeSize) trivial (resolve_holding .real hugeSize)

/-- To find a hammer with such a size fails with a fault that is not one of damaged rows. -/
theorem huge_size_beyond_reals :
    (holding .real hugeSize).result (find "hammer") = .error .beyondReals ∧
      Fault.beyondReals.kind ≠ .corruptEntry ∧ Fault.beyondReals.kind ≠ .schemaDrift := by
  have hend : ∀ c, ['\x7d'].head? = some c → c.isDigit = false ∧ c ∉ ['.', 'e', 'E'] := by
    rintro c ⟨⟩
    decide
  have hread : Json.read? hugeSize = _ := read_sizeText (Json.number?_digits (by rfl) (by decide)
    (Numeral.isDigit_of_mem_zeros 400) (by decide +kernel) hend)
  refine ⟨?_, nofun, nofun⟩
  rw [find_holding hread, Record.load_beyond_iff]
  exact ⟨declaresAll_size .real _, [], ⟨"size", .real⟩, [], rfl, ⟨rfl, _, rfl, by decide +kernel⟩,
    nofun⟩

end Store

end Inventory
