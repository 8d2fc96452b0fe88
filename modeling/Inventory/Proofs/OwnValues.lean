import Inventory.Proofs.Constraints
import Inventory.Proofs.Held

/-!
# Entries and their own values

What the store holds of an entry is what its checks and the types of the fields let through. An
operand is coerced by the type of the field that it is compared with. For all values that are
held this comes to the same, except for a location that is the empty text: as an operand the empty
text is null, and a location never is.
-/

namespace Inventory

/-! ## Comparing a value with itself -/

namespace FieldType.WellTyped

variable {t : FieldType} {v : Value}

theorem holds_self (h : t.WellTyped v) (hv : v ≠ .null) :
    Comparison.eq.holds v v = true ∧ Comparison.ne.holds v v = false := by
  cases h with
  | null => exact absurd rfl hv
  | text => simp [Comparison.holds, Comparison.ofTexts]
  | integer => simp [Comparison.holds, Comparison.ofOrder]
  | @real x hfinite =>
      cases x with
      | infinite | nan => cases hfinite
      | finite =>
          simp [Comparison.holds, Comparison.ofReals, Binary64.compareBy, Binary64.rank?,
            Comparison.ofOrder]

end FieldType.WellTyped

/-- What can be compared has a name in lower case. -/
theorem Category.Definable.lower_name {c : Category} (hc : c.Definable) {f : FieldDef}
    (hf : f ∈ c.constrainable) : Text.lower f.name = f.name := by
  rcases List.mem_append.1 hf with hf | hf
  · exact (hc.named f hf).lower
  · exact (by decide : ∀ f ∈ Constraint.properties, Text.lower f.name = f.name) f hf

/-- Every type takes both tests for equality, with any operand and with none. -/
theorem Constraint.make_equality {c : Category} (hc : c.Definable) {f : FieldDef}
    (hf : f ∈ c.constrainable) {name : String} (hname : Text.lower name = f.name)
    {given operand : Value} (h : f.type.coerce given = .ok operand) :
    make c name .eq given = .ok ⟨f, .eq, operand⟩ ∧
      make c name .ne given = .ok ⟨f, .ne, operand⟩ := by
  have hfits : Comparison.eq.fits f.type ∧ Comparison.ne.fits f.type := by
    cases f.type <;> decide
  rw [make_eq hc hf hname, make_eq hc hf hname]
  exact ⟨onField_eq_ok_iff.2 ⟨hfits.1, operand, h, fun _ => rfl, rfl⟩,
    onField_eq_ok_iff.2 ⟨hfits.2, operand, h, fun _ => rfl, rfl⟩⟩

/-- Where an entry has a well-typed value, it equals the value and does not differ from it. -/
theorem Constraint.holds_own {f : FieldDef} {e : Entry} (h : f.type.WellTyped (e.value f.name)) :
    (⟨f, .eq, e.value f.name⟩ : Constraint).holds e = true ∧
      (⟨f, .ne, e.value f.name⟩ : Constraint).holds e = false := by
  by_cases hnull : e.value f.name = .null
  · rw [hnull, holds_eq_null, Bool.eq_false_iff, Ne, holds_ne_null]
    exact ⟨hnull, not_not_intro hnull⟩
  · rw [holds_of_value hnull rfl hnull h.accepts, holds_of_value hnull rfl hnull h.accepts]
    exact h.holds_self hnull

/-! ## What the store can hold -/

/-- The entry is one that the store can hold in the category: its properties pass the checks of
the store, and every field has a well-typed value. -/
structure Category.Stocks (c : Category) (e : Entry) : Prop where
  key : Store.checkKey (.text e.key) = .ok e.key
  location : Store.checkLocation (.text e.location) = .ok e.location
  quantity : ∃ n : Int, e.quantity = .int n ∧ Store.checkQuantity (.int n) = .ok n
  fields : ∀ f ∈ c.fields, ∃ v, e.fields.get? f.name = some v ∧ f.type.WellTyped v

/-- The location is the field, and the entry has the empty text there. -/
def FieldDef.IsEmptyLocation (f : FieldDef) (e : Entry) : Prop :=
  f.name = "location" ∧ e.location = ""

theorem Store.wellTyped_of_checkKey {s key : String} (h : checkKey (.text s) = .ok key) :
    FieldType.text.WellTyped (.text s) := by
  unfold checkKey at h
  dsimp only at h
  split at h
  · cases h
  · next hblank =>
    refine .text ?_ (isChar_of_checkText h)
    rintro rfl
    exact hblank rfl

namespace Category.Stocks

variable {c : Category} {e : Entry} {f : FieldDef}

/-- All values that can be compared are well-typed but for an empty location. -/
theorem wellTyped_value (h : c.Stocks e) (hc : c.Definable) (hf : f ∈ c.constrainable)
    (hlocation : ¬f.IsEmptyLocation e) : f.type.WellTyped (e.value f.name) := by
  rcases List.mem_append.1 hf with hf | hf
  · obtain ⟨v, hget, hv⟩ := h.fields f hf
    rw [Entry.value_field hc hf, hget]
    exact hv
  · simp only [Constraint.properties, List.mem_cons, List.not_mem_nil, or_false] at hf
    rcases hf with rfl | rfl | rfl
    · exact Store.wellTyped_of_checkKey h.key
    · exact .text (fun hempty => hlocation ⟨rfl, hempty⟩) (isChar_of_checkText h.location)
    · obtain ⟨n, hn, hcheck⟩ := h.quantity
      obtain ⟨-, hlow, hhigh⟩ := Store.checkQuantity_ok hcheck
      have hvalue : e.value "quantity" = .int n := hn
      rw [hvalue]
      exact .integer (inInt64_iff.1 (inInt64_of_amount hlow hhigh).1)

/-- Of the properties only the location can be the empty text. -/
theorem value_of_isEmptyLocation (hc : c.Definable) (hf : f ∈ c.constrainable)
    (hempty : f.IsEmptyLocation e) : f.type = .text ∧ e.value f.name = .text "" := by
  obtain ⟨hname, hlocation⟩ := hempty
  have hvalue : e.value "location" = .text e.location := rfl
  refine ⟨?_, by rw [hname, hvalue, hlocation]⟩
  rcases List.mem_append.1 hf with hf | hf
  · exact absurd (by rw [hname]; decide) (hc.named f hf).unreserved
  · exact (by decide : ∀ f ∈ Constraint.properties, f.name = "location" → f.type = .text) f hf hname

end Category.Stocks

/-! ## What readers find -/

/-- The categories can be defined, and the keys pass their check. -/
structure View.IsProper (v : View) : Prop where
  definable : ∀ c ∈ v.categories, c.Definable
  keys : ∀ e ∈ v.entries, Store.checkKey (.text e.key) = .ok e.key

theorem View.isProper_empty : View.empty.IsProper :=
  ⟨nofun, nofun⟩

/-- A creation that succeeds was given a key that passes the check. -/
theorem Operation.checkKey_of_create {id now : String} {key location quantity : Value}
    {fields : Mapping Value} {db : Database} {a : Answer}
    (h : ((create id key location quantity fields).effect now db).1 = .ok a) :
    ∃ x, Store.checkKey key = .ok x := by
  obtain ⟨e, he, -⟩ := map_eq_ok_iff.1 h
  obtain ⟨x, change, hop, -⟩ := Effect.change_ok he
  obtain ⟨c, place, n, values, cell, -, hkey, -⟩ := Tables.creation_ok hop
  exact ⟨x, hkey⟩

namespace View.IsProper

variable {now : String} {v v' : View} {o : Operation} {a : Answer} {db : Database}

/-- Only a creation brings a key. -/
theorem of_becomes (h : v.IsProper) (hv : db.Shows v) (ha : (o.effect now db).1 = .ok a)
    (hbecomes : v.Becomes now o a v') : v'.IsProper := by
  cases hbecomes with
  | define hdefine =>
      refine ⟨fun d hd => ?_, h.keys⟩
      rcases List.mem_append.1 hd with hd | hd
      · exact h.definable d hd
      · exact List.mem_singleton.1 hd ▸ .define hdefine
  | addField hc hname hnew =>
      obtain ⟨hmem, -⟩ := View.mem_of_resolve hc
      refine ⟨fun d' hd' => ?_, fun e' he' => ?_⟩
      · obtain ⟨d, hd, rfl⟩ := List.mem_map.1 hd'
        split
        · next hid =>
          obtain rfl := hv.sound.category_unique hd hmem hid
          exact .withField (h.definable d hd) hname hnew
        · exact h.definable d hd
      · obtain ⟨e, he, rfl⟩ := List.mem_map.1 he'
        split
        · exact h.keys e he
        · exact h.keys e he
  | remove => exact ⟨fun d hd => h.definable d (List.mem_of_mem_filter hd), h.keys⟩
  | create hc hnew he =>
      refine ⟨h.definable, fun e' he' => ?_⟩
      rcases List.mem_append.1 he' with he' | he'
      · exact h.keys e' he'
      · obtain rfl := List.mem_singleton.1 he'
        obtain ⟨x, hx⟩ := Operation.checkKey_of_create ha
        rw [he.key] at hx
        exact hx.trans (congrArg Except.ok (Value.text.inj (Store.checkKey_ok hx)).symm)
  | modify he hc hmodifies =>
      refine ⟨h.definable, fun e' he' => ?_⟩
      rcases View.mem_replace he' with rfl | ⟨he', -⟩
      · exact hmodifies.key ▸ h.keys _ (View.mem_of_find he).1
      · exact h.keys e' he'
  | @adjust _ _ e _ _ hd he =>
      refine ⟨h.definable, fun e' he' => ?_⟩
      rcases View.mem_replace he' with rfl | ⟨he', -⟩
      · exact h.keys e (View.mem_of_find he).1
      · exact h.keys e' he'
  | delete => exact ⟨h.definable, fun e he => h.keys e (List.mem_of_mem_filter he)⟩
  | read => exact h

end View.IsProper

/-- Every course from sound tables keeps what readers see proper. -/
theorem Course.isProper {db db' : Database} {h : History} (hcourse : Course db h db') {v : View}
    (hv : db.Shows v) (hproper : v.IsProper) : ∃ v', db'.Shows v' ∧ v'.IsProper := by
  refine (hcourse.preserves (P := fun _ db => ∃ v, db.Shows v ∧ v.IsProper) ?_ [] ⟨_, hv.sound⟩
    ⟨v, hv, hproper⟩).2
  rintro done o now db hsound ⟨v, hv, hproper⟩
  cases hanswer : (o.effect now db).1 with
  | ok a =>
      obtain ⟨v', hv', hbecomes⟩ := o.effect_becomes hv hanswer
      exact ⟨v', hv', hproper.of_becomes hv hanswer hbecomes⟩
  | error f =>
      rw [o.effect_atomic now db f hsound hanswer]
      exact ⟨v, hv, hproper⟩

/-- What is read of a described row can be held, if its texts were checked. -/
theorem Category.Describes.stocks {c : Category} {row : EntryRow} (h : c.Describes row)
    (hc : c.Canonical) (hkey : Store.checkKey (.text row.key) = .ok row.key)
    (hlocation : (Value.text row.location).IsHeld) : c.Stocks (c.entry row) where
  key := hkey
  location := by
    obtain ⟨what, hwhat⟩ := hlocation
    exact checkText_of_isChar (isChar_of_checkText hwhat) "location"
  quantity := by
    obtain ⟨n, hn, hlow, hhigh⟩ := h.quantity
    exact ⟨n, by rw [Category.entry, hn]; rfl, Store.checkQuantity_int hlow hhigh⟩
  fields := by
    intro f hf
    obtain ⟨m, hm, hstores⟩ := h.fields
    refine ⟨(m.get? f.name).getD .null, ?_, ?_⟩
    · show (c.values row.fields.items).get? f.name = _
      rw [hc.get?_values _ hf, hm]
      rfl
    · cases hget : m.get? f.name with
      | none => exact .null
      | some v =>
          obtain ⟨-, g, hg, hname, given, hgiven⟩ := hstores.declared _ _ (Mapping.mem_of_get? hget)
          obtain rfl := hc.field_unique hg hf hname
          exact FieldType.wellTyped_of_coerce hgiven

/-- At every moment of a run, what is found is what its category can hold. -/
theorem Moment.stocks_of_find (m : Moment) {key : String} {e : Entry}
    (h : ((Store.find key).exec m.session).1 = .ok e) :
    ∃ c, ((Registry.resolve e.category).exec m.session).1 = .ok c ∧ c.Definable ∧ c.Stocks e := by
  obtain ⟨v, hshows, hproper⟩ := m.course.isProper (shows_initial m.stamp) View.isProper_empty
  have hv : m.session.Sees v := ⟨m.session_ready, hshows⟩
  have hmem := (View.mem_of_find ((hv.find key).symm.trans h)).1
  obtain ⟨row, hrow, c, hc, hdescribes, rfl⟩ := hshows.exists_row hmem
  exact ⟨c, (hv.resolve c.id).trans (hshows.resolve_of_mem hc), hproper.definable c hc,
    hdescribes.stocks (hshows.sound.canonical c hc) (hproper.keys _ hmem)
      (m.isHeld.locations row hrow)⟩

/-! ## Main result -/

/-- For whatever can be compared, a constraint for equality with the value of an entry is made, and
so is one for inequality. The entry satisfies the first of them and not the second one, unless the
value is an empty location: then it is the other way round. -/
theorem Category.Stocks.found_by_own_value {c : Category} (hc : c.Definable) {e : Entry}
    (he : c.Stocks e) {f : FieldDef} (hf : f ∈ c.constrainable) {name : String}
    (hname : Text.lower name = f.name) :
    ∃ same other, Constraint.make c name .eq (e.value name) = .ok same ∧
      Constraint.make c name .ne (e.value name) = .ok other ∧
      (same.holds e ↔ ¬f.IsEmptyLocation e) ∧ (other.holds e ↔ f.IsEmptyLocation e) := by
  have hvalue : e.value name = e.value f.name := by
    rw [Entry.value, Entry.value, hname, hc.lower_name hf]
  rw [hvalue]
  by_cases hempty : f.IsEmptyLocation e
  · obtain ⟨htype, htext⟩ := value_of_isEmptyLocation hc hf hempty
    have hcoerce : f.type.coerce (e.value f.name) = .ok .null := by
      rw [htype, htext]
      rfl
    obtain ⟨hsame, hother⟩ := Constraint.make_equality hc hf hname hcoerce
    refine ⟨_, _, hsame, hother, ?_, ?_⟩
    · simp [Constraint.holds_eq_null, htext, hempty]
    · simp [Constraint.holds_ne_null, htext, hempty]
  · have hown := he.wellTyped_value hc hf hempty
    obtain ⟨hsame, hother⟩ := Constraint.make_equality hc hf hname hown.coerce_eq
    obtain ⟨hequal, hdifferent⟩ := Constraint.holds_own hown
    refine ⟨_, _, hsame, hother, ?_, ?_⟩
    · simp [hequal, hempty]
    · simp [hdifferent, hempty]

/-- A negative zero is found under the name of its field in capitals. -/
theorem Category.Stocks.negative_zero_found :
    let parts : Category := ⟨"parts", [⟨"ohms", .real⟩]⟩
    let e : Entry := ⟨"R1", "parts", "drawer", .int 4,
      [("ohms", .real Binary64.zero.negate)], none, none⟩
    parts.Definable ∧ parts.Stocks e ∧ ⟨"ohms", .real⟩ ∈ parts.constrainable ∧
      ∃ same other, Constraint.make parts "OHMS" .eq (e.value "OHMS") = .ok same ∧
        Constraint.make parts "OHMS" .ne (e.value "OHMS") = .ok other ∧
        same.holds e ∧ ¬other.holds e := by
  intro parts e
  have hdefine : Category.define (.text "parts") [(.text "ohms", .real)] = .ok parts := rfl
  have hparts : parts.Definable := .define hdefine
  have he : parts.Stocks e :=
    { key := (if_neg (by decide)).trans (checkText_eq_ok "key" (by decide))
      location := checkText_eq_ok "location" (by decide)
      quantity := ⟨4, rfl, rfl⟩
      fields := by
        intro f hf
        obtain rfl := List.mem_singleton.1 hf
        exact ⟨_, rfl, .real rfl⟩ }
  have hohms : ⟨"ohms", .real⟩ ∈ parts.constrainable := List.mem_cons_self ..
  have hname : ¬FieldDef.IsEmptyLocation ⟨"ohms", .real⟩ e := fun h => absurd h.1 (by decide)
  obtain ⟨same, other, hsame, hother, hequal, hdifferent⟩ :=
    found_by_own_value hparts he hohms (by decide : Text.lower "OHMS" = "ohms")
  exact ⟨hparts, he, hohms, same, other, hsame, hother, hequal.2 hname, fun h => hname (hdifferent.1 h)⟩

/-- A hammer that was created in no place differs from its own location. -/
theorem Category.Stocks.empty_location_differs :
    let define := Operation.define (.text "tools") [(.text "size", .text)]
    let create := Operation.create "tools" (.text "hammer") (.text "") (.int 1) []
    let m : Moment := ⟨"2024-01-01 00:00:00", [], .first, "2024-01-01 00:00:01", false,
      .op define (.op create .done)⟩
    ∃ e c, ((Store.find "hammer").exec m.session).1 = .ok e ∧
      ((Registry.resolve e.category).exec m.session).1 = .ok c ∧
      ∃ same other, Constraint.make c "location" .eq (e.value "location") = .ok same ∧
        Constraint.make c "location" .ne (e.value "location") = .ok other ∧
        same.holds e = false ∧ other.holds e = true := by
  intro define create m
  have hfound : ∃ e, ((Store.find "hammer").exec m.session).1 = .ok e ∧ e.location = "" := by
    decide +kernel
  obtain ⟨e, he, hlocation⟩ := hfound
  obtain ⟨c, hresolve, hc, -⟩ := m.stocks_of_find he
  have hvalue : e.value "location" = .text "" := congrArg Value.text hlocation
  have hproperty : ⟨"location", .text⟩ ∈ c.constrainable := List.mem_append_right _ (by decide)
  have hnull : FieldType.text.coerce (e.value "location") = .ok .null := by
    rw [hvalue]
    rfl
  obtain ⟨hsame, hother⟩ := Constraint.make_equality hc hproperty
    (by decide : Text.lower "location" = "location") hnull
  refine ⟨e, c, he, hresolve, _, _, hsame, hother, ?_, ?_⟩
  · rw [Bool.eq_false_iff, Ne, Constraint.holds_eq_null, hvalue]
    nofun
  · rw [Constraint.holds_ne_null, hvalue]
    nofun

end Inventory
