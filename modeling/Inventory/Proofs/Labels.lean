import Inventory.Proofs.Bindings
import Inventory.Proofs.Execution
import Inventory.Proofs.Held
import Inventory.Proofs.Spec
import Inventory.Proofs.Wellformed
import Inventory.Proofs.Writing

/-!
# Every held value can appear on a label

Texts are kept free of characters that no document may hold, numbers are written in plain ones, and
what is null is blank. So a template whose placeholders are all bound can be filled with any entry,
and the label is a well-formed document where filling spoils nothing that escaping cannot guard.
-/

namespace Inventory

/-! ## The texts of values -/

section Values

variable {c : Char} {s : String}

theorem isChar_of_isXmlIllegal (h : isXmlIllegal c = false) : Xml.isChar c := by
  simp only [isXmlIllegal, Xml.isChar, Bool.or_eq_false_iff, Bool.and_eq_false_iff, Bool.or_eq_true,
    Bool.and_eq_true, beq_iff_eq, beq_eq_false_iff_ne, decide_eq_true_eq, decide_eq_false_iff_not] at h ⊢
  omega

/-- A text that is kept holds no characters but those of documents. -/
theorem isChar_of_checkText {t what : String} (h : checkText s what = .ok t) :
    ∀ c ∈ s.toList, Xml.isChar c := by
  unfold checkText at h
  split at h
  · cases h
  · next hnone =>
    intro c hc
    exact isChar_of_isXmlIllegal (Bool.not_eq_true _ ▸ List.find?_eq_none.1 hnone c hc)

namespace Binary64

theorem isChar_of_isWriting (h : isWriting c) : Xml.isChar c := by
  simp only [isWriting, Bool.or_eq_true, beq_iff_eq] at h
  obtain (((hdigit | rfl) | rfl) | rfl) | rfl := h
  · obtain ⟨hlow, hhigh⟩ := Numeral.isDigit_iff.1 hdigit
    simp only [Xml.isChar, Bool.or_eq_true, Bool.and_eq_true, beq_iff_eq, decide_eq_true_eq]
    omega
  · decide
  · decide
  · decide
  · decide

theorem isChar_display (x : Binary64) : ∀ c ∈ x.display.toList, Xml.isChar c := by
  cases x with
  | finite negative magnitude h =>
    have hfinite : (finite negative magnitude h).isFinite := rfl
    exact fun c hc => isChar_of_isWriting (isWriting_display hfinite c hc)
  | infinite negative => cases negative <;> exact List.all_eq_true.1 rfl
  | nan => exact List.all_eq_true.1 rfl

end Binary64

namespace Value

theorem IsHeld.isChar_labelText {v : Value} (h : v.IsHeld) :
    ∀ c ∈ v.labelText.toList, Xml.isChar c := by
  cases v with
  | null => simp [labelText]
  | int n => exact fun c hc => Binary64.isChar_of_isWriting (Numeral.isWriting_toString n c hc)
  | real x => exact x.isChar_display
  | text s =>
    obtain ⟨what, hwhat⟩ := h
    exact isChar_of_checkText hwhat
  | bool | list | mapping => exact h.elim

end Value

end Values

/-! ## The bindings of an entry -/

namespace Entry

/-- What a name stands for on a label. -/
def labelText (e : Entry) (c : Category) (name : String) : String :=
  ((e.bindings c).get? name).getD ""

variable {e : Entry} {c : Category} {name text : String}

theorem IsHeld.property {v : Value} (h : e.IsHeld) (hv : e.property? name = some v) : v.IsHeld := by
  have htime {time : Option String} (ht : ∀ text ∈ time, (Value.text text).IsHeld) :
      (time.elim .null .text : Value).IsHeld := by
    cases time with
    | none => trivial
    | some text => exact ht text rfl
  unfold property? at hv
  split at hv
  · exact Option.some.inj hv ▸ h.key
  · exact Option.some.inj hv ▸ h.location
  · exact Option.some.inj hv ▸ h.quantity
  · exact Option.some.inj hv ▸ h.category
  · exact Option.some.inj hv ▸ htime h.created
  · exact Option.some.inj hv ▸ htime h.modified
  · cases hv

/-- What is bound on a label is the text of a value that the entry holds. -/
theorem IsHeld.isChar_binding (h : e.IsHeld) (htext : (e.bindings c).get? name = some text) :
    ∀ d ∈ text.toList, Xml.isChar d := by
  have hvalue {v? : Option Value} (hv : ∀ v, v? = some v → v.IsHeld) : (v?.getD .null).IsHeld := by
    cases v? with
    | none => trivial
    | some v => exact hv v rfl
  rw [get?_bindings] at htext
  obtain hmem | hmem := List.mem_append.1 (Mapping.mem_of_last? htext)
  · obtain ⟨n, -, heq⟩ := List.mem_map.1 hmem
    cases heq
    exact (hvalue fun _ => h.property).isChar_labelText
  · obtain ⟨n, -, heq⟩ := List.mem_map.1 hmem
    cases heq
    exact (hvalue fun v hv => h.fields _ v (Mapping.mem_of_get? hv)).isChar_labelText

theorem IsHeld.isChar_labelText (h : e.IsHeld) (c : Category) (name : String) :
    ∀ d ∈ (e.labelText c name).toList, Xml.isChar d := by
  unfold labelText
  cases htext : (e.bindings c).get? name with
  | none => simp
  | some text => exact h.isChar_binding htext

theorem IsHeld.isEscaped_labelText (h : e.IsHeld) (c : Category) (name : String) :
    Text.IsEscaped (Text.escape (e.labelText c name)) :=
  ⟨(e.labelText c name).toList, rfl, h.isChar_labelText c name⟩

end Entry

/-! ## Filling -/

namespace Template

variable {t : Template} {name : String} {value? : String → Option String}

theorem mem_foldl_addNew {names : List String} : ∀ done : List String,
    name ∈ names.foldl addNew done ↔ name ∈ done ∨ name ∈ names := by
  induction names with
  | nil => simp
  | cons n names ih =>
    intro done
    have hadd : name ∈ addNew done n ↔ name ∈ done ∨ name = n := by
      unfold addNew
      split
      · next h =>
        have hn : n ∈ done := by simpa using h
        exact ⟨.inl, fun h => h.elim id fun heq => heq ▸ hn⟩
      · simp
    rw [List.foldl_cons, ih, hadd, List.mem_cons, or_assoc]

theorem filter_addNew (p : String → Bool) (names : List String) (name : String) :
    (addNew names name).filter p =
      if p name then addNew (names.filter p) name else names.filter p := by
  unfold addNew
  by_cases hmem : name ∈ names
  · by_cases hname : p name <;> simp [hmem, hname]
  · by_cases hname : p name <;> simp [hmem, hname]

theorem filter_foldl_addNew (p : String → Bool) (names done : List String) :
    (names.foldl addNew done).filter p = (names.filter p).foldl addNew (done.filter p) := by
  induction names generalizing done with
  | nil => rfl
  | cons name names ih =>
      rw [List.foldl_cons, ih, filter_addNew]
      by_cases hname : p name
      · rw [if_pos hname, List.filter_cons_of_pos hname, List.foldl_cons]
      · rw [if_neg hname, List.filter_cons_of_neg hname]

theorem mem_placeholders : name ∈ t.placeholders ↔ name ∈ Part.slots t.parts := by
  simp [placeholders, mem_foldl_addNew]

/-- The parts of a template with the escaped texts that its names stand for. -/
def cells (t : Template) (value : String → String) : List (Part (List Char)) :=
  t.parts.map (Part.map fun name => Text.escape (value name))

/-- What must not happen when a template is filled. -/
def Bears (t : Template) (value : String → String) : Prop :=
  Part.Bears t.text.toList (t.cells value)

/-- Where every placeholder has a value, being strict refuses nothing: the filled text is what is
checked, and nothing is warned about. -/
theorem fill_strict (hbound : ∀ name ∈ t.placeholders, (value? name).isSome) :
    t.fill value? true =
      (check t.name (String.ofList (Part.filled (t.cells fun name => (value? name).getD "")))).map
        fun _ => ⟨String.ofList (Part.filled (t.cells fun name => (value? name).getD "")), []⟩ := by
  have hunbound : unbound (t.parts.map (Part.map fun name => (name, value? name))) = [] := by
    rw [unbound, Part.slots_map, List.filter_eq_nil_iff.2]
    · rfl
    · intro p hp
      obtain ⟨name, hname, rfl⟩ := List.mem_map.1 hp
      simpa [Option.isSome_iff_ne_none] using hbound name (mem_placeholders.2 hname)
  have hrender : render (t.parts.map (Part.map fun name => (name, value? name))) =
      String.ofList (Part.filled (t.cells fun name => (value? name).getD "")) := by
    rw [render, Part.filled, cells, Part.render_map, Part.render_map]
    refine congrArg (fun f => String.ofList (Part.render f t.parts)) (funext fun name => ?_)
    cases h : value? name <;> simp [h, Text.escape]
  rw [fill, filling, ← finish, finish_eq, hunbound, hrender]
  rfl

theorem check_eq_ok {text : String} {u : Unit} :
    check name text = .ok u ↔ Xml.check text.toList = .ok true := by
  unfold check
  split <;> simp [*]

theorem check_ofList_of_true {cs : List Char} (h : Xml.check cs = .ok true) :
    check name (String.ofList cs) = .ok () := by
  rw [check, String.toList_ofList, h]

theorem check_ofList_of_false {cs : List Char} (h : Xml.check cs = .ok false) :
    check name (String.ofList cs) = .error (.templateNotXml name) := by
  rw [check, String.toList_ofList, h]

/-- A template comes out of compressed bytes if they are those of a well-formed document. -/
theorem ofBytes_eq_ok {bytes : ByteArray} : ofBytes name bytes = .ok t ↔
    t.name = name ∧ ∃ raw, Gzip.decompress bytes = some raw ∧ Text.decodeUtf8 raw = .ok t.text ∧
      Xml.check t.text.toList = .ok true := by
  obtain ⟨given, text⟩ := t
  unfold ofBytes
  cases Gzip.decompress bytes with
  | none => simp
  | some raw =>
    simp only [Option.some.injEq, exists_eq_left']
    cases Text.decodeUtf8 raw with
    | error f => simp
    | ok decoded =>
      simp only [bind_eq_ok_iff, check_eq_ok, Except.ok.injEq]
      constructor
      · rintro ⟨_, hcheck, ⟨⟩⟩
        exact ⟨rfl, rfl, hcheck⟩
      · rintro ⟨rfl, rfl, hcheck⟩
        exact ⟨(), hcheck, rfl⟩

end Template

/-- The texts of an entry fill a template. -/
theorem Entry.IsHeld.fills {e : Entry} (h : e.IsHeld) (t : Template) (c : Category) :
    Part.Fills (t.cells (e.labelText c)) t.text.toList :=
  Part.fills_parts _ _ fun name _ => h.isEscaped_labelText c name

/-- A lookup in a cache that is good. -/
theorem Registry.exec_resolve_of_cached {s : Session} {k : Cache} {id : String} {c : Category}
    (hcache : s.cache = some k) (hversion : k.version = s.version)
    (hfind : k.categories.find? (·.id == Text.lower id) = some c) :
    (Registry.resolve id).exec s = (.ok c, s) := by
  rw [Registry.resolve, Action.exec_bind, Registry.exec_categories, hcache]
  simp only [hversion, if_true, hfind]
  rfl

namespace Store

variable {t : Template} {e : Entry} {c : Category} {s s' : Session}

/-- Where every placeholder is bound, filling comes to the check of the filled text. -/
theorem exec_fill_strict (hc : (Registry.resolve e.category).exec s = (.ok c, s'))
    (hbound : ∀ p ∈ t.placeholders, p ∈ Entry.propertyNames ∨ p ∈ c.fieldNames) :
    (fill t e true).exec s =
      ((Template.check t.name (String.ofList (Part.filled (t.cells (e.labelText c))))).map fun _ =>
        ⟨String.ofList (Part.filled (t.cells (e.labelText c))), []⟩, s') := by
  have hvalues : ∀ p ∈ t.placeholders, ((e.bindings c).get? p).isSome :=
    fun p hp => Entry.isSome_get?_bindings (hbound p hp)
  simp only [fill, bindings, Action.exec_bind, hc, Action.exec_pure, Action.exec_ofExcept]
  exact congrArg (·, s') (Template.fill_strict hvalues)

/-- Every entry that is held fills every template whose placeholders it binds, and the label is a
well-formed document, where filling spoils nothing that escaping cannot guard. -/
theorem fill_of_isHeld {name : String} {bytes : ByteArray}
    (ht : Template.ofBytes name bytes = .ok t)
    (hc : (Registry.resolve e.category).exec s = (.ok c, s'))
    (hbound : ∀ p ∈ t.placeholders, p ∈ Entry.propertyNames ∨ p ∈ c.fieldNames) (he : e.IsHeld)
    (hbears : t.Bears (e.labelText c)) :
    ∃ label, (fill t e true).exec s = (.ok label, s') ∧
      label.text.toList = Part.filled (t.cells (e.labelText c)) ∧ label.warnings = [] ∧
      Xml.check label.text.toList = .ok true := by
  obtain ⟨-, -, -, -, hraw⟩ := Template.ofBytes_eq_ok.1 ht
  have hcheck := (he.fills t c).check hbears hraw
  refine ⟨⟨String.ofList (Part.filled (t.cells (e.labelText c))), []⟩, ?_, String.toList_ofList, rfl, ?_⟩
  · rw [exec_fill_strict hc hbound, Template.check_ofList_of_true hcheck]
    rfl
  · rw [String.toList_ofList]
    exact hcheck

/-- A key stands in a comment and the text of a field behind it. -/
theorem hammer_on_label :
    let t : Template := ⟨"label", "<b><!--\x7b\x7bkey\x7d\x7d-->\x7b\x7bsize\x7d\x7d</b>"⟩
    let tools : Category := ⟨"tools", [⟨"size", .text⟩]⟩
    let hammer : Entry := ⟨"hammer", "tools", "shed", .int 1, [("size", .text "<3")], none, none⟩
    let s : Session :=
      { Session.fresh Database.empty "2024-01-01 00:00:00" with cache := some ⟨0, [tools]⟩ }
    ∃ label, (fill t hammer true).exec s = (.ok label, s) ∧
      label.text = "<b><!--hammer-->&lt;3</b>" := by
  intro t tools hammer s
  have hraw : Xml.check t.text.toList = .ok true := by
    decide +kernel
  have ht : Template.ofBytes "label" (Gzip.compress t.text.toUTF8) = .ok t :=
    Template.ofBytes_eq_ok.2 ⟨rfl, t.text.toUTF8, by decide +kernel, by decide +kernel, hraw⟩
  have hc : (Registry.resolve hammer.category).exec s = (.ok tools, s) :=
    Registry.exec_resolve_of_cached rfl rfl (by decide +kernel)
  have hbound : ∀ p ∈ t.placeholders, p ∈ Entry.propertyNames ∨ p ∈ tools.fieldNames := by
    decide +kernel
  have hheld : hammer.IsHeld :=
    ⟨Value.isHeld_text (by decide +kernel), Value.isHeld_text (by decide +kernel),
      Value.isHeld_text (by decide +kernel), trivial,
      by simpa [hammer] using Value.isHeld_text (by decide +kernel), nofun, nofun⟩
  have hcells : t.cells (hammer.labelText tools) = Part.literal "<b><!--".toList ++
      .slot "hammer".toList :: Part.literal "-->".toList ++ .slot "&lt;3".toList ::
        Part.literal "</b>".toList := by
    decide +kernel
  have hkept : Part.Kept (t.cells (hammer.labelText tools)) := by
    rw [hcells]
    decide +kernel
  have hbears : t.Bears (hammer.labelText tools) :=
    (hheld.fills t tools).bears_of_plain hraw hkept (by decide +kernel)
  obtain ⟨label, hlabel, htext, -⟩ :=
    fill_of_isHeld (t := t) (e := hammer) (c := tools) (s := s) ht hc hbound hheld hbears
  refine ⟨label, hlabel, String.toList_injective (htext.trans ?_)⟩
  rw [hcells]
  decide +kernel

/-- Two hyphens in a location spoil the comment in which a template has it. -/
theorem hyphens_spoil_comment :
    let t : Template := ⟨"label", "<b><!--\x7b\x7blocation\x7d\x7d--></b>"⟩
    let tools : Category := ⟨"tools", [⟨"size", .text⟩]⟩
    let hammer : Entry := ⟨"hammer", "tools", "a--b", .int 1, [("size", .null)], none, none⟩
    let s : Session :=
      { Session.fresh Database.empty "2024-01-01 00:00:00" with cache := some ⟨0, [tools]⟩ }
    Template.ofBytes "label" (Gzip.compress t.text.toUTF8) = .ok t ∧
      (Registry.resolve hammer.category).exec s = (.ok tools, s) ∧
      (∀ p ∈ t.placeholders, p ∈ Entry.propertyNames ∨ p ∈ tools.fieldNames) ∧ hammer.IsHeld ∧
      (fill t hammer true).exec s = (.error (.templateNotXml "label"), s) := by
  intro t tools hammer s
  have hc : (Registry.resolve hammer.category).exec s = (.ok tools, s) :=
    Registry.exec_resolve_of_cached rfl rfl (by decide +kernel)
  have hbound : ∀ p ∈ t.placeholders, p ∈ Entry.propertyNames ∨ p ∈ tools.fieldNames := by
    decide +kernel
  refine ⟨Template.ofBytes_eq_ok.2 ⟨rfl, t.text.toUTF8, by decide +kernel, by decide +kernel,
    by decide +kernel⟩, hc, hbound, ⟨Value.isHeld_text (by decide +kernel),
      Value.isHeld_text (by decide +kernel), Value.isHeld_text (by decide +kernel), trivial,
      by simp [hammer, Value.IsHeld], nofun, nofun⟩, ?_⟩
  have hill : Xml.check (Part.filled (t.cells (hammer.labelText tools))) = .ok false := by
    decide +kernel
  rw [exec_fill_strict hc hbound, Template.check_ofList_of_false hill]
  rfl

end Store

end Inventory
