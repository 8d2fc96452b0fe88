import Inventory.Proofs.Labels

/-!
# Placeholders without a value

A template names what has no value in the entry at hand. Filled strictly it is refused, with exactly
these names; filled leniently it has them blank, with one warning for each. Where there are none the
two are the same, and a lenient filling is always what a strict one is once the names are bound to
no text.
-/

namespace Inventory

/-! ## What is bound -/

namespace Entry

variable {name : String}

/-- Bound are the properties of an entry, the fields of its category, and nothing else. -/
theorem isSome_get?_bindings_iff (e : Entry) (c : Category) (name : String) :
    ((e.bindings c).get? name).isSome ↔ name ∈ propertyNames ∨ name ∈ c.fieldNames := by
  refine ⟨fun h => ?_, isSome_get?_bindings⟩
  obtain ⟨text, htext⟩ := Option.isSome_iff_exists.1 h
  rw [get?_bindings] at htext
  obtain hmem | hmem := List.mem_append.1 (Mapping.mem_of_last? htext)
  · obtain ⟨n, hn, heq⟩ := List.mem_map.1 hmem
    cases heq
    exact .inl hn
  · obtain ⟨n, hn, heq⟩ := List.mem_map.1 hmem
    cases heq
    exact .inr hn

end Entry

/-! ## Names without a value -/

namespace Template

variable {t : Template} {value? : String → Option String} {name : String}

/-- The names in a template that have no value, each one once, in order. -/
def missing (t : Template) (value? : String → Option String) : List String :=
  t.placeholders.filter fun name => (value? name).isNone

/-- The text of a template with the values of its names, as it is before it is checked. -/
def filledText (t : Template) (value? : String → Option String) : String :=
  render (t.parts.map (Part.map fun name => (name, value? name)))

theorem mem_missing : name ∈ t.missing value? ↔ name ∈ t.placeholders ∧ value? name = none := by
  simp [missing]

/-- The names that are noted while a template is filled are those of another scan. -/
theorem unbound_eq_missing (t : Template) (value? : String → Option String) :
    unbound (t.parts.map (Part.map fun name => (name, value? name))) = t.missing value? := by
  rw [missing, placeholders, filter_foldl_addNew, unbound, Part.slots_map, List.filter_map,
    List.foldl_map, List.filter_nil]
  rfl

theorem filling_eq (t : Template) (value? : String → Option String) (strict : Bool) :
    t.filling value? strict =
      if strict && !(t.missing value?).isEmpty then
        ⟨[], .error (.unboundPlaceholders t.name (t.missing value?))⟩
      else
        ⟨(t.missing value?).map t.blankWarning,
          (check t.name (t.filledText value?)).map fun _ => t.filledText value?⟩ := by
  rw [filling, complete, unbound_eq_missing]
  rfl

theorem filling_lenient (t : Template) (value? : String → Option String) :
    t.filling value? false = ⟨(t.missing value?).map t.blankWarning,
      (check t.name (t.filledText value?)).map fun _ => t.filledText value?⟩ := by
  rw [filling_eq]
  rfl

/-- A strict filling in which no name is missing goes on as a lenient one. -/
theorem filling_strict_of_missing_eq_nil (h : t.missing value? = []) :
    t.filling value? true = ⟨[], (t.filling value? false).result⟩ := by
  rw [filling_lenient, filling_eq, h]
  rfl

theorem filling_strict_of_missing_ne_nil (h : t.missing value? ≠ []) :
    t.filling value? true = ⟨[], .error (.unboundPlaceholders t.name (t.missing value?))⟩ := by
  have hne : (t.missing value?).isEmpty = false := List.isEmpty_eq_false_iff.2 h
  rw [filling_eq, hne]
  rfl

/-- The check of a text never says that a placeholder is unbound. -/
theorem kind_of_check_error {text : String} {f : Fault} (h : check name text = .error f) :
    f.kind ≠ .unboundPlaceholder := by
  unfold check at h
  split at h
  · cases h
  · cases h
    exact nofun
  · next fault _ =>
      cases h
      cases fault <;> exact nofun

/-- A strict label is refused for its placeholders exactly if a name is missing. -/
theorem unboundPlaceholder_iff :
    (∃ f, t.fill value? true = .error f ∧ f.kind = .unboundPlaceholder) ↔
      t.missing value? ≠ [] := by
  constructor
  · rintro ⟨f, hf, hkind⟩ hnil
    rw [fill, filling_strict_of_missing_eq_nil hnil, filling_lenient, Filling.label,
      map_eq_error_iff, map_eq_error_iff] at hf
    exact kind_of_check_error hf hkind
  · intro hne
    refine ⟨.unboundPlaceholders t.name (t.missing value?), ?_, rfl⟩
    rw [fill, filling_strict_of_missing_ne_nil hne]
    rfl

/-! ## Names bound to no text -/

/-- The values with the empty text for some names. -/
def blanking (names : List String) (value? : String → Option String) (name : String) :
    Option String :=
  if name ∈ names then some "" else value? name

theorem missing_blanking (t : Template) (value? : String → Option String) :
    t.missing (blanking (t.missing value?) value?) = [] := by
  refine List.eq_nil_iff_forall_not_mem.2 fun name hname => ?_
  obtain ⟨hmem, hnone⟩ := mem_missing.1 hname
  by_cases h : name ∈ t.missing value?
  · rw [blanking, if_pos h] at hnone
    cases hnone
  · rw [blanking, if_neg h] at hnone
    exact h (mem_missing.2 ⟨hmem, hnone⟩)

/-- No text and no value look the same. -/
theorem filledText_blanking (t : Template) (value? : String → Option String) :
    t.filledText (blanking (t.missing value?) value?) = t.filledText value? := by
  have hsame (name : String) : (blanking (t.missing value?) value? name).elim [] Text.escape =
      (value? name).elim [] Text.escape := by
    by_cases h : name ∈ t.missing value?
    · rw [blanking, if_pos h, (mem_missing.1 h).2]
      rfl
    · rw [blanking, if_neg h]
  rw [filledText, filledText, render, render, Part.render_map, Part.render_map]
  exact congrArg (fun text => String.ofList (Part.render text t.parts)) (funext hsame)

theorem filling_blanking (t : Template) (value? : String → Option String) :
    t.filling (blanking (t.missing value?) value?) true =
      ⟨[], (t.filling value? false).result⟩ := by
  rw [filling_strict_of_missing_eq_nil (missing_blanking t value?), filling_lenient,
    filling_lenient, filledText_blanking]

end Template

/-! ## Main result -/

namespace Store

variable {t : Template} {e : Entry} {c : Category} {s s' : Session}

/-- The placeholders of a template that name neither a property nor a field of the category. -/
def undeclared (t : Template) (c : Category) : List String :=
  t.placeholders.filter fun name => name ∉ Entry.propertyNames ∧ name ∉ c.fieldNames

theorem missing_bindings (t : Template) (e : Entry) (c : Category) :
    t.missing (e.bindings c).get? = undeclared t c := by
  refine List.filter_congr fun name _ => ?_
  have hbound := e.isSome_get?_bindings_iff c name
  rw [← Bool.coe_iff_coe, Option.isNone_iff_eq_none, ← Option.not_isSome_iff_eq_none, hbound,
    not_or, decide_eq_true_eq]

/-- A label is what filling the template with the texts of the entry comes to. -/
theorem exec_fill (hc : (Registry.resolve e.category).exec s = (.ok c, s')) (strict : Bool) :
    (fill t e strict).exec s = ((t.filling (e.bindings c).get? strict).label, s') := by
  simp only [fill, bindings, Action.exec_bind, hc, Action.exec_pure, Action.exec_ofExcept]
  rfl

/-- Strict and lenient labels agree. The names at issue are the placeholders that name neither a
property nor a field of the entry's category as it is now. A strict label is refused for its
placeholders exactly if there are such names, and then with exactly these; a lenient one has one
warning for each of them, in order, whether its text is accepted or not. Without such names both are
the same, and without a warning. What a lenient label comes to is always what a strict one comes to
when these names have the empty text. -/
theorem strict_and_lenient (hc : (Registry.resolve e.category).exec s = (.ok c, s')) :
    (∀ strict, (fill t e strict).exec s =
      ((t.filling (e.bindings c).get? strict).label, s')) ∧
    ((∃ f, (fill t e true).exec s = (.error f, s') ∧ f.kind = .unboundPlaceholder) ↔
      undeclared t c ≠ []) ∧
    (undeclared t c ≠ [] →
      t.filling (e.bindings c).get? true =
        ⟨[], .error (.unboundPlaceholders t.name (undeclared t c))⟩ ∧
      (Fault.unboundPlaceholders t.name (undeclared t c)).details.get? "placeholders" =
        some (.list ((undeclared t c).map .text))) ∧
    (t.filling (e.bindings c).get? false).warnings = (undeclared t c).map t.blankWarning ∧
    (undeclared t c = [] →
      t.filling (e.bindings c).get? true = t.filling (e.bindings c).get? false ∧
      (t.filling (e.bindings c).get? true).warnings = []) ∧
    t.filling (Template.blanking (undeclared t c) (e.bindings c).get?) true =
      ⟨[], (t.filling (e.bindings c).get? false).result⟩ := by
  have hmissing := missing_bindings t e c
  refine ⟨exec_fill hc, ?_, fun hne => ⟨?_, rfl⟩, ?_, fun hnil => ?_, ?_⟩
  · rw [← hmissing, ← Template.unboundPlaceholder_iff, exec_fill hc]
    simp only [Prod.mk.injEq, and_true]
    rfl
  · rw [← hmissing] at hne ⊢
    exact Template.filling_strict_of_missing_ne_nil hne
  · rw [Template.filling_lenient, hmissing]
  · rw [← hmissing] at hnil
    have hstrict := Template.filling_strict_of_missing_eq_nil hnil
    refine ⟨?_, by rw [hstrict]⟩
    rw [hstrict, Template.filling_lenient, hnil]
    rfl
  · rw [← hmissing]
    exact Template.filling_blanking t _

/-- A template names two things that no hammer has, one of them twice. -/
theorem hammer_without_color :
    let t : Template := ⟨"label",
      "<b>\x7b\x7bcolor\x7d\x7d\x7b\x7bkey\x7d\x7d\x7b\x7b Weight \x7d\x7d\x7b\x7bColor\x7d\x7d</b>"⟩
    let tools : Category := ⟨"tools", [⟨"size", .text⟩]⟩
    let hammer : Entry := ⟨"hammer", "tools", "shed", .int 1, [("size", .null)], none, none⟩
    let s : Session :=
      { Session.fresh Database.empty "2024-01-01 00:00:00" with cache := some ⟨0, [tools]⟩ }
    (fill t hammer true).exec s = (.error (.unboundPlaceholders "label" ["color", "weight"]), s) ∧
      (fill t hammer false).exec s = (.ok ⟨"<b>hammer</b>",
        [t.blankWarning "color", t.blankWarning "weight"]⟩, s) := by
  intro t tools hammer s
  have hc : (Registry.resolve hammer.category).exec s = (.ok tools, s) :=
    Registry.exec_resolve_of_cached rfl rfl (by decide +kernel)
  have hnames : undeclared t tools = ["color", "weight"] := by decide +kernel
  have htext : t.filledText (hammer.bindings tools).get? = "<b>hammer</b>" := by decide +kernel
  have hcheck : Template.check "label" "<b>hammer</b>" = .ok () :=
    Template.check_eq_ok.2 (by decide +kernel)
  obtain ⟨hfill, -, hstrict, hwarnings, -, -⟩ := strict_and_lenient (t := t) hc
  rw [hnames] at hstrict hwarnings
  refine ⟨?_, ?_⟩
  · rw [hfill, (hstrict (List.cons_ne_nil _ _)).1]
    rfl
  · have hresult : (t.filling (hammer.bindings tools).get? false).result = .ok "<b>hammer</b>" := by
      rw [Template.filling_lenient, htext, hcheck]
      rfl
    rw [hfill, Filling.label, hresult, hwarnings]
    rfl

end Store

end Inventory
