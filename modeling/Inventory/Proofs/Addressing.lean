import Inventory.Proofs.Bindings
import Inventory.Proofs.Execution
import Inventory.Proofs.Naming
import Inventory.Proofs.Placeholders

/-!
# How fields are addressed

A field is addressed by its name in three places: in its category, in the placeholders of a
template, and in the expressions of a search. All three read the same names but for one: the check
of a name lets a line feed at its end pass and keeps it, and neither a placeholder nor an
expression can have one there.
-/

namespace Inventory

open Name (IsPlain IsWritten IsField)

/-! ## The names that fields can have -/

namespace Name

variable {name : String} {c : Char} {cs : List Char}

theorem toLower_of_isPlainPart (h : isPlainPart c) : c.toLower = c := by
  rw [isPlainPart_iff, isPlainStart_iff] at h
  rw [← Char.toNat_inj, toNat_toLower, if_neg (by omega)]

theorem isPlainPart_of_isPlainStart (h : isPlainStart c) : isPlainPart c := by
  rw [isPlainPart_iff]
  exact .inl h

theorem IsPlain.isPlainPart (h : IsPlain name) : ∀ d ∈ name.toList, isPlainPart d := by
  obtain ⟨c, rest, heq, hc, hrest⟩ := h
  rw [heq]
  exact List.forall_mem_cons.2 ⟨isPlainPart_of_isPlainStart hc, hrest⟩

theorem IsPlain.map_toLower (h : IsPlain name) : name.toList.map Char.toLower = name.toList := by
  have hsame : name.toList.map Char.toLower = name.toList.map id :=
    List.map_congr_left fun d hd => toLower_of_isPlainPart (h.isPlainPart d hd)
  rw [hsame, List.map_id]

theorem IsWritten.isAscii (h : IsWritten cs) : ∀ c ∈ cs, Text.isAscii c :=
  fun c hc => isAscii_of_isPart (h.isPart c hc)

theorem not_isPlain_append_lineFeed (name : String) : ¬IsPlain (name ++ "\n") := by
  intro h
  have hfeed := h.isPlainPart '\n' (by simp)
  exact absurd hfeed (by decide)

theorem not_isWritten_append_lineFeed (cs : List Char) : ¬IsWritten (cs ++ ['\n']) := by
  intro h
  exact absurd (h.isPart '\n' (by simp)) (by decide)

/-- A name is accepted in any case, and also with a line feed at its end. -/
theorem isName_iff {s : String} :
    isName s ↔ IsWritten s.toList ∨ ∃ cs, IsWritten cs ∧ s.toList = cs ++ ['\n'] := by
  have hbody : isName s ↔ IsWritten (body s) := by
    unfold isName IsWritten
    split
    · next hnil => simp [hnil]
    · next c rest hcons => simp [hcons]
  rw [hbody]
  unfold body
  split
  · next hlast =>
      obtain ⟨before, hs⟩ := List.getLast?_eq_some_iff.1 hlast
      rw [hs, List.dropLast_concat]
      constructor
      · exact fun h => .inr ⟨before, h, rfl⟩
      · rintro (h | ⟨cs, h, heq⟩)
        · exact absurd h (not_isWritten_append_lineFeed before)
        · rwa [(List.append_inj_left' heq rfl)]
  · next hlast =>
      refine ⟨.inl, ?_⟩
      rintro (h | ⟨cs, -, heq⟩)
      · exact h
      · rw [heq, List.getLast?_concat] at hlast
        exact absurd rfl hlast

/-- In lower case the accepted names are plain ones, alone or with a line feed at the end. -/
theorem lower_of_isName {s : String} (h : isName s) :
    IsPlain (Text.lower s) ∨ ∃ plain, IsPlain plain ∧ Text.lower s = plain ++ "\n" := by
  rw [Text.lower_of_ascii (ascii_of_isName h)]
  rcases isName_iff.1 h with hs | ⟨cs, hcs, heq⟩
  · exact .inl (isPlain_map_toLower.2 hs)
  · refine .inr ⟨_, isPlain_map_toLower.2 hcs, ?_⟩
    rw [heq, List.map_append, String.ofList_append]
    rfl

/-- A name that is accepted becomes a plain one unless it has a line feed at its end. -/
theorem isPlain_lower_iff {s : String} (h : isName s) :
    IsPlain (Text.lower s) ↔ s.toList.getLast? ≠ some '\n' := by
  rw [Text.lower_of_ascii (ascii_of_isName h), isPlain_map_toLower]
  constructor
  · intro hwritten hlast
    obtain ⟨before, hs⟩ := List.getLast?_eq_some_iff.1 hlast
    exact not_isWritten_append_lineFeed before (hs ▸ hwritten)
  · intro hlast
    rcases isName_iff.1 h with hwritten | ⟨cs, -, hs⟩
    · exact hwritten
    · rw [hs, List.getLast?_concat] at hlast
      exact absurd rfl hlast

/-- What is in lower case already is its own canonical form. -/
theorem checkField_of_isName (hname : isName name)
    (hlower : name.toList.map Char.toLower = name.toList) (hfree : name ∉ reserved) :
    checkField (.text name) = .ok name := by
  have hcanonical : Text.lower name = name := by
    rw [Text.lower_of_ascii (ascii_of_isName hname), hlower, String.ofList_toList]
  have hcontains : reserved.contains name = false := by simpa using hfree
  rw [checkField, check]
  simp only [hname, hcanonical, hcontains, Bool.not_true, Bool.false_eq_true, if_false,
    Bool.and_false]

/-- The names that fields can have: the plain ones, alone or with a line feed at the end, but for
the reserved names. -/
theorem isField_iff : IsField name ↔ name ∉ reserved ∧
    (IsPlain name ∨ ∃ plain, IsPlain plain ∧ name = plain ++ "\n") := by
  constructor
  · intro h
    refine ⟨h.unreserved, ?_⟩
    obtain ⟨given, hgiven⟩ := h
    obtain ⟨s, -, hs, rfl⟩ := check_ok hgiven
    exact lower_of_isName hs
  · rintro ⟨hfree, h | ⟨plain, h, rfl⟩⟩
    · have hname : isName name := isName_iff.2 (.inl (h.isWritten h.map_toLower))
      exact ⟨_, checkField_of_isName hname h.map_toLower hfree⟩
    · have hname : isName (plain ++ "\n") :=
        isName_iff.2 (.inr ⟨_, h.isWritten h.map_toLower, String.toList_append⟩)
      refine ⟨_, checkField_of_isName hname ?_ hfree⟩
      rw [String.toList_append, List.map_append, h.map_toLower]
      rfl

end Name

/-! ## Fields in categories -/

/-- The categories that can be defined: with checked fields from the start, and with more of them
that were added one by one. -/
inductive Category.Definable : Category → Prop
  | define {id : Value} {fields : List (Value × FieldType)} {c : Category}
      (h : Category.define id fields = .ok c) : Definable c
  | withField {c : Category} {given : Value} {name : String} {type : FieldType} (h : Definable c)
      (hname : Name.checkField given = .ok name) (hnew : c.field? name = none) :
      Definable (c.withField ⟨name, type⟩)

namespace Category

variable {c : Category} {f : FieldDef}

theorem Definable.canonical (h : c.Definable) : c.Canonical := by
  induction h with
  | define h => exact define_canonical h
  | withField _ hname hnew ih => exact ih.withField (Name.lower_of_check hname) hnew

theorem Definable.named (h : c.Definable) : c.Named := by
  induction h with
  | define h => exact define_named h
  | withField _ hname _ ih => exact ih.withField ⟨_, hname⟩

/-- A name in any case is looked up as the field that has it in lower case. -/
theorem Canonical.field?_eq_some (h : c.Canonical) (hf : f ∈ c.fields) {given : String}
    (hgiven : Text.lower given = f.name) : c.field? given = some f := by
  have hsome : (c.fields.find? (·.name == f.name)).isSome := by
    rw [List.find?_isSome]
    exact ⟨f, hf, by simp⟩
  obtain ⟨g, hg⟩ := Option.isSome_iff_exists.1 hsome
  have hname : g.name = f.name := by simpa using List.find?_some hg
  have heq : g = f := List.inj_on_of_nodup_map h.names_nodup (List.mem_of_find?_eq_some hg) hf hname
  rw [field?, hgiven, hg, heq]

/-! ### Placeholders -/

/-- Wherever a template has a placeholder for the field, in any case and with any white space in
its braces, it is filled with what an entry of the category has in the field. -/
def BindsField (c : Category) (f : FieldDef) : Prop :=
  ∀ (t : Template) (before p after : List Char) (e : Entry) (strict : Bool) (s s' : Session),
    Placeholder.Writes p f.name → t.text.toList = before ++ (p ++ after) →
    (Registry.resolve e.category).exec s = (.ok c, s') →
      (Store.fill t e strict).exec s =
        (t.finish strict (bound e before ++
          .slot (f.name, some ((e.fields.get? f.name).getD .null).labelText) :: bound e after), s')
where
  /-- The parts of a text with what the entry puts in the places of its placeholders. -/
  bound (e : Entry) (cs : List Char) : List (Part (String × Option String)) :=
    (Placeholder.parts cs).map (Part.map fun name => (name, (e.bindings c).get? name))

theorem bindsField_of_isPlain (hf : f ∈ c.fields) (h : IsPlain f.name) : c.BindsField f := by
  intro t before p after e strict s s' hp ht hc
  have hbound : (e.bindings c).get? f.name = some ((e.fields.get? f.name).getD .null).labelText :=
    e.get?_bindings_of_mem (List.mem_map_of_mem hf)
  have hparts : t.parts = Placeholder.parts before ++ .slot f.name :: Placeholder.parts after := by
    rw [Template.parts, ht, Placeholder.parts_of_writes hp h]
  simp only [Store.fill, Store.bindings, Action.exec_bind, hc, Action.exec_pure,
    Action.exec_ofExcept, Template.fill, Template.filling, hparts, List.map_append, List.map_cons,
    Part.map, hbound]
  rfl

/-! ### Expressions -/

/-- Every expression that compares the field, in any case and with any white space around its name,
with a text for equality is about the field and the text. A second equals sign belongs to the
comparison. -/
def ReadsField (c : Category) (f : FieldDef) : Prop :=
  ∀ before given between value : List Char, (∀ d ∈ before, Text.isBlank d) →
    given.map Char.toLower = f.name.toList → (∀ d ∈ between, Text.isBlank d) →
      Constraint.parse c (String.ofList (before ++ (given ++ (between ++ '=' :: value)))) =
        Constraint.onField f .eq (.text (Text.trim (String.ofList (operand value))))
where
  /-- The text that follows the comparison. -/
  operand : List Char → List Char
    | '=' :: value => value
    | value => value

theorem symbol?_equals (value : List Char) :
    Constraint.symbol? ('=' :: value) = some (.eq, ReadsField.operand value) := by
  rcases value with _ | ⟨c, value⟩
  · rfl
  · by_cases hc : c = '='
    · subst hc
      rfl
    · simp [Constraint.symbol?, ReadsField.operand, hc]

theorem split?_of_parts {before given cs : List Char} (hbefore : ∀ d ∈ before, Text.isBlank d)
    (hne : given ≠ []) (hparts : ∀ d ∈ given, Name.isPart d) (hcs : Placeholder.EndsName cs) :
    Constraint.split? (String.ofList (before ++ (given ++ cs))) =
      (Constraint.symbol? (cs.dropWhile Text.isBlank)).map fun (comparison, rest) =>
        (String.ofList given, comparison, Text.trim (String.ofList rest)) := by
  obtain ⟨hblank, htake, hdrop⟩ := Placeholder.spans_of_parts hbefore hne hparts hcs
  rw [Constraint.split?, String.toList_ofList]
  simp only [hblank, htake, hdrop, List.isEmpty_eq_false_iff.2 hne, Bool.false_eq_true, if_false]

theorem readsField_of_isPlain (hc : c.Canonical) (hf : f ∈ c.fields) (h : IsPlain f.name) :
    c.ReadsField f := by
  intro before given between value hbefore hgiven hbetween
  have hwritten : IsWritten given := h.isWritten hgiven
  have hends : Placeholder.EndsName (between ++ '=' :: value) :=
    Placeholder.endsName_of_blanks hbetween (by rintro c ⟨⟩; decide)
  have hsymbol : (between ++ '=' :: value).dropWhile Text.isBlank = '=' :: value := by
    rw [List.dropWhile_append_of_pos hbetween]
    exact List.dropWhile_cons_of_neg (by decide)
  have hlower : Text.lower (String.ofList given) = f.name := by
    rw [Text.lower_of_ascii (by simpa using hwritten.isAscii), String.toList_ofList, hgiven,
      String.ofList_toList]
  have htarget : Constraint.target c (String.ofList given) = .ok f := by
    rw [Constraint.target, Constraint.target?, hc.field?_eq_some hf hlower]
    rfl
  rw [Constraint.parse, split?_of_parts hbefore hwritten.ne_nil hwritten.isPart hends, hsymbol, symbol?_equals,
    Option.map_some]
  dsimp only
  rw [Constraint.make, htarget, ok_bind]

/-! ### A line feed in a name -/

theorem field_of_onField {comparison : Comparison} {operand : Value} {k : Constraint}
    (h : Constraint.onField f comparison operand = .ok k) : k.field = f := by
  simp only [Constraint.onField, bind_eq_ok_iff, guard_eq_ok_iff] at h
  obtain ⟨-, coerced, -, -, h⟩ := h
  cases h
  rfl

theorem target?_of_target {name : String} (h : Constraint.target c name = .ok f) :
    Constraint.target? c name = some f := by
  unfold Constraint.target at h
  split at h
  · next hsome =>
      cases h
      exact hsome
  · cases h

/-- What the name of an expression is looked up as has no line feed in its name. -/
theorem lineFeed_notMem_of_target? {given : List Char} (hgiven : ∀ d ∈ given, Name.isPart d)
    (h : Constraint.target? c (String.ofList given) = some f) : '\n' ∉ f.name.toList := by
  have hlower : Text.lower (String.ofList given) = String.ofList (given.map Char.toLower) := by
    rw [Text.lower_of_ascii, String.toList_ofList]
    simpa using fun d hd => Name.isAscii_of_isPart (hgiven d hd)
  unfold Constraint.target? at h
  cases hfield : c.field? (String.ofList given) with
  | some g =>
      rw [hfield] at h
      cases h
      rw [(Category.mem_of_field? hfield).2, hlower, String.toList_ofList]
      intro hfeed
      obtain ⟨d, hd, heq⟩ := List.mem_map.1 hfeed
      have hplain := Name.isPlainPart_toLower.2 (hgiven d hd)
      rw [heq] at hplain
      exact absurd hplain (by decide)
  | none =>
      rw [hfield] at h
      have hfind : Constraint.properties.find?
          (·.name == Text.lower (String.ofList given)) = some f := h
      have hproperty := List.mem_of_find?_eq_some hfind
      exact (by decide : ∀ g ∈ Constraint.properties, '\n' ∉ g.name.toList) f hproperty

/-- The field of a constraint that an expression gives has a name without a line feed. -/
theorem lineFeed_notMem_of_parse {expression : String} {k : Constraint}
    (h : Constraint.parse c expression = .ok k) : '\n' ∉ k.field.name.toList := by
  unfold Constraint.parse at h
  split at h
  · cases h
  · next name comparison operand hsplit =>
      obtain ⟨f, htarget, honField⟩ := bind_eq_ok_iff.1 h
      rw [field_of_onField honField]
      unfold Constraint.split? at hsplit
      dsimp only at hsplit
      split at hsplit
      · cases hsplit
      · obtain ⟨_, -, heq⟩ := Option.map_eq_some_iff.1 hsplit
        cases heq
        exact lineFeed_notMem_of_target? (fun d => List.mem_takeWhile_imp)
          (target?_of_target htarget)

/-- A name that passes the check is not reserved, and it becomes a plain one exactly if it is given
without a line feed at its end. So the name of a field is a plain one, or a plain one with a line
feed behind it. A field with a plain name is bound by its placeholders and read by its expressions;
a field with a line feed in its name is addressed by no placeholder and no expression. -/
theorem names_and_addresses (given name : String) (c : Category) (f : FieldDef)
    (hname : Name.checkField (.text given) = .ok name) (hc : Definable c) (hf : f ∈ c.fields) :
    (name ∉ Name.reserved ∧ (IsPlain name ↔ given.toList.getLast? ≠ some '\n')) ∧
    (f.name ∉ Name.reserved ∧
      (IsPlain f.name ∨ ∃ plain, IsPlain plain ∧ f.name = plain ++ "\n")) ∧
    (IsPlain f.name → c.BindsField f ∧ c.ReadsField f) ∧
    (¬IsPlain f.name → (∀ text, f.name ∉ Part.slots (Placeholder.parts text)) ∧
      ∀ expression k, Constraint.parse c expression = .ok k → k.field ≠ f) := by
  have hfield := Name.isField_iff.1 (hc.named f hf)
  refine ⟨⟨IsField.unreserved ⟨_, hname⟩, ?_⟩, hfield,
    fun h => ⟨bindsField_of_isPlain hf h, readsField_of_isPlain hc.canonical hf h⟩,
    fun h => ⟨fun text hslot => h (Placeholder.isPlain_of_mem_slots hslot), ?_⟩⟩
  · obtain ⟨s, heq, hs, rfl⟩ := Name.check_ok hname
    cases heq
    exact Name.isPlain_lower_iff hs
  · rintro expression k hk rfl
    obtain ⟨plain, -, heq⟩ := hfield.2.resolve_left h
    have hfeed := lineFeed_notMem_of_parse hk
    rw [heq] at hfeed
    exact hfeed (by simp)

/-- A size is addressed however it is written. -/
theorem size_addressed :
    ∃ tools size, define (.text "tools") [(.text "Size", .text)] = .ok tools ∧
      tools.fields = [size] ∧ IsPlain size.name ∧ tools.BindsField size ∧ tools.ReadsField size := by
  have hdefine : define (.text "tools") [(.text "Size", .text)] =
      .ok ⟨"tools", [⟨"size", .text⟩]⟩ := rfl
  have hplain : IsPlain "size" := ⟨'s', ['i', 'z', 'e'], rfl, by decide, by decide⟩
  obtain ⟨-, -, haddressed, -⟩ := names_and_addresses "Size" "size" _ ⟨"size", .text⟩
    rfl (.define hdefine) (List.mem_singleton.2 rfl)
  exact ⟨_, _, hdefine, rfl, hplain, haddressed hplain⟩

/-- The check keeps a line feed behind a name. The placeholder that shows the name so is one for
the name without the line feed, and so is the expression. -/
theorem line_feed_kept :
    Name.checkField (.text "size\n") = .ok "size\n" ∧ ¬IsPlain "size\n" ∧
    Placeholder.parts "\x7b\x7bsize\n\x7d\x7d".toList = [.slot "size"] ∧
    Constraint.parse ⟨"tools", [⟨"size\n", .text⟩]⟩ "size\n=3" =
      .error (.unknownField "tools" "size") := by
  refine ⟨rfl, Name.not_isPlain_append_lineFeed "size", ?_, rfl⟩
  have hplain : IsPlain "size" := ⟨'s', ['i', 'z', 'e'], rfl, by decide, by decide⟩
  have hwrites : Placeholder.Writes "\x7b\x7bsize\n\x7d\x7d".toList "size" :=
    ⟨[], "size".toList, ['\n'], by decide, by decide, rfl, rfl⟩
  have hparts := Placeholder.parts_of_writes hwrites hplain [] []
  rw [List.append_nil, Placeholder.parts] at hparts
  exact hparts

end Category

end Inventory
