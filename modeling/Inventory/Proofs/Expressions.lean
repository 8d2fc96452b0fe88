import Inventory.Proofs.Blank
import Inventory.Proofs.Constraints

/-!
# Constraints as expressions

A constraint is shown as its field, its symbol and its operand with nothing in between. An
expression is read the other way round, where the longest symbol counts. So what is shown is read
as the same constraint, unless the symbol and the operand come together to a longer symbol: this
happens to equality with a text that begins with an equals sign.
-/

namespace Inventory

/-- A text that documents can hold is read as it is. -/
theorem FieldType.parse_text {s : String} (h : ∀ c ∈ s.toList, Xml.isChar c) :
    text.parse s = .ok (if s = "" then .null else .text s) := by
  unfold parse
  split
  · rfl
  · rw [checkText_of_isChar h]
    rfl

/-! ## Symbols -/

namespace Comparison

/-- An equals sign behind the symbol of the comparison makes a longer symbol. -/
def isOpen : Comparison → Bool
  | eq | lt | gt => true
  | _ => false

variable {comparison : Comparison} {rest : List Char}

/-- A symbol is read in front of everything that does not make it longer. -/
theorem symbol?_append (h : comparison.isOpen → rest.head? ≠ some '=') :
    Constraint.symbol? (comparison.symbol.toList ++ rest) = some (comparison, rest) := by
  cases comparison with
  | ne | le | ge | contains => rfl
  | eq | lt | gt =>
      cases rest with
      | nil => rfl
      | cons c rest =>
          have hc : c ≠ '=' := fun hc => h rfl (congrArg some hc)
          simp [symbol, Constraint.symbol?, hc]

/-- No symbol begins with white space or with what names are made of. -/
theorem exists_cons_symbol (comparison : Comparison) : ∃ c tail, comparison.symbol.toList = c :: tail ∧
    Text.isBlank c = false ∧ Name.isPart c = false := by
  cases comparison <;> exact ⟨_, _, rfl, by decide, by decide⟩

end Comparison

theorem Name.isPart_toLower {c : Char} : isPart c.toLower ↔ isPart c := by
  rw [isPart_iff, isPart_iff, isStart_iff, isStart_iff, toNat_toLower]
  split <;> omega

/-! ## What is read -/

namespace Constraint

variable {c : Category} {k : Constraint} {f : FieldDef}

/-- The field and the text of the operand that an expression gave, as far as they are read again. -/
structure Given (c : Category) (k : Constraint) (raw : String) : Prop where
  name_ne_nil : k.field.name.toList ≠ []
  name_isPart : ∀ d ∈ k.field.name.toList, Name.isPart d
  target : Constraint.target c k.field.name = .ok k.field
  trimmed : Text.trim raw = raw
  made : onField k.field k.comparison (.text raw) = .ok k

theorem name_of_target? {name : String} (h : target? c name = some f) : f.name = Text.lower name := by
  unfold target? at h
  cases hfield : c.field? name with
  | some g =>
      rw [hfield] at h
      cases h
      exact (Category.mem_of_field? hfield).2
  | none =>
      rw [hfield] at h
      have hfind : properties.find? (·.name == Text.lower name) = some f := h
      simpa using List.find?_some hfind

/-- The case of a name does not matter. -/
theorem target?_lower {name : String} (h : Text.lower (Text.lower name) = Text.lower name) :
    target? c (Text.lower name) = target? c name := by
  simp only [target?, Category.field?, h]

theorem given_of_parse {expression : String} (h : parse c expression = .ok k) :
    ∃ raw, Given c k raw := by
  unfold parse at h
  split at h
  · cases h
  · next name comparison raw hsplit =>
    obtain ⟨f, htarget, honField⟩ := bind_eq_ok_iff.1 h
    obtain ⟨-, operand, -, -, rfl⟩ := onField_eq_ok_iff.1 honField
    unfold split? at hsplit
    dsimp only at hsplit
    split at hsplit
    · cases hsplit
    · next hne =>
      obtain ⟨⟨read, rest⟩, -, heq⟩ := Option.map_eq_some_iff.1 hsplit
      cases heq
      generalize hgiven :
        (expression.toList.dropWhile Text.isBlank).takeWhile Name.isPart = given at *
      have hparts : ∀ d ∈ given, Name.isPart d := by
        rw [← hgiven]
        exact fun d => List.mem_takeWhile_imp
      have hascii : ∀ d ∈ (String.ofList given).toList, Text.isAscii d := by
        simpa using fun d hd => Name.isAscii_of_isPart (hparts d hd)
      have hlower := Text.lower_lower_of_ascii hascii
      have hname := name_of_target? (Category.target?_of_target htarget)
      have hlist : f.name.toList = given.map Char.toLower := by
        rw [hname, Text.lower_of_ascii hascii, String.toList_ofList, String.toList_ofList]
      refine ⟨_, ?_, ?_, ?_, Text.trim_trim _, honField⟩
      · rw [hlist]
        simpa using hne
      · intro d hd
        obtain ⟨e, he, rfl⟩ := List.mem_map.1 (hlist ▸ hd)
        exact Name.isPart_toLower.2 (hparts e he)
      · show Constraint.target c f.name = .ok f
        rw [Constraint.target, hname, target?_lower hlower, Category.target?_of_target htarget]

/-! ## What is shown -/

/-- The constraint is for equality with a text that begins with an equals sign, before the rest. -/
def DoublesSign (k : Constraint) (rest : List Char) : Prop :=
  k.comparison = .eq ∧ k.operand = .text (String.ofList ('=' :: rest))

theorem toList_toText (k : Constraint) : k.toText.toList =
    k.field.name.toList ++ (k.comparison.symbol.toList ++ k.operand.labelText.toList) := by
  have hlabel : (if k.operand.isNull then "" else k.operand.shown) = k.operand.labelText := by
    cases k.operand <;> rfl
  rw [toText, hlabel, String.toList_append, String.toList_append, List.append_assoc]

namespace Given

variable {raw : String}

/-- What is shown is cut behind the field. -/
theorem split?_toText (h : Given c k raw) : split? k.toText =
    (symbol? (k.comparison.symbol.toList ++ k.operand.labelText.toList)).map
      fun (comparison, rest) => (k.field.name, comparison, Text.trim (String.ofList rest)) := by
  obtain ⟨d, tail, hsymbol, hblank, hpart⟩ := k.comparison.exists_cons_symbol
  have hends : Placeholder.EndsName (k.comparison.symbol.toList ++ k.operand.labelText.toList) := by
    rw [hsymbol]
    rintro e ⟨⟩
    exact hpart
  have hskip : (k.comparison.symbol.toList ++ k.operand.labelText.toList).dropWhile Text.isBlank =
      k.comparison.symbol.toList ++ k.operand.labelText.toList := by
    rw [hsymbol]
    exact List.dropWhile_cons_of_neg (Bool.eq_false_iff.1 hblank)
  have hsplit := Category.split?_of_parts (List.forall_mem_nil _) h.name_ne_nil h.name_isPart hends
  rwa [List.nil_append, ← toList_toText, String.ofList_toList, hskip, String.ofList_toList] at hsplit

/-- What is shown is read with the symbol that stands behind the field. -/
theorem parse_toText (h : Given c k raw) {comparison : Comparison} {rest : List Char}
    (hsymbol : symbol? (k.comparison.symbol.toList ++ k.operand.labelText.toList) =
      some (comparison, rest)) :
    parse c k.toText = onField k.field comparison (.text (Text.trim (String.ofList rest))) := by
  rw [parse, h.split?_toText, hsymbol, Option.map_some]
  dsimp only
  rw [make, h.target, ok_bind]

theorem fits_and_parse (h : Given c k raw) : k.comparison.fits k.field.type ∧
    k.field.type.parse raw = .ok k.operand ∧ (k.operand = .null → k.comparison.takesNull) := by
  obtain ⟨hfits, operand, hparse, hnull, hk⟩ := onField_eq_ok_iff.1 h.made
  rw [hk]
  exact ⟨hfits, hparse, hnull⟩

/-- The operand is shown without white space around it. -/
theorem trim_labelText (h : Given c k raw) :
    Text.trim k.operand.labelText = k.operand.labelText := by
  obtain ⟨-, hparse, -⟩ := h.fits_and_parse
  have htyped := FieldType.wellTyped_of_parse hparse
  generalize k.operand = v at hparse htyped ⊢
  generalize k.field.type = t at hparse htyped
  cases htyped with
  | null => rfl
  | @text s =>
      -- a text is read as it was given
      unfold FieldType.parse at hparse
      split at hparse
      · cases hparse
      · obtain ⟨s', hs', heq⟩ := map_eq_ok_iff.1 hparse
        obtain rfl := checkText_ok hs'
        cases heq
        exact h.trimmed
  | @integer n =>
      have htrim := Binary64.trim_of_isWriting (Numeral.isWriting_toString n)
      rwa [String.ofList_toList] at htrim
  | @real x hfinite =>
      have htrim := Binary64.trim_of_isWriting (Binary64.isWriting_display hfinite)
      rwa [String.ofList_toList] at htrim

/-- Only a text behind an equals sign makes the symbol longer. -/
theorem head?_labelText (h : Given c k raw) (hk : ∀ rest, ¬k.DoublesSign rest)
    (hopen : k.comparison.isOpen) : k.operand.labelText.toList.head? ≠ some '=' := by
  have hwriting {s : String} (hs : ∀ d ∈ s.toList, Binary64.isWriting d) :
      s.toList.head? ≠ some '=' := fun hhead =>
    absurd (hs _ (List.mem_of_mem_head? hhead)) (by decide)
  obtain ⟨hfits, hparse, -⟩ := h.fits_and_parse
  have htyped := FieldType.wellTyped_of_parse hparse
  generalize htype : k.field.type = t at hfits htyped
  generalize hoperand : k.operand = v at htyped ⊢
  cases htyped with
  | null => nofun
  | integer => exact hwriting (Numeral.isWriting_toString _)
  | real hfinite => exact hwriting (Binary64.isWriting_display hfinite)
  | @text s =>
      intro hhead
      obtain ⟨rest, hs⟩ := List.head?_eq_some_iff.1 hhead
      refine hk rest ⟨?_, ?_⟩
      · generalize k.comparison = comparison at hfits hopen
        cases comparison with
        | eq => rfl
        | lt | gt => cases hfits
        | _ => cases hopen
      · rw [hoperand, ← hs]
        exact congrArg Value.text String.ofList_toList.symm

/-- A doubled equals sign is a symbol, which leaves less of the operand. -/
theorem parse_of_doublesSign (h : Given c k raw) {rest : List Char} (hk : k.DoublesSign rest) :
    ∃ operand, operand ≠ k.operand ∧
      k.field.type.parse (Text.trim (String.ofList rest)) = .ok operand ∧
      parse c k.toText = .ok ⟨k.field, .eq, operand⟩ := by
  obtain ⟨hcomparison, hoperand⟩ := hk
  obtain ⟨-, hparse, -⟩ := h.fits_and_parse
  have htyped := FieldType.wellTyped_of_parse hparse
  have hsublist : (Text.trim (String.ofList rest)).toList.Sublist rest := by
    rw [Text.trim, String.toList_ofList, String.toList_ofList]
    exact Text.trimBy_sublist ..
  have hlabel : k.operand.labelText.toList = '=' :: rest := by
    rw [hoperand]
    exact String.toList_ofList
  have hsymbol : symbol? (k.comparison.symbol.toList ++ k.operand.labelText.toList) =
      some (.eq, rest) := by
    rw [hcomparison, hlabel]
    rfl
  rw [hoperand] at htyped ⊢
  rw [h.parse_toText hsymbol]
  have hfits : Comparison.eq.fits .text := by decide
  generalize Text.trim (String.ofList rest) = tail at hsublist
  generalize k.field = f at htyped
  obtain ⟨name, type⟩ := f
  -- only texts have a text as operand, and the tail of an accepted text is accepted
  cases htyped with
  | text hne hchars =>
      rw [String.toList_ofList] at hchars
      have hread := FieldType.parse_text fun d hd =>
        hchars d (List.mem_cons_of_mem _ (hsublist.subset hd))
      refine ⟨_, ?_, hread, onField_eq_ok_iff.2 ⟨hfits, _, hread, fun _ => rfl, rfl⟩⟩
      split
      · intro hsame
        cases hsame
      · intro hsame
        have hlonger := congrArg String.toList (Value.text.inj hsame)
        rw [String.toList_ofList] at hlonger
        have hlength := hsublist.length_le
        rw [hlonger, List.length_cons] at hlength
        omega

end Given

/-! ## Main result -/

/-- A constraint that an expression gave is shown as an expression that gives it again, unless it is
for equality with a text that begins with an equals sign. Then the sign is read as part of the
symbol, and the constraint is for equality with what stands behind it. -/
theorem parse_toText_iff {expression : String} (h : parse c expression = .ok k) :
    (parse c k.toText = .ok k ↔ ∀ rest, ¬k.DoublesSign rest) ∧
    ∀ rest, k.DoublesSign rest → ∃ operand, operand ≠ k.operand ∧
      k.field.type.parse (Text.trim (String.ofList rest)) = .ok operand ∧
      parse c k.toText = .ok ⟨k.field, .eq, operand⟩ := by
  obtain ⟨raw, hgiven⟩ := given_of_parse h
  obtain ⟨hfits, hparse, hnull⟩ := hgiven.fits_and_parse
  have htyped := FieldType.wellTyped_of_parse hparse
  refine ⟨⟨fun hsame rest hk => ?_, fun hk => ?_⟩, fun rest => hgiven.parse_of_doublesSign⟩
  · obtain ⟨operand, hne, -, hread⟩ := hgiven.parse_of_doublesSign hk
    exact hne (congrArg Constraint.operand (Except.ok.inj (hread.symm.trans hsame)))
  · have hsymbol := Comparison.symbol?_append (hgiven.head?_labelText hk)
    rw [hgiven.parse_toText hsymbol, String.ofList_toList, hgiven.trim_labelText]
    exact onField_eq_ok_iff.2 ⟨hfits, k.operand, htyped.parse_labelText, hnull, rfl⟩

/-- A size that contains an equals sign is shown with no second symbol. -/
theorem containment_read_again :
    let size : FieldDef := ⟨"size", .text⟩
    let tools : Category := ⟨"tools", [size]⟩
    let k : Constraint := ⟨size, .contains, .text "=x"⟩
    parse tools " Size ~ =x" = .ok k ∧ k.toText = "size~=x" ∧ parse tools k.toText = .ok k := by
  intro size tools k
  have hread : parse tools " Size ~ =x" = .ok k := rfl
  exact ⟨hread, rfl, (parse_toText_iff hread).1.2 fun _ hk => absurd hk.1 (by decide)⟩

/-- A size that equals a text with an equals sign in front is shown as one that equals the text
without it. -/
theorem equality_read_differently :
    let size : FieldDef := ⟨"size", .text⟩
    let tools : Category := ⟨"tools", [size]⟩
    let k : Constraint := ⟨size, .eq, .text "=x"⟩
    parse tools "size= =x" = .ok k ∧ k.toText = "size==x" ∧
      parse tools k.toText = .ok ⟨size, .eq, .text "x"⟩ ∧ parse tools k.toText ≠ .ok k := by
  intro size tools k
  have hshown : k.toText = "size==x" := rfl
  have hread : parse tools "size==x" = .ok ⟨size, .eq, .text "x"⟩ := rfl
  rw [hshown]
  refine ⟨rfl, rfl, hread, fun hsame => ?_⟩
  have hoperand := congrArg Constraint.operand (Except.ok.inj (hread.symm.trans hsame))
  exact absurd (Value.text.inj hoperand) (by decide)

end Constraint

end Inventory
