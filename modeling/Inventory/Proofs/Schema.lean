import Inventory.Proofs.Fallible
import Inventory.Schema.Category

/-!
# Checked names and categories

A name that was checked is in lower case, and looking it up does not change it any more. A
category that was defined has at least one field, and its id and its field names are such names.
-/

namespace Inventory

/-! ## Lower case -/

namespace Text

theorem isAscii_toLower {c : Char} (h : isAscii c) : isAscii c.toLower := by
  simp only [isAscii, decide_eq_true_eq] at h ⊢
  unfold Char.toLower
  split
  · next hc =>
      have hle : c.toNat ≤ 90 := UInt32.le_iff_toNat_le.1 hc.2
      show (c.val + 32).toNat < 128
      rw [UInt32.toNat_add]
      show (c.toNat + 32) % 2 ^ 32 < 128
      omega
  · exact h

theorem toLower_toLower (c : Char) : c.toLower.toLower = c.toLower := by
  unfold Char.toLower
  split <;> grind [UInt32.toNat_add]

/-- ASCII texts are lowered character by character; the final sigma is not among them. -/
theorem lowerAfter_of_ascii (cs : List Char) :
    ∀ before, (∀ c ∈ cs, isAscii c) → lowerAfter before cs = cs.map Char.toLower := by
  induction cs with
  | nil => intro _ _; rfl
  | cons c rest ih =>
      intro before h
      have hc : isAscii c := h c (by simp)
      have hsigma : c ≠ 'Σ' := by
        rintro rfl
        exact absurd hc (by decide)
      rw [lowerAfter, if_neg hsigma, lowerChar, if_pos hc,
        ih (c :: before) fun d hd => h d (by simp [hd])]
      rfl

theorem lower_of_ascii {s : String} (h : ∀ c ∈ s.toList, isAscii c) :
    lower s = String.ofList (s.toList.map Char.toLower) := by
  rw [lower, lowerAfter_of_ascii _ _ h]

theorem lower_lower_of_ascii {s : String} (h : ∀ c ∈ s.toList, isAscii c) :
    lower (lower s) = lower s := by
  have hlower : ∀ c ∈ (lower s).toList, isAscii c := by
    intro c hc
    rw [lower_of_ascii h, String.toList_ofList, List.mem_map] at hc
    obtain ⟨d, hd, rfl⟩ := hc
    exact isAscii_toLower (h d hd)
  rw [lower_of_ascii hlower, lower_of_ascii h, String.toList_ofList, List.map_map]
  congr 1
  exact List.map_congr_left fun c _ => toLower_toLower c

end Text

/-! ## Names -/

namespace Name

theorem isAscii_of_isPart {c : Char} (h : isPart c) : Text.isAscii c := by
  unfold isPart Char.isAlphanum Char.isAlpha Char.isUpper Char.isLower Char.isDigit at h
  simp only [Bool.or_eq_true, beq_iff_eq, Bool.and_eq_true, decide_eq_true_eq,
    UInt32.le_iff_toNat_le, ge_iff_le] at h
  simp only [Text.isAscii, decide_eq_true_eq]
  rcases h with h | rfl
  · have hn : c.toNat = c.val.toNat := rfl
    have hZ : 'Z'.val.toNat = 90 := rfl
    have hz : 'z'.val.toNat = 122 := rfl
    have h9 : '9'.val.toNat = 57 := rfl
    omega
  · decide

theorem isPart_of_isStart {c : Char} (h : isStart c) : isPart c := by
  unfold isStart at h
  unfold isPart Char.isAlphanum
  simp only [Bool.or_eq_true] at h ⊢
  rcases h with h | h
  · exact .inl (.inl h)
  · exact .inr h

/-- A name has parts of names only, and maybe a line feed at its end. -/
theorem isPart_of_isName {s : String} (h : isName s) : ∀ c ∈ s.toList, isPart c ∨ c = '\n' := by
  have hbody : ∀ c ∈ body s, isPart c := by
    intro c hc
    unfold isName at h
    split at h
    · cases h
    · next d rest hd =>
        rw [hd] at hc
        simp only [Bool.and_eq_true, List.all_eq_true] at h
        rcases List.mem_cons.1 hc with rfl | hc
        · exact isPart_of_isStart h.1
        · exact h.2 c hc
  intro c hc
  unfold body at hbody
  split at hbody
  · next hlast =>
      obtain ⟨before, hs⟩ := List.getLast?_eq_some_iff.1 hlast
      rw [hs, List.dropLast_concat] at hbody
      rw [hs, List.mem_append, List.mem_singleton] at hc
      exact hc.imp_left (hbody c)
  · exact .inl (hbody c hc)

/-- A name has ASCII characters only, also with a line feed at its end. -/
theorem ascii_of_isName {s : String} (h : isName s) : ∀ c ∈ s.toList, Text.isAscii c := by
  intro c hc
  rcases isPart_of_isName h c hc with hpart | rfl
  · exact isAscii_of_isPart hpart
  · decide

theorem check_ok {name : Value} {what : String} {allow : Bool} {canonical : String}
    (h : check name what allow = .ok canonical) :
    ∃ s, name = .text s ∧ isName s ∧ canonical = Text.lower s := by
  unfold check at h
  split at h
  · next s =>
      by_cases hn : isName s
      · simp only [hn, Bool.not_true, Bool.false_eq_true, if_false] at h
        split at h
        · cases h
        · cases h
          exact ⟨s, rfl, hn, rfl⟩
      · simp [hn] at h
  · cases h

/-- A checked name is in lower case. -/
theorem lower_of_check {name : Value} {what : String} {allow : Bool} {canonical : String}
    (h : check name what allow = .ok canonical) : Text.lower canonical = canonical := by
  obtain ⟨s, -, hs, rfl⟩ := check_ok h
  exact Text.lower_lower_of_ascii (ascii_of_isName hs)

end Name

/-! ## Categories -/

/-- What holds of every category that can be defined: the id is in lower case, there is at least
one field, and the names of the fields are in lower case and differ. -/
structure Category.Canonical (c : Category) : Prop where
  id_lower : Text.lower c.id = c.id
  nonempty : c.fields ≠ []
  names_lower : ∀ f ∈ c.fields, Text.lower f.name = f.name
  names_nodup : c.fieldNames.Nodup

namespace Category

theorem checkFields_ok (id : String) (given : List (Value × FieldType)) :
    ∀ (seen : List String) (fields : List FieldDef), checkFields id seen given = .ok fields →
      fields.length = given.length ∧ (∀ f ∈ fields, Text.lower f.name = f.name) ∧
        (∀ f ∈ fields, f.name ∉ seen) ∧ (fields.map (·.name)).Nodup := by
  induction given with
  | nil =>
      rintro seen fields ⟨⟩
      simp
  | cons g rest ih =>
      intro seen fields h
      obtain ⟨name, type⟩ := g
      simp only [checkFields, bind_eq_ok_iff, guard_eq_ok_iff] at h
      obtain ⟨canonical, hname, hseen, others, hrest, h⟩ := h
      cases h
      obtain ⟨hlen, hlower, hnew, hnodup⟩ := ih _ _ hrest
      have hcanonical : Text.lower canonical = canonical := Name.lower_of_check hname
      have hfresh : canonical ∉ others.map (·.name) := by
        intro hmem
        obtain ⟨f, hf, heq⟩ := List.mem_map.1 hmem
        exact hnew f hf (by simp [heq])
      refine ⟨by simp [hlen], ?_, ?_, List.nodup_cons.2 ⟨hfresh, hnodup⟩⟩
      · intro f hf
        rcases List.mem_cons.1 hf with rfl | hf
        · exact hcanonical
        · exact hlower f hf
      · intro f hf
        rcases List.mem_cons.1 hf with rfl | hf
        · simpa using hseen
        · exact fun hmem => hnew f hf (List.mem_cons_of_mem _ hmem)

theorem define_canonical {id : Value} {given : List (Value × FieldType)} {c : Category}
    (h : define id given = .ok c) : c.Canonical := by
  simp only [define, bind_eq_ok_iff, guard_eq_ok_iff] at h
  obtain ⟨hempty, canonical, hid, fields, hfields, h⟩ := h
  cases h
  obtain ⟨hlen, hlower, -, hnodup⟩ := checkFields_ok _ _ _ _ hfields
  refine ⟨Name.lower_of_check hid, ?_, hlower, hnodup⟩
  rintro rfl
  rw [List.length_nil] at hlen
  exact hempty (List.isEmpty_iff.2 (List.length_eq_zero_iff.1 hlen.symm))

/-- A name in lower case is looked up as it is. -/
theorem field?_of_lower (c : Category) {name : String} (h : Text.lower name = name) :
    c.field? name = c.fields.find? (·.name == name) := by
  rw [field?, h]

/-- What is looked up is a field that has the name in lower case. -/
theorem mem_of_field? {c : Category} {name : String} {f : FieldDef} (h : c.field? name = some f) :
    f ∈ c.fields ∧ f.name = Text.lower name :=
  ⟨List.mem_of_find?_eq_some h, by simpa using List.find?_some h⟩

theorem Canonical.withField {c : Category} (h : c.Canonical) {f : FieldDef}
    (hlower : Text.lower f.name = f.name) (hfresh : c.field? f.name = none) :
    (c.withField f).Canonical where
  id_lower := h.id_lower
  nonempty := by simp [Category.withField]
  names_lower := by
    intro g hg
    rcases List.mem_append.1 hg with hg | hg
    · exact h.names_lower g hg
    · rw [List.mem_singleton.1 hg, hlower]
  names_nodup := by
    rw [field?_of_lower c hlower, List.find?_eq_none] at hfresh
    have hnew : ∀ name ∈ c.fieldNames, name ≠ f.name := by
      intro name hname
      obtain ⟨g, hg, rfl⟩ := List.mem_map.1 hname
      simpa using hfresh g hg
    have hnames : (c.withField f).fieldNames = c.fieldNames ++ [f.name] := by
      simp [fieldNames, Category.withField]
    rw [hnames]
    exact List.nodup_append.2 ⟨h.names_nodup, by simp, by simpa using hnew⟩

end Category

end Inventory
