import Inventory.Proofs.Labels
import Inventory.Proofs.Rejection
import Inventory.Proofs.Writing

/-!
# Well-typed values

Coercion to a type reaches null or a value that the type has: a text that documents can hold, a
whole number of 64 bits, a finite real number. These are the values that coercion leaves as they
are, and reading the text in which one is shown gives it again. What a type accepts without coercion
is more than that, by texts and real numbers whose content is not looked at.
-/

namespace Inventory

section Checks

variable {c : Char} {s : String} {n : Int}

theorem isXmlIllegal_of_isChar (h : Xml.isChar c) : isXmlIllegal c = false := by
  simp only [isXmlIllegal, Xml.isChar, Bool.or_eq_false_iff, Bool.and_eq_false_iff,
    Bool.or_eq_true, Bool.and_eq_true, beq_iff_eq, beq_eq_false_iff_ne, decide_eq_true_eq,
    decide_eq_false_iff_not] at h ⊢
  omega

theorem checkText_of_isChar (h : ∀ c ∈ s.toList, Xml.isChar c) (what : String) :
    checkText s what = .ok s :=
  checkText_eq_ok what (List.all_eq_true.2 fun c hc => by simp [isXmlIllegal_of_isChar (h c hc)])

theorem inInt64_iff : inInt64 n ↔ -2 ^ 63 ≤ n ∧ n ≤ 2 ^ 63 - 1 := by
  rw [inInt64, Bool.and_eq_true, decide_eq_true_iff, decide_eq_true_iff]
  norm_num [int64Min, int64Max]

end Checks

namespace FieldType

variable {t : FieldType} {v w : Value}

/-- The values of a type, and null. -/
inductive WellTyped : FieldType → Value → Prop
  | null {t : FieldType} : WellTyped t .null
  | text {s : String} (nonempty : s ≠ "") (chars : ∀ c ∈ s.toList, Xml.isChar c) :
      WellTyped .text (.text s)
  | integer {n : Int} (range : -2 ^ 63 ≤ n ∧ n ≤ 2 ^ 63 - 1) : WellTyped .integer (.int n)
  | real {x : Binary64} (finite : x.isFinite) : WellTyped .real (.real x)

/-! ## What coercion gives -/

theorem wellTyped_of_parse {raw : String} (h : t.parse raw = .ok w) : t.WellTyped w := by
  unfold parse at h
  split at h
  · cases h
    exact .null
  · next hne =>
    cases t with
    | text =>
        obtain ⟨s, hs, rfl⟩ := map_eq_ok_iff.1 h
        have hchars := isChar_of_checkText hs
        obtain rfl := checkText_ok hs
        exact .text hne hchars
    | integer =>
        obtain ⟨n, hn, rfl⟩ := map_eq_ok_iff.1 h
        exact .integer (inInt64_iff.1 (parseInteger_ok hn))
    | real =>
        obtain ⟨x, hx, rfl⟩ := map_eq_ok_iff.1 h
        unfold parseReal at hx
        split at hx
        · cases hx
        · split at hx <;> cases hx
          exact .real ‹_›

theorem wellTyped_of_coerce (h : t.coerce v = .ok w) : t.WellTyped w := by
  cases v with
  | null =>
      cases h
      exact .null
  | text raw => exact wellTyped_of_parse h
  | bool b => cases h
  | list items => cases h
  | mapping items => cases h
  | int n =>
      cases t with
      | text => cases h
      | integer =>
          obtain ⟨m, hm, rfl⟩ := map_eq_ok_iff.1 h
          obtain ⟨rfl, hn⟩ := checkRange_ok hm
          exact .integer (inInt64_iff.1 hn)
      | real =>
          simp only [coerce] at h
          split at h <;> cases h
          exact .real (Binary64.isFinite_of_ofInt? ‹_›)
  | real x =>
      cases t with
      | text => cases h
      | integer => cases h
      | real =>
          simp only [coerce] at h
          split at h <;> cases h
          exact .real ‹_›

/-- Only null and the empty text are coerced to null. -/
theorem null_iff_of_parse {raw : String} (h : t.parse raw = .ok w) : w = .null ↔ raw = "" := by
  unfold parse at h
  split at h
  · next hempty =>
    cases h
    exact iff_of_true rfl hempty
  · next hne =>
    refine iff_of_false ?_ hne
    rintro rfl
    cases t <;> obtain ⟨x, -, hx⟩ := map_eq_ok_iff.1 h <;> cases hx

theorem null_iff_of_coerce (h : t.coerce v = .ok w) : w = .null ↔ v = .null ∨ v = .text "" := by
  cases v with
  | null =>
      cases h
      simp
  | text raw => simpa using null_iff_of_parse h
  | bool b => cases h
  | list items => cases h
  | mapping items => cases h
  | int n =>
      refine iff_of_false ?_ (by simp)
      rintro rfl
      cases t with
      | text => cases h
      | integer =>
          obtain ⟨m, -, hm⟩ := map_eq_ok_iff.1 h
          cases hm
      | real =>
          simp only [coerce] at h
          split at h <;> cases h
  | real x =>
      refine iff_of_false ?_ (by simp)
      rintro rfl
      cases t with
      | text => cases h
      | integer => cases h
      | real =>
          simp only [coerce] at h
          split at h <;> cases h

/-! ## What is read back -/

theorem parseInteger_toString {n : Int} (hn : inInt64 n) : parseInteger (toString n) = .ok n := by
  have htrim := Binary64.trim_of_isWriting (Numeral.isWriting_toString n)
  rw [String.ofList_toList] at htrim
  rw [parseInteger, htrim, Numeral.isIntegerText_toString,
    Numeral.read_toString (Numeral.isWritable_of_inInt64 hn)]
  exact if_pos hn

/-- What is read as a whole number is not the empty text. -/
theorem parse_of_parseInteger {raw : String} {n : Int} (h : parseInteger raw = .ok n) :
    parse .integer raw = .ok (.int n) := by
  have hne : raw ≠ "" := by
    rintro rfl
    cases h
  rw [parse, if_neg hne, h]
  rfl

theorem parseReal_display {x : Binary64} (hx : x.isFinite) : parseReal x.display = .ok x := by
  have htrim := Binary64.trim_of_isWriting (Binary64.isWriting_display hx)
  rw [String.ofList_toList] at htrim
  rw [parseReal, htrim, Binary64.read?_display hx]
  exact if_pos hx

/-- What is read as a real number is not the empty text. -/
theorem parse_of_parseReal {raw : String} {x : Binary64} (h : parseReal raw = .ok x) :
    parse .real raw = .ok (.real x) := by
  have hne : raw ≠ "" := by
    rintro rfl
    have hnone : Binary64.read? (Text.trim "") = none := by decide +kernel
    rw [parseReal, hnone] at h
    cases h
  rw [parse, if_neg hne, h]
  rfl

namespace WellTyped

/-! ## What is coerced to itself -/

theorem coerce_eq (h : t.WellTyped w) : t.coerce w = .ok w := by
  cases h with
  | null => rfl
  | text hne hchars => rw [coerce, parse, if_neg hne, checkText_of_isChar hchars]; rfl
  | integer hrange => rw [coerce, checkRange, if_pos (inInt64_iff.2 hrange)]; rfl
  | real hfinite => rw [coerce, if_pos hfinite]

theorem accepts (h : t.WellTyped w) : t.accepts w :=
  accepts_of_coerce h.coerce_eq

/-- A well-typed value can be shown. -/
theorem writeLabel_eq (h : t.WellTyped w) : w.writeLabel = .ok w.labelText :=
  if_pos (isWritable_of_accepts h.accepts)

/-- Reading the text in which a well-typed value is shown gives the value again. -/
theorem parse_labelText (h : t.WellTyped w) : t.parse w.labelText = .ok w := by
  cases h with
  | null => rfl
  | @text s hne hchars =>
      show parse .text s = _
      rw [parse, if_neg hne, checkText_of_isChar hchars]
      rfl
  | integer hrange => exact parse_of_parseInteger (parseInteger_toString (inInt64_iff.2 hrange))
  | real hfinite => exact parse_of_parseReal (parseReal_display hfinite)

end WellTyped

theorem coerce_eq_self_iff : t.coerce v = .ok v ↔ t.WellTyped v :=
  ⟨wellTyped_of_coerce, WellTyped.coerce_eq⟩

/-- Where coercion gives a value, the value is well-typed: the type accepts it, and coerces it to
itself. It is null only for null and the empty text. It can be shown, and reading the text in which
it is shown gives the value again. -/
theorem coerce_reaches_wellTyped (h : t.coerce v = .ok w) :
    t.WellTyped w ∧ t.accepts w ∧ t.coerce w = .ok w ∧ (w = .null ↔ v = .null ∨ v = .text "") ∧
      w.writeLabel = .ok w.labelText ∧ t.parse w.labelText = .ok w :=
  have hw := wellTyped_of_coerce h
  ⟨hw, hw.accepts, hw.coerce_eq, null_iff_of_coerce h, hw.writeLabel_eq, hw.parse_labelText⟩

/-- A whole number in digits of another script, with a sign and surrounded by blanks. -/
theorem coerce_signed_digits :
    integer.coerce (.text " -٤٢\t") = .ok (.int (-42)) ∧ integer.WellTyped (.int (-42)) ∧
      (Value.int (-42)).labelText = "-42" ∧ integer.parse "-42" = .ok (.int (-42)) := by
  have hcoerce : integer.coerce (.text " -٤٢\t") = .ok (.int (-42)) := by rfl
  obtain ⟨htyped, -, -, -, -, hread⟩ := coerce_reaches_wellTyped hcoerce
  exact ⟨hcoerce, htyped, rfl, hread⟩

/-! ## What is accepted -/

/-- Values of the right kind whose content keeps them from being well-typed: texts that are empty or
that no document may hold, and real numbers that are not finite. -/
inductive Overlooks : FieldType → Value → Prop
  | empty : Overlooks .text (.text "")
  | illegal {s : String} {c : Char} (char : c ∈ s.toList) (notChar : ¬Xml.isChar c) :
      Overlooks .text (.text s)
  | infinite {negative : Bool} : Overlooks .real (.real (.infinite negative))
  | nan : Overlooks .real (.real .nan)

/-- Accepted values are well-typed up to what is overlooked. -/
theorem accepts_iff : t.accepts v ↔ t.WellTyped v ∨ t.Overlooks v := by
  constructor
  · intro h
    cases v with
    | null => exact .inl .null
    | text s =>
        obtain rfl : t = .text := by simpa [accepts] using h
        by_cases hne : s = ""
        · exact .inr (hne ▸ .empty)
        · by_cases hchars : ∀ c ∈ s.toList, Xml.isChar c
          · exact .inl (.text hne hchars)
          · obtain ⟨c, hc, hnot⟩ : ∃ c ∈ s.toList, ¬Xml.isChar c := by simpa using hchars
            exact .inr (.illegal hc hnot)
    | int n =>
        simp only [accepts, Bool.and_eq_true, beq_iff_eq] at h
        obtain ⟨rfl, hrange⟩ := h
        exact .inl (.integer (inInt64_iff.1 hrange))
    | real x =>
        obtain rfl : t = .real := by simpa [accepts] using h
        cases x with
        | finite negative magnitude hfinite => exact .inl (.real rfl)
        | infinite negative => exact .inr .infinite
        | nan => exact .inr .nan
    | bool b => cases h
    | list items => cases h
    | mapping items => cases h
  · rintro (h | h)
    · exact h.accepts
    · cases h <;> rfl

/-- What is overlooked is not well-typed. -/
theorem Overlooks.not_wellTyped (h : t.Overlooks v) : ¬t.WellTyped v := by
  intro hw
  cases h with
  | empty => cases hw; contradiction
  | illegal hc hnot =>
      cases hw with
      | text _ hchars => exact hnot (hchars _ hc)
  | infinite => cases hw; contradiction
  | nan => cases hw; contradiction

end FieldType

end Inventory
