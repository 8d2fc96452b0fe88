import Inventory.Proofs.Constraints
import Inventory.Proofs.Stored
import Mathlib.Data.List.Perm.Basic

/-!
# How comparisons split a category

An entry has nothing in a field, or a value that equals an operand or differs from it. A number
lies below the operand, at it or above it. So the constraints with these comparisons split every
list of entries: each entry goes to exactly one part, and the parts keep the order of the list.
-/

namespace Inventory

/-! ## Splitting lists -/

/-- Each entry satisfies exactly one of the constraints. Filtering by them one at a time gives parts
that make up the list together, each in the order of the list. -/
structure Constraint.Splits (ks : List Constraint) (es : List Entry) : Prop where
  exactlyOne : ∀ e ∈ es, ks.countP (·.holds e) = 1
  whole : (ks.flatMap fun k => FilterSet.apply [k] es).Perm es
  ordered : ∀ k ∈ ks, (FilterSet.apply [k] es).Sublist es

namespace Constraint

variable {ks : List Constraint} {e : Entry} {es : List Entry}

theorem apply_cons (k : Constraint) (e : Entry) (es : List Entry) :
    FilterSet.apply [k] (e :: es) =
      (if k.holds e then [e] else []) ++ FilterSet.apply [k] es := by
  cases h : k.holds e <;> simp [FilterSet.apply, h]

/-- One constraint after the other, an entry is kept as often as constraints are satisfied. -/
theorem flatMap_holds (ks : List Constraint) (e : Entry) :
    (ks.flatMap fun k => if k.holds e then [e] else []) =
      List.replicate (ks.countP (·.holds e)) e := by
  induction ks with
  | nil => rfl
  | cons k ks ih =>
      rw [List.flatMap_cons, ih]
      cases h : k.holds e <;> simp [h, List.replicate_succ]

theorem splits_of_countP (h : ∀ e ∈ es, ks.countP (·.holds e) = 1) : Splits ks es where
  exactlyOne := h
  whole := by
    -- the first entry stands in one part only, and the rest of the parts splits the rest
    induction es with
    | nil => simp [FilterSet.apply]
    | cons e es ih =>
        obtain ⟨hone, hrest⟩ := List.forall_mem_cons.1 h
        have hfirst : (ks.flatMap fun k => FilterSet.apply [k] (e :: es)).Perm
            ((ks.flatMap fun k => if k.holds e then [e] else []) ++
              ks.flatMap fun k => FilterSet.apply [k] es) := by
          simp only [apply_cons]
          exact (List.flatMap_append_perm ..).symm
        rw [flatMap_holds, hone] at hfirst
        exact hfirst.trans ((ih hrest).cons e)
  ordered k _ := List.filter_sublist

end Constraint

/-! ## Comparing values -/

/-- The value is no infinite real number, and none that is not a number. -/
def Value.isFinite : Value → Bool
  | .real x => x.isFinite
  | _ => true

namespace FieldType

variable {t : FieldType} {v w : Value}

theorem WellTyped.isFinite (h : t.WellTyped v) : v.isFinite := by
  cases h with
  | real hfinite => exact hfinite
  | null | text | integer => rfl

/-- Of accepted numbers only the infinite ones are not well-typed. -/
theorem wellTyped_of_isFinite (ht : t ≠ .text) (h : t.accepts v) (hfinite : v.isFinite) :
    t.WellTyped v := by
  rcases accepts_iff.1 h with h | h
  · exact h
  · cases h with
    | empty | illegal => exact absurd rfl ht
    | infinite | nan => cases hfinite

/-- Numbers of one type have places in an order, and are compared by them. -/
theorem WellTyped.exists_order (ht : t ≠ .text) (hw : t.WellTyped w) (hv : t.WellTyped v)
    (hwnull : w ≠ .null) (hvnull : v ≠ .null) :
    ∃ a b : Int, ∀ comparison : Comparison, comparison.holds w v = comparison.ofOrder a b := by
  cases hw with
  | null => exact absurd rfl hwnull
  | text => exact absurd rfl ht
  | integer =>
      cases hv with
      | null => exact absurd rfl hvnull
      | integer => exact ⟨_, _, fun comparison => rfl⟩
  | @real x hx =>
      cases hv with
      | null => exact absurd rfl hvnull
      | @real y hy =>
          cases x with
          | infinite | nan => cases hx
          | finite =>
              cases y with
              | infinite | nan => cases hy
              | finite => exact ⟨_, _, fun comparison => by cases comparison <;> rfl⟩

/-- Values of one type are equal or different, but not both. -/
theorem holds_ne (hw : t.accepts w) (hv : t.accepts v) (hwfinite : w.isFinite) (hvfinite : v.isFinite)
    (hwnull : w ≠ .null) (hvnull : v ≠ .null) :
    Comparison.ne.holds w v = !Comparison.eq.holds w v := by
  by_cases ht : t = .text
  · subst ht
    cases w with
    | text s =>
        cases v with
        | text u => rfl
        | null => exact absurd rfl hvnull
        | _ => cases hv
    | null => exact absurd rfl hwnull
    | _ => cases hw
  · obtain ⟨a, b, horder⟩ := WellTyped.exists_order ht (wellTyped_of_isFinite ht hw hwfinite)
      (wellTyped_of_isFinite ht hv hvfinite) hwnull hvnull
    rw [horder, horder]
    rfl

end FieldType

/-! ## Splitting a category -/

/-- The entry conforms to the category as loading gives it: it has an accepted value for each
declared field, and its quantity is a whole number of 64 bits that is not negative. Its real numbers
are finite. -/
structure Category.Conforms (c : Category) (e : Entry) : Prop where
  category : e.category = c.id
  names : e.fields.names = c.fieldNames
  fields : ∀ f ∈ c.fields, ∃ v, e.fields.get? f.name = some v ∧ f.type.accepts v ∧ v.isFinite
  quantity : ∃ n : Int, e.quantity = .int n ∧ 0 ≤ n ∧ n ≤ int64Max

namespace Category.Conforms

variable {c : Category} {e : Entry} {f : FieldDef} {v : Value}

/-- What is loaded conforms, as long as its numbers are none that only a changed row can hold. -/
theorem of_load {r : Record} (hc : c.Canonical) (hload : r.load c = .ok e)
    (hquantity : ∀ n, r.quantity = .int n → n ≤ int64Max)
    (hfinite : ∀ p ∈ e.fields, p.2.isFinite) : c.Conforms e where
  category := Record.category_of_load hload
  names := names_of_forall₂ (Record.fields_of_load hload)
  fields := by
    intro f hf
    obtain ⟨g, hg, hname, v, hget, hreads⟩ :=
      get?_of_forall₂ (Record.fields_of_load hload) (List.mem_map_of_mem hf)
    obtain rfl : g = f := hc.field_unique hg hf hname
    exact ⟨v, hget, hreads.accepts, hfinite _ (Mapping.mem_of_get? hget)⟩
  quantity := by
    rw [Record.load_of_declaresAll (Record.declaresAll_of_load hload), bind_eq_ok_iff] at hload
    obtain ⟨fields, -, hentry⟩ := hload
    obtain ⟨n, hn, hlow, rfl⟩ := Record.entry_eq_ok_iff.1 hentry
    exact ⟨n, rfl, hlow, hquantity n hn⟩

/-- Where it can be constrained, an entry has an accepted value. -/
theorem value (h : c.Conforms e) (hc : c.Definable) (hf : f ∈ c.constrainable) :
    f.type.accepts (e.value f.name) ∧ (e.value f.name).isFinite := by
  rcases List.mem_append.1 hf with hf | hf
  · obtain ⟨v, hget, hv⟩ := h.fields f hf
    rw [Entry.value_field hc hf, hget]
    exact hv
  · obtain ⟨n, hn, hlow, hhigh⟩ := h.quantity
    simp only [Constraint.properties, List.mem_cons, List.not_mem_nil, or_false] at hf
    rcases hf with rfl | rfl | rfl
    · exact ⟨rfl, rfl⟩
    · exact ⟨rfl, rfl⟩
    · have hvalue : e.value "quantity" = .int n := hn
      rw [hvalue]
      exact ⟨(inInt64_of_amount hlow hhigh).1, rfl⟩

/-- Either an entry has nothing in a field and satisfies no comparison with a value, or it has
something there, which equals the value or differs from it, and a number is compared in an order. -/
theorem holds_cases (h : c.Conforms e) (hc : c.Definable) (hf : f ∈ c.constrainable)
    (hv : f.type.accepts v) (hfinite : v.isFinite) (hnull : v ≠ .null) :
    e.value f.name = .null ∧ (∀ comparison, (⟨f, comparison, v⟩ : Constraint).holds e = false) ∨
      e.value f.name ≠ .null ∧
        (⟨f, .ne, v⟩ : Constraint).holds e = !(⟨f, .eq, v⟩ : Constraint).holds e ∧
        (f.type ≠ .text → ∃ a b : Int,
          ∀ comparison, (⟨f, comparison, v⟩ : Constraint).holds e = comparison.ofOrder a b) := by
  obtain ⟨haccepts, hvalue⟩ := h.value hc hf
  by_cases hw : e.value f.name = .null
  · exact .inl ⟨hw, fun comparison => Constraint.not_holds_of_null hnull hw⟩
  · have hholds (comparison : Comparison) : (⟨f, comparison, v⟩ : Constraint).holds e =
        comparison.holds (e.value f.name) v :=
      Constraint.holds_of_value hnull rfl hw haccepts
    simp only [hholds]
    refine .inr ⟨hw, FieldType.holds_ne haccepts hv hvalue hfinite hw hnull, fun ht => ?_⟩
    exact FieldType.WellTyped.exists_order ht (FieldType.wellTyped_of_isFinite ht haccepts hvalue)
      (FieldType.wellTyped_of_isFinite ht hv hfinite) hw hnull

end Category.Conforms

namespace Constraint

variable {c : Category} {es : List Entry} {f : FieldDef} {v : Value}

theorem splits_null (f : FieldDef) (es : List Entry) : Splits [⟨f, .eq, .null⟩, ⟨f, .ne, .null⟩] es := by
  refine splits_of_countP fun e _ => ?_
  by_cases hnull : e.value f.name = .null
  · simp [holds_eq_null, holds_ne_null, hnull]
  · simp [holds_eq_null, holds_ne_null, hnull]

variable (hc : c.Definable) (hes : ∀ e ∈ es, c.Conforms e) (hf : f ∈ c.constrainable)
  (hv : f.type.accepts v) (hfinite : v.isFinite) (hnull : v ≠ .null)

include hc hes hf hv hfinite hnull

theorem splits_equality : Splits [⟨f, .eq, v⟩, ⟨f, .ne, v⟩, ⟨f, .eq, .null⟩] es := by
  refine splits_of_countP fun e he => ?_
  rcases (hes e he).holds_cases hc hf hv hfinite hnull with ⟨hnone, hholds⟩ | ⟨hsome, hne, -⟩
  · simp [hholds, holds_eq_null, hnone]
  · cases heq : (⟨f, .eq, v⟩ : Constraint).holds e <;>
      simp [heq, hne, holds_eq_null, hsome]

/-- Comparisons of which exactly one holds of any two places in an order split the list together
with the test for null. -/
theorem splits_order (ht : f.type ≠ .text) (comparisons : List Comparison)
    (hone : ∀ a b : Int, comparisons.countP (·.ofOrder a b) = 1) :
    Splits (comparisons.map (⟨f, ·, v⟩) ++ [⟨f, .eq, .null⟩]) es := by
  refine splits_of_countP fun e he => ?_
  rw [List.countP_append, List.countP_map]
  rcases (hes e he).holds_cases hc hf hv hfinite hnull with ⟨hnone, hholds⟩ | ⟨hsome, -, horder⟩
  · simp [Function.comp_def, hholds, holds_eq_null, hnone]
  · obtain ⟨a, b, hholds⟩ := horder ht
    simp [Function.comp_def, hholds, hone a b, holds_eq_null, hsome]

/-- The comparisons with "or equal" hold where one of the two others holds. -/
theorem holds_or_equal (ht : f.type ≠ .text) {e : Entry} (he : e ∈ es) :
    ((⟨f, .le, v⟩ : Constraint).holds e ↔
      (⟨f, .lt, v⟩ : Constraint).holds e ∨ (⟨f, .eq, v⟩ : Constraint).holds e) ∧
    ((⟨f, .ge, v⟩ : Constraint).holds e ↔
      (⟨f, .gt, v⟩ : Constraint).holds e ∨ (⟨f, .eq, v⟩ : Constraint).holds e) := by
  rcases (hes e he).holds_cases hc hf hv hfinite hnull with ⟨-, hholds⟩ | ⟨-, -, horder⟩
  · simp [hholds]
  · obtain ⟨a, b, hholds⟩ := horder ht
    simp only [hholds, Comparison.ofOrder, decide_eq_true_eq, beq_iff_eq]
    omega

end Constraint

namespace Comparison

/-- Of two places one is below the other, or they are the same. -/
theorem countP_three (a b : Int) : [lt, eq, gt].countP (·.ofOrder a b) = 1 := by
  rcases lt_trichotomy a b with h | h | h
  · simp [ofOrder, h, h.ne, h.not_gt]
  · simp [ofOrder, h]
  · simp [ofOrder, h, h.ne', h.not_gt]

theorem countP_le_gt (a b : Int) : [le, gt].countP (·.ofOrder a b) = 1 := by
  rcases le_or_gt a b with h | h
  · simp [ofOrder, h, h.not_gt]
  · simp [ofOrder, h, h.not_ge]

theorem countP_lt_ge (a b : Int) : [lt, ge].countP (·.ofOrder a b) = 1 := by
  rcases lt_or_ge a b with h | h
  · simp [ofOrder, h, h.not_ge]
  · simp [ofOrder, h, h.not_gt]

end Comparison

/-- For a field of a category and a value that its type accepts, constraints are made of the field,
a comparison and what coercion gives for the operand. Those with the value and with null split the
entries that conform to the category: into equal, different and null ones, into null ones and
others, and numbers into those below, at and above the value and null ones, where "or equal" joins
two of these. -/
theorem Constraint.comparisons_split {c : Category} (hc : c.Definable) {es : List Entry}
    (hes : ∀ e ∈ es, c.Conforms e) {f : FieldDef} (hf : f ∈ c.constrainable) {v : Value}
    (hv : f.type.accepts v) (hfinite : v.isFinite) (hnull : v ≠ .null) :
    (∀ name comparison given operand, Text.lower name = f.name →
      f.type.coerce given = .ok operand → comparison.fits f.type →
      (operand = .null → comparison.takesNull) →
        make c name comparison given = .ok ⟨f, comparison, operand⟩) ∧
    Splits [⟨f, .eq, v⟩, ⟨f, .ne, v⟩, ⟨f, .eq, .null⟩] es ∧
    Splits [⟨f, .eq, .null⟩, ⟨f, .ne, .null⟩] es ∧
    (∀ e ∈ es, ((⟨f, .eq, .null⟩ : Constraint).holds e ↔ e.value f.name = .null) ∧
      ((⟨f, .ne, .null⟩ : Constraint).holds e ↔ e.value f.name ≠ .null)) ∧
    (f.type ≠ .text →
      Splits [⟨f, .lt, v⟩, ⟨f, .eq, v⟩, ⟨f, .gt, v⟩, ⟨f, .eq, .null⟩] es ∧
      Splits [⟨f, .le, v⟩, ⟨f, .gt, v⟩, ⟨f, .eq, .null⟩] es ∧
      Splits [⟨f, .lt, v⟩, ⟨f, .ge, v⟩, ⟨f, .eq, .null⟩] es ∧
      ∀ e ∈ es,
        ((⟨f, .le, v⟩ : Constraint).holds e ↔
          (⟨f, .lt, v⟩ : Constraint).holds e ∨ (⟨f, .eq, v⟩ : Constraint).holds e) ∧
        ((⟨f, .ge, v⟩ : Constraint).holds e ↔
          (⟨f, .gt, v⟩ : Constraint).holds e ∨ (⟨f, .eq, v⟩ : Constraint).holds e)) := by
  refine ⟨?_, splits_equality hc hes hf hv hfinite hnull, splits_null f es,
    fun e _ => ⟨holds_eq_null, holds_ne_null⟩, fun ht => ?_⟩
  · intro name comparison given operand hname hcoerce hfits htakes
    rw [make_eq hc hf hname]
    exact onField_eq_ok_iff.2 ⟨hfits, operand, hcoerce, htakes, rfl⟩
  · have hsplits := splits_order hc hes hf hv hfinite hnull ht
    exact ⟨hsplits [.lt, .eq, .gt] Comparison.countP_three, hsplits [.le, .gt] Comparison.countP_le_gt,
      hsplits [.lt, .ge] Comparison.countP_lt_ge,
      fun e he => holds_or_equal hc hes hf hv hfinite hnull ht he⟩

/-- Both zeros are equal to zero, and the smallest positive number is above it. -/
theorem Constraint.zeros_split :
    let parts : Category := ⟨"parts", [⟨"ohms", .real⟩]⟩
    let ohms : FieldDef := ⟨"ohms", .real⟩
    let part (key : String) (v : Value) : Entry :=
      ⟨key, "parts", "drawer", .int 1, [("ohms", v)], none, none⟩
    let zero : Value := .real .zero
    let es := [part "A" zero, part "B" .null, part "C" (.real Binary64.zero.negate),
      part "D" (.real (.finite false 1 (by decide)))]
    parts.Definable ∧ (∀ e ∈ es, parts.Conforms e) ∧ ohms ∈ parts.constrainable ∧
      ohms.type.accepts zero ∧ zero.isFinite ∧ zero ≠ .null ∧
      Splits [⟨ohms, .lt, zero⟩, ⟨ohms, .eq, zero⟩, ⟨ohms, .gt, zero⟩, ⟨ohms, .eq, .null⟩] es ∧
      (FilterSet.apply [⟨ohms, .eq, zero⟩] es).map (·.key) = ["A", "C"] := by
  intro parts ohms part zero es
  have hdefine : Category.define (.text "parts") [(.text "ohms", .real)] = .ok parts := rfl
  have hparts : parts.Definable := .define hdefine
  have hpart (key : String) {v : Value} (hv : FieldType.real.accepts v) (hfinite : v.isFinite) :
      parts.Conforms (part key v) :=
    { category := rfl
      names := rfl
      fields := by
        intro f hf
        obtain rfl := List.mem_singleton.1 hf
        exact ⟨v, rfl, hv, hfinite⟩
      quantity := ⟨1, rfl, by decide, by decide⟩ }
  have hes : ∀ e ∈ es, parts.Conforms e :=
    List.forall_mem_cons.2 ⟨hpart "A" rfl rfl, List.forall_mem_cons.2 ⟨hpart "B" rfl rfl,
      List.forall_mem_cons.2 ⟨hpart "C" rfl rfl, List.forall_mem_singleton.2 (hpart "D" rfl rfl)⟩⟩⟩
  have hohms : ohms ∈ parts.constrainable := List.mem_cons_self ..
  obtain ⟨-, -, -, -, horder⟩ := comparisons_split hparts hes hohms (v := zero) rfl rfl nofun
  exact ⟨hparts, hes, hohms, rfl, rfl, nofun, (horder (by decide)).1, by decide +kernel⟩

end Inventory
