import Inventory.Proofs.Filling
import Inventory.Proofs.Reading
import Mathlib.Data.List.Forall2

/-!
# Tags that are filled

Names, references and the signs of a tag hold no placeholder: what is read of them is read in the
filled text as well. Values may hold placeholders, and an escaped text in the place of one leaves a
value. What a namespace is called is no value with a placeholder, since a brace cannot be in it.
-/

namespace Inventory

open Xml

namespace Part

variable {ps qs : List (Part (List Char))} {a cs rest : List Char}

/-! ## What is left -/

/-- `qs` is what is left of `ps` when something was taken off. -/
def Left (qs ps : List (Part (List Char))) : Prop :=
  qs <:+ ps ∧ (filled qs).length < (filled ps).length

theorem length_filled_le {qs : List (Part (List Char))} (h : qs <:+ ps) :
    (filled qs).length ≤ (filled ps).length := by
  obtain ⟨pre, rfl⟩ := h
  simp

theorem Left.of_char (c : Char) {qs : List (Part (List Char))} (h : qs <:+ ps) :
    Left qs (.char c :: ps) := by
  refine ⟨h.trans (List.suffix_cons _ _), ?_⟩
  have hle := length_filled_le h
  rw [filled_char, List.length_cons]
  omega

theorem Left.trans {qs rs : List (Part (List Char))} (h : Left rs qs) (h' : qs <:+ ps) :
    Left rs ps :=
  ⟨h.1.trans h', Nat.lt_of_lt_of_le h.2 (length_filled_le h')⟩

theorem Left.exists_succ {n : Nat} (h : Left qs ps) (hn : n ≥ (filled ps).length) :
    ∃ m, n = m + 1 :=
  Nat.exists_eq_add_one_of_ne_zero (by have hlt := h.2; omega)

theorem Left.of_literal (ha : a ≠ []) (hps : ps = literal a ++ qs) : Left qs ps := by
  subst hps
  obtain ⟨c, a, rfl⟩ := List.exists_cons_of_ne_nil ha
  exact .of_char c (List.suffix_append _ _)

/-! ## Literal parts -/

/-- What is taken off without a brace in it and in front of it is taken off the filled text. -/
theorem Fills.takes {α : Type} {p : List Char → Option (α × List Char)} {x : α}
    (h : Fills ps (a ++ rest)) (hne : a ≠ []) (ha : '{' ∉ a) (hrest : rest.head? ≠ some '{')
    (hp : Takes p a x rest.head?) :
    ∃ ps', Left ps' ps ∧ Fills ps' rest ∧ p (filled ps) = some (x, filled ps') := by
  obtain ⟨ps', hps, h'⟩ := h.exists_append_of_not_mem ha
  refine ⟨ps', .of_literal hne hps, h', ?_⟩
  rw [hps, filled_append, filled_literal]
  exact hp _ (h'.head?_filled hrest)

theorem Fills.readQualifiedName {n : QualifiedName} (h : Fills ps cs)
    (hn : readQualifiedName cs = some (n, rest)) (hrest : rest.head? ≠ some '{') :
    ∃ ps', Left ps' ps ∧ Fills ps' rest ∧
      Xml.readQualifiedName (filled ps) = some (n, filled ps') := by
  obtain ⟨rfl, ⟨c, tail, hcons, -⟩, htext, htakes⟩ := readQualifiedName_spec hn
  refine h.takes (by simp [hcons]) (fun hmem => ?_) hrest htakes
  obtain hc | hc := htext _ hmem
  · exact absurd hc (by decide)
  · exact absurd hc (by decide)

theorem Fills.dropSpace (h : Fills ps cs) (hrest : (cs.dropWhile isSpace).head? ≠ some '{') :
    ∃ ps', ps' <:+ ps ∧ Fills ps' (cs.dropWhile isSpace) ∧
      (filled ps).dropWhile isSpace = filled ps' := by
  have hspace : ∀ c ∈ cs.takeWhile isSpace, isSpace c := fun c hc => List.mem_takeWhile_imp hc
  have hstops := stops_dropWhile isSpace cs
  rw [← List.takeWhile_append_dropWhile (p := isSpace) (l := cs)] at h
  obtain ⟨ps', rfl, h'⟩ :=
    h.exists_append_of_not_mem fun hmem => absurd (hspace _ hmem) (by decide)
  refine ⟨ps', List.suffix_append _ _, h', ?_⟩
  rw [filled_append, filled_literal]
  exact (hstops.of_head? (h'.head?_filled hrest)).dropWhile_append hspace

/-- A quoted text is filled within its quotes. -/
theorem Fills.readQuoted {v : List Char} (h : Fills ps cs) (hv : readQuoted cs = some (v, rest)) :
    ∃ pv ps', Left ps' ps ∧ Fills pv v ∧ Fills ps' rest ∧
      Xml.readQuoted (filled ps) = some (filled pv, filled ps') := by
  obtain ⟨q, hq, hnot, rfl⟩ := readQuoted_eq_some.1 hv
  have hmark : Placeholder.mayHold q = false ∧ Text.isEscapedAway q ∧ q ≠ '{' := by
    obtain rfl | rfl := hq
    · decide
    · decide
  obtain ⟨ps₁, rfl, h₁⟩ := h.exists_cons hmark.2.2
  obtain ⟨pv, ps', rfl, hpv, h'⟩ := h₁.exists_split hmark.1
  refine ⟨pv, ps', .of_char q ⟨pv ++ [.char q], by simp⟩, hpv, h', ?_⟩
  refine readQuoted_eq_some.2 ⟨q, hq, hpv.not_mem_filled hmark.2.1 hnot, ?_⟩
  rw [filled_char, filled_append, filled_char]

theorem Fills.readReference {r : Reference} (h : Fills ps cs)
    (hr : readReference cs = some (r, rest)) : ∃ ps', Left ps' ps ∧ Fills ps' rest ∧
      Xml.readReference (filled ps) = some (r, filled ps') := by
  obtain ⟨body, rfl, hbrace, hread⟩ := readReference_spec hr
  rw [← List.singleton_append, ← List.append_assoc] at h
  obtain ⟨ps', hps, h'⟩ := h.exists_append_of_not_mem (by simp [hbrace])
  refine ⟨ps', .of_literal (by simp) hps, h', ?_⟩
  rw [hps, filled_append, filled_literal, List.append_assoc]
  exact hread _

/-! ## Values -/

/-- Characters that stand for themselves in a value. -/
def isPlain (c : Char) : Bool :=
  c != '<' && c != '&'

theorem isPlain_of_mayHold {c : Char} (h : Placeholder.mayHold c) : isPlain c := by
  simp only [isPlain, Bool.and_eq_true, bne_iff_ne]
  constructor
  · rintro rfl
    exact absurd h (by decide)
  · rintro rfl
    exact absurd h (by decide)

section Value

variable {value? : List Char → Option (List Char)}

theorem readValue_cons {c : Char} (hc : isPlain c) (fuel : Nat) (cs : List Char) :
    readValue value? (fuel + 1) (c :: cs) =
      (readValue value? fuel cs).map ((if isSpace c then ' ' else c) :: ·) := by
  simp only [isPlain, Bool.and_eq_true, bne_iff_ne] at hc
  rw [readValue, if_neg hc.1, if_neg hc.2]
  cases readValue value? fuel cs with
  | none => rfl
  | some x => rfl

/-- Plain characters are read one by one. -/
theorem exists_of_readValue_append {fuel : Nat} {x : List Char} (ha : ∀ c ∈ a, isPlain c)
    (h : readValue value? fuel (a ++ cs) = some x) :
    ∃ k y, fuel = a.length + k ∧ readValue value? k cs = some y ∧
      x = a.map (fun c => if isSpace c then ' ' else c) ++ y := by
  induction a generalizing fuel x with
  | nil => exact ⟨fuel, x, by simp, h, rfl⟩
  | cons c a ih =>
    cases fuel with
    | zero => simp [readValue] at h
    | succ fuel =>
      rw [List.cons_append, readValue_cons (ha c (by simp))] at h
      obtain ⟨y, hy, rfl⟩ := Option.map_eq_some_iff.1 h
      obtain ⟨k, z, rfl, hz, rfl⟩ := ih (fun d hd => ha d (by simp [hd])) hy
      exact ⟨k, z, by simp; omega, hz, rfl⟩

/-- What a reference stands for in a value. -/
def valueOf? (value? : List Char → Option (List Char)) : Reference → Option (List Char)
  | .char c => some [c]
  | .entity name => value? name

theorem readValue_reference {r : Reference} (hr : readReference cs = some (r, rest)) (fuel : Nat) :
    readValue value? (fuel + 1) ('&' :: cs) =
      (valueOf? value? r).bind fun text => (readValue value? fuel rest).map (text ++ ·) := by
  rw [readValue, if_neg (by decide), if_pos rfl, hr]
  cases r with
  | char c =>
    rw [valueOf?, Option.bind_some, Option.map_eq_bind]
    rfl
  | entity name =>
    simp only [valueOf?, Option.map_eq_bind]
    rfl

/-- An escaped text in front of a value leaves a value. -/
theorem readValue_escaped {v : List Char} (hv : Text.IsEscaped v)
    (h : ∀ n ≥ cs.length, ∃ y, readValue value? n cs = some y) :
    ∀ n ≥ (v ++ cs).length, ∃ y, readValue value? n (v ++ cs) = some y := by
  obtain ⟨s, rfl, -⟩ := hv
  induction s with
  | nil => exact h
  | cons c s ih =>
    intro n hn
    obtain ⟨hsame, hamp, haway⟩ | ⟨name, heq, -, hread⟩ := Text.escapeChar_cases c
    · rw [List.flatMap_cons, hsame] at hn ⊢
      obtain ⟨m, rfl⟩ := Nat.exists_eq_add_one_of_ne_zero (n := n) (by simp at hn; omega)
      obtain ⟨y, hy⟩ := ih m (by simp at hn ⊢; omega)
      have hplain : isPlain c := by
        simp only [Text.isEscapedAway, Bool.or_eq_false_iff, beq_eq_false_iff_ne] at haway
        simp [isPlain, hamp, haway.1.1.1]
      exact ⟨_, by rw [List.append_assoc, List.singleton_append, readValue_cons hplain, hy]; rfl⟩
    · rw [List.flatMap_cons, heq] at hn ⊢
      obtain ⟨m, rfl⟩ := Nat.exists_eq_add_one_of_ne_zero (n := n) (by simp at hn; omega)
      obtain ⟨y, hy⟩ := ih m (by simp at hn ⊢; omega)
      refine ⟨[c] ++ y, ?_⟩
      rw [List.append_assoc, List.cons_append, readValue_reference (hread _), hy]
      rfl

/-- A filled value is a value, and it is the same one if no placeholder was in it. -/
theorem Fills.readValue {fuel : Nat} {x : List Char} (h : Fills ps cs)
    (hx : readValue value? fuel cs = some x) : ∀ n ≥ (filled ps).length,
      ∃ y, Xml.readValue value? n (filled ps) = some y ∧ ('}' ∉ x → y = x) := by
  induction fuel using Nat.strong_induction_on generalizing ps cs x with
  | _ fuel ih =>
    intro n hn
    cases h with
    | nil =>
      rw [Xml.readValue] at hx
      exact ⟨x, by rw [filled_nil, Xml.readValue]; exact hx, fun _ => rfl⟩
    | @slot v p cs ps hv hp h =>
      have hplain : ∀ c ∈ p, isPlain c := fun c hc => isPlain_of_mayHold (hp.mayHold hc)
      obtain ⟨k, y, rfl, hy, rfl⟩ := exists_of_readValue_append hplain hx
      obtain ⟨inside, rfl, -⟩ := hp
      have hk : k < ('{' :: '{' :: (inside ++ ['}', '}'])).length + k := by simp
      have hvalue : ∀ m ≥ (filled ps).length, ∃ z, Xml.readValue value? m (filled ps) = some z :=
        fun m hm => (ih k hk h hy m hm).imp fun z hz => hz.1
      obtain ⟨z, hz⟩ := readValue_escaped hv hvalue n hn
      refine ⟨z, hz, fun hbrace => absurd (List.mem_append_left y ?_) hbrace⟩
      exact List.mem_map.2 ⟨'}', by simp, by decide⟩
    | @char c ps cs h =>
      cases fuel with
      | zero => simp [Xml.readValue] at hx
      | succ fuel =>
        obtain ⟨m, rfl⟩ := Nat.exists_eq_add_one_of_ne_zero (n := n) (by simp at hn; omega)
        by_cases hamp : c = '&'
        · subst hamp
          obtain ⟨r, rest, hr⟩ : ∃ r rest, Xml.readReference cs = some (r, rest) := by
            rw [Xml.readValue, if_neg (by decide), if_pos rfl] at hx
            obtain ⟨⟨r, rest⟩, hr, -⟩ := Option.bind_eq_some_iff.1 hx
            exact ⟨r, rest, hr⟩
          obtain ⟨ps', hleft, h', hr'⟩ := h.readReference hr
          rw [readValue_reference hr] at hx
          obtain ⟨text, htext, htail⟩ := Option.bind_eq_some_iff.1 hx
          obtain ⟨x', hx', rfl⟩ := Option.map_eq_some_iff.1 htail
          obtain ⟨y, hy, hsame⟩ := ih fuel (Nat.lt_succ_self fuel) h' hx' m (by
            have hlt := hleft.2
            simp only [filled_char, List.length_cons] at hn
            omega)
          refine ⟨text ++ y, ?_, fun hbrace => ?_⟩
          · rw [filled_char, readValue_reference hr', htext, hy]
            rfl
          · rw [hsame fun hmem => hbrace (List.mem_append_right text hmem)]
        · have hplain : isPlain c := by
            simp only [isPlain, Bool.and_eq_true, bne_iff_ne]
            refine ⟨?_, hamp⟩
            rintro rfl
            simp [Xml.readValue] at hx
          rw [readValue_cons hplain] at hx
          obtain ⟨x', hx', rfl⟩ := Option.map_eq_some_iff.1 hx
          obtain ⟨y, hy, hsame⟩ := ih fuel (Nat.lt_succ_self fuel) h hx' m (by simpa using hn)
          refine ⟨_, by rw [filled_char, readValue_cons hplain, hy]; rfl, fun hbrace => ?_⟩
          rw [hsame fun hmem => hbrace (List.mem_cons_of_mem _ hmem)]

/-! ## Attributes -/

/-- The attributes have the same name, and the same value unless a placeholder was filled in it. -/
def Alike (a b : Attribute) : Prop :=
  b.name = a.name ∧ ('}' ∉ a.value → b.value = a.value)

theorem head?_ne_of_dropWhile {c : Char} (h : cs.dropWhile isSpace = c :: rest) (hc : c ≠ '{') :
    cs.head? ≠ some '{' := by
  intro hhead
  obtain ⟨tail, rfl⟩ := List.head?_eq_some_iff.1 hhead
  rw [List.dropWhile_cons, if_neg (by decide)] at h
  exact hc (List.cons.inj h).1.symm

theorem Fills.readAttribute {a : Attribute} (h : Fills ps cs)
    (ha : readAttribute value? cs = some (a, rest)) : ∃ b ps', Left ps' ps ∧ Fills ps' rest ∧
      Alike a b ∧ Xml.readAttribute value? (filled ps) = some (b, filled ps') := by
  obtain ⟨⟨name, tail⟩, hname, htail⟩ := Option.bind_eq_some_iff.1 ha
  dsimp only at htail
  split at htail
  · next tail₁ hequals =>
    obtain ⟨⟨raw, tail₂⟩, hquoted, htail⟩ := Option.bind_eq_some_iff.1 htail
    obtain ⟨value, hvalue, heq⟩ := Option.bind_eq_some_iff.1 htail
    cases heq
    obtain ⟨ps₁, hleft, h₁, hname'⟩ :=
      h.readQualifiedName hname (head?_ne_of_dropWhile hequals (by decide))
    obtain ⟨ps₂, hsuffix, h₂, hequals'⟩ := h₁.dropSpace (by rw [hequals]; simp)
    rw [hequals] at h₂
    obtain ⟨ps₃, rfl, h₃⟩ := h₂.exists_cons (by decide)
    obtain ⟨q, hq, -, hquote⟩ := readQuoted_eq_some.1 hquoted
    obtain ⟨ps₄, hsuffix', h₄, hquote'⟩ := h₃.dropSpace (by
      rw [hquote]
      obtain rfl | rfl := hq <;> simp)
    obtain ⟨pv, ps', hleft', hpv, h', hquoted'⟩ := h₄.readQuoted hquoted
    obtain ⟨y, hy, hsame⟩ := hpv.readValue hvalue _ le_rfl
    refine ⟨⟨name, y⟩, ps', ?_, h', ⟨rfl, hsame⟩, ?_⟩
    · exact ((hleft'.trans hsuffix').trans (List.suffix_cons _ _)).trans (hsuffix.trans hleft.1)
    · rw [Xml.readAttribute, hname']
      simp only [Option.bind_eq_bind, Option.bind_some, hequals', filled_char, hquote', hquoted', hy]
      rfl
  · cases htail

theorem exists_head_of_readAttribute {a : Attribute}
    (h : Xml.readAttribute value? cs = some (a, rest)) : ∃ c, cs.head? = some c ∧ isNameStart c := by
  obtain ⟨⟨name, tail⟩, hname, -⟩ := Option.bind_eq_some_iff.1 h
  obtain ⟨rfl, ⟨c, tail', hcons, hstart⟩, -⟩ := readQualifiedName_spec hname
  exact ⟨c, by simp [hcons], hstart⟩

theorem readAttributes_succ {b : Attribute} {bs : List Attribute} {isEmpty : Bool} {fuel : Nat}
    {tail : List Char} (hspace : cs.head?.any isSpace)
    (hb : Xml.readAttribute value? (cs.dropWhile isSpace) = some (b, tail))
    (hbs : Xml.readAttributes value? fuel tail = some (bs, isEmpty, rest)) :
    Xml.readAttributes value? (fuel + 1) cs = some (b :: bs, isEmpty, rest) := by
  obtain ⟨c, hc, hstart⟩ := exists_head_of_readAttribute hb
  rw [Xml.readAttributes]
  split
  · next heq =>
    rw [heq] at hc
    cases hc
    exact absurd hstart (by decide)
  · next heq =>
    rw [heq] at hc
    cases hc
    exact absurd hstart (by decide)
  · simp [hspace, hb, hbs]

theorem Fills.readAttributes {fuel : Nat} {as : List Attribute} {isEmpty : Bool} (h : Fills ps cs)
    (ha : readAttributes value? fuel cs = some (as, isEmpty, rest)) :
    ∃ bs ps', Left ps' ps ∧ Fills ps' rest ∧ List.Forall₂ Alike as bs ∧ ∀ n ≥ (filled ps).length,
      Xml.readAttributes value? n (filled ps) = some (bs, isEmpty, filled ps') := by
  induction fuel generalizing ps cs as with
  | zero => cases ha
  | succ fuel ih =>
    rw [Xml.readAttributes] at ha
    split at ha
    · next tail hend =>
      cases ha
      obtain ⟨ps₁, hsuffix, h₁, hend'⟩ := h.dropSpace (by rw [hend]; simp)
      rw [hend] at h₁
      obtain ⟨ps', rfl, h'⟩ := h₁.exists_cons (by decide)
      have hleft : Left ps' ps := (Left.of_char _ List.suffix_rfl).trans hsuffix
      refine ⟨[], ps', hleft, h', .nil, fun n hn => ?_⟩
      obtain ⟨n, rfl⟩ := hleft.exists_succ hn
      rw [Xml.readAttributes, hend', filled_char]
      rfl
    · next tail hend =>
      cases ha
      obtain ⟨ps₁, hsuffix, h₁, hend'⟩ := h.dropSpace (by rw [hend]; simp)
      rw [hend] at h₁
      obtain ⟨ps₂, rfl, h₂⟩ := h₁.exists_cons (by decide)
      obtain ⟨ps', rfl, h'⟩ := h₂.exists_cons (by decide)
      have hleft : Left ps' ps := (Left.of_char _ (List.suffix_cons _ _)).trans hsuffix
      refine ⟨[], ps', hleft, h', .nil, fun n hn => ?_⟩
      obtain ⟨n, rfl⟩ := hleft.exists_succ hn
      rw [Xml.readAttributes, hend', filled_char, filled_char]
      rfl
    · split at ha
      · cases ha
      · next hspace =>
        obtain ⟨⟨a, tail⟩, hattr, hmore⟩ := Option.bind_eq_some_iff.1 ha
        obtain ⟨⟨others, isEmpty, tail'⟩, hothers, heq⟩ := Option.bind_eq_some_iff.1 hmore
        cases heq
        obtain ⟨c, hc, hstart⟩ := exists_head_of_readAttribute hattr
        have hbrace : c ≠ '{' := by
          rintro rfl
          exact absurd hstart (by decide)
        obtain ⟨ps₁, hsuffix, h₁, hdrop⟩ := h.dropSpace (by simpa [hc] using hbrace)
        obtain ⟨b, ps₂, hleft, h₂, halike, hattr'⟩ := h₁.readAttribute hattr
        obtain ⟨bs, ps', hleft', h', halikes, hothers'⟩ := ih h₂ hothers
        refine ⟨b :: bs, ps', ?_, h', .cons halike halikes, fun n hn => ?_⟩
        · exact (hleft'.trans hleft.1).trans hsuffix
        · have hlt := (hleft.trans hsuffix).2
          obtain ⟨n, rfl⟩ := (hleft.trans hsuffix).exists_succ hn
          refine readAttributes_succ ?_ (by rw [hdrop]; exact hattr') (hothers' n (by omega))
          have hany : cs.head?.any isSpace := by simpa using hspace
          rw [h.head?_filled fun hb => absurd (hb ▸ hany) (by decide)]
          exact hany

end Value

/-! ## Tags -/

theorem mem_trimWords {c : Char} (hc : c ≠ ' ') (isAfterSpace : Bool) {v : List Char} (h : c ∈ v) :
    c ∈ trimWords isAfterSpace v := by
  fun_induction trimWords isAfterSpace v with
  | case1 => exact h
  | case2 isAfterSpace rest hneedless ih => exact ih (List.mem_of_ne_of_mem hc h)
  | case3 isAfterSpace rest hneeded ih => exact List.mem_cons_of_mem _ (ih (List.mem_of_ne_of_mem hc h))
  | case4 isAfterSpace d rest hd ih =>
    obtain rfl | h := List.mem_cons.1 h
    · exact List.mem_cons_self
    · exact List.mem_cons_of_mem _ (ih h)

theorem Alike.refl (a : Attribute) : Alike a a :=
  ⟨rfl, fun _ => rfl⟩

theorem Alike.counted {a b : Attribute} (h : Alike a b) (d : Doctype) (element : QualifiedName) :
    Alike (d.counted element a) (d.counted element b) := by
  refine ⟨h.1, fun hbrace => ?_⟩
  simp only [Doctype.counted, h.1] at hbrace ⊢
  cases htype : d.attributeType? element a.name with
  | none =>
    rw [htype] at hbrace
    exact h.2 hbrace
  | some t =>
    rw [htype] at hbrace
    refine congrArg t.valueOf (h.2 fun hmem => hbrace ?_)
    simp only [Option.elim_some, AttributeType.valueOf]
    split
    · exact mem_trimWords (by decide) _ hmem
    · exact hmem

section Alikes

variable {as bs : List Attribute}

theorem names_eq (h : List.Forall₂ Alike as bs) : bs.map (·.name) = as.map (·.name) := by
  induction h with
  | nil => rfl
  | cons h _ ih => rw [List.map_cons, List.map_cons, h.1, ih]

theorem missing_eq (h : List.Forall₂ Alike as bs) (d : Doctype) (element : QualifiedName) :
    d.missing element bs = d.missing element as := by
  have hany (t : AttributeType) :
      bs.any (fun a => decide (a.name = t.name)) = as.any (fun a => decide (a.name = t.name)) := by
    have hmap := congrArg (List.any · fun n => decide (n = t.name)) (names_eq h)
    simpa only [List.any_map, Function.comp_def] using hmap
  simp only [Doctype.missing, hany]

theorem declared?_eq {a b : Attribute} (h : Alike a b) : b.declared? = a.declared? := by
  simp only [Attribute.declared?, h.1]

/-- The name of a namespace holds no brace, so no placeholder. -/
theorem enter_eq_some {scope inner : Scope} (h : List.Forall₂ Alike as bs)
    (hinner : scope.enter as = some inner) : scope.enter bs = some inner := by
  induction h generalizing scope with
  | nil => exact hinner
  | @cons a b as bs hab _ ih =>
    rw [Scope.enter] at hinner ⊢
    rw [declared?_eq hab]
    split at hinner
    · next qualifier hdeclared =>
      split at hinner
      · next hbind =>
        have hvalue : b.value = a.value := by
          refine hab.2 fun hmem => ?_
          simp [mayBind, hmem] at hbind
        rw [hvalue, if_pos hbind]
        exact ih hinner
      · cases hinner
    · next hdeclared => exact ih hinner

theorem expand_eq (scope : Scope) (h : List.Forall₂ Alike as bs) :
    scope.expand bs = scope.expand as := by
  induction h with
  | nil => rfl
  | cons hab _ ih => rw [Scope.expand, Scope.expand, ih, declared?_eq hab, hab.1]

theorem ofTag?_eq_some {scope inner : Scope} {name : QualifiedName} (h : List.Forall₂ Alike as bs)
    (hinner : scope.ofTag? name as = some inner) : scope.ofTag? name bs = some inner := by
  obtain ⟨entered, henter, hrest⟩ := Option.bind_eq_some_iff.1 hinner
  rw [Scope.ofTag?, enter_eq_some h henter]
  simp only [names_eq h, expand_eq _ h]
  exact hrest

end Alikes

theorem head?_ne_of_readAttributes {value? : List Char → Option (List Char)} {fuel : Nat}
    {x : List Attribute × Bool × List Char} (h : Xml.readAttributes value? fuel cs = some x) :
    cs.head? ≠ some '{' := by
  cases fuel with
  | zero => cases h
  | succ fuel =>
    rw [Xml.readAttributes] at h
    split at h
    · next hend => exact head?_ne_of_dropWhile hend (by decide)
    · next hend => exact head?_ne_of_dropWhile hend (by decide)
    · intro hbrace
      rw [hbrace, if_pos (by decide)] at h
      cases h

theorem Fills.openTag {d : Doctype} {scope : Scope} {e : OpenElement} {isEmpty : Bool}
    (h : Fills ps cs) (he : openTag d scope cs = some (e, isEmpty, rest)) :
    ∃ ps', Left ps' ps ∧ Fills ps' rest ∧
      Xml.openTag d scope (filled ps) = some (e, isEmpty, filled ps') := by
  obtain ⟨⟨name, tail⟩, hname, hmore⟩ := Option.bind_eq_some_iff.1 he
  obtain ⟨⟨given, isEmpty, tail'⟩, hgiven, hmore⟩ := Option.bind_eq_some_iff.1 hmore
  obtain ⟨inner, hinner, heq⟩ := Option.bind_eq_some_iff.1 hmore
  cases heq
  obtain ⟨ps₁, hleft, h₁, hname'⟩ := h.readQualifiedName hname (head?_ne_of_readAttributes hgiven)
  obtain ⟨bs, ps', hleft', h', halikes, hgiven'⟩ := h₁.readAttributes hgiven
  have hcounted : List.Forall₂ Alike (given.map (d.counted name) ++ d.missing name given)
      (bs.map (d.counted name) ++ d.missing name bs) := by
    rw [missing_eq halikes]
    refine List.rel_append (List.rel_map (fun a b hab => hab.counted d name) halikes) ?_
    exact List.forall₂_same.2 fun a _ => Alike.refl a
  refine ⟨ps', hleft'.trans hleft.1, h', ?_⟩
  rw [Xml.openTag, hname']
  simp only [Option.bind_eq_bind, Option.bind_some, hgiven' _ hleft.2.le,
    ofTag?_eq_some hcounted hinner]
  rfl

theorem Fills.closeTag {e : OpenElement} (h : Fills ps cs) (he : closeTag e cs = some rest) :
    ∃ ps', Left ps' ps ∧ Fills ps' rest ∧ Xml.closeTag e (filled ps) = some (filled ps') := by
  obtain ⟨⟨name, tail⟩, hname, hmore⟩ := Option.bind_eq_some_iff.1 he
  dsimp only at hmore
  split at hmore
  · next tail' hend =>
    split at hmore
    · next hsame =>
      cases hmore
      obtain ⟨ps₁, hleft, h₁, hname'⟩ :=
        h.readQualifiedName hname (head?_ne_of_dropWhile hend (by decide))
      obtain ⟨ps₂, hsuffix, h₂, hend'⟩ := h₁.dropSpace (by rw [hend]; simp)
      rw [hend] at h₂
      obtain ⟨ps', rfl, h'⟩ := h₂.exists_cons (by decide)
      refine ⟨ps', (Left.of_char _ List.suffix_rfl).trans (hsuffix.trans hleft.1), h', ?_⟩
      rw [Xml.closeTag, hname']
      simp only [Option.bind_eq_bind, Option.bind_some, hend', filled_char, if_pos hsame]
    · cases hmore
  · cases hmore

end Part

end Inventory
