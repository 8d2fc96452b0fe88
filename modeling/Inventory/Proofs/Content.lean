import Inventory.Proofs.Tags

/-!
# Content that is filled

Filling a placeholder changes where comments, instructions and sections end only if what comes in
forms a mark with what is around it. Where it does not, content is skipped in the filled text
exactly as it is in the text of the template: what is left of the one fills what is left of the
other.
-/

namespace Inventory

open Xml

namespace Part

variable {whole ps qs : List (Part (List Char))} {a cs rest : List Char}

/-- Filling forms no marks: no two hyphens in a comment, no end of an instruction, and no brackets
in front of a `>` that were not there. -/
structure Kept (ps : List (Part (List Char))) : Prop where
  comments : ∀ inside, literal "<!--".toList ++ inside ++ literal "-->".toList <:+: ps →
    ¬ literal "--".toList <:+: inside ++ literal ['-'] → ¬ "--".toList <:+: filled inside ++ ['-']
  instructions : ∀ inside, literal "<?".toList ++ inside ++ literal "?>".toList <:+: ps →
    ¬ literal "?>".toList <:+: inside → ¬ "?>".toList <:+: filled inside
  ends : ∀ inside, inside ++ literal ['>'] <:+: ps →
    "]]".toList <:+ filled inside → literal "]]".toList <:+ inside

theorem Kept.of_suffix (hk : Kept whole) (h : ps <:+ whole) : Kept ps where
  comments inside hin := hk.comments inside (hin.trans h.isInfix)
  instructions inside hin := hk.instructions inside (hin.trans h.isInfix)
  ends inside hin := hk.ends inside (hin.trans h.isInfix)

/-- All that stands in one piece in a list. -/
def infixes {α : Type} (l : List α) : List (List α) :=
  l.tails.flatMap List.inits

theorem mem_infixes {α : Type} {l m : List α} : m ∈ infixes l ↔ m <:+: l := by
  simp [infixes, List.infix_iff_prefix_suffix, and_comm]

theorem kept_iff : Kept ps ↔ ∀ inside ∈ infixes ps,
    (literal "<!--".toList ++ inside ++ literal "-->".toList <:+: ps →
      ¬ literal "--".toList <:+: inside ++ literal ['-'] →
        ¬ "--".toList <:+: filled inside ++ ['-']) ∧
    (literal "<?".toList ++ inside ++ literal "?>".toList <:+: ps →
      ¬ literal "?>".toList <:+: inside → ¬ "?>".toList <:+: filled inside) ∧
    (inside ++ literal ['>'] <:+: ps →
      "]]".toList <:+ filled inside → literal "]]".toList <:+ inside) := by
  have hinner (a inside b : List (Part (List Char))) (h : a ++ inside ++ b <:+: ps) :
      inside ∈ infixes ps :=
    mem_infixes.2 (List.IsInfix.trans ⟨a, b, rfl⟩ h)
  constructor
  · exact fun hk inside _ => ⟨hk.comments inside, hk.instructions inside, hk.ends inside⟩
  · intro h
    refine ⟨fun inside hin => ?_, fun inside hin => ?_, fun inside hin => ?_⟩
    · exact (h inside (hinner _ _ _ hin)).1 hin
    · exact (h inside (hinner _ _ _ hin)).2.1 hin
    · exact (h inside (hinner [] _ _ hin)).2.2 hin

set_option synthInstance.maxSize 256 in
instance (ps : List (Part (List Char))) : Decidable (Kept ps) :=
  decidable_of_iff _ kept_iff.symm

/-! ## Comments and instructions -/

theorem Fills.skipComment (hk : Kept whole) (hwhole : literal "<!--".toList ++ ps <:+ whole)
    (h : Fills ps cs) (hc : skipComment cs = some rest) :
    ∃ ps', Left ps' ps ∧ Fills ps' rest ∧ Xml.skipComment (filled ps) = some (filled ps') := by
  obtain ⟨a, rfl, hnone⟩ := skipComment_eq_some.1 hc
  obtain ⟨pa, ps', rfl, ha, h'⟩ := h.exists_split_append (by decide) (by decide)
  have hinside : literal "<!--".toList ++ pa ++ literal "-->".toList <:+: whole := by
    refine List.IsInfix.trans ⟨[], ps', ?_⟩ hwhole.isInfix
    simp
  have hliteral : ¬ literal "--".toList <:+: pa ++ literal ['-'] := fun hin =>
    hnone ((ha.append (fills_literal ['-'])).infix_of_literal hin)
  refine ⟨ps', ?_, h', skipComment_eq_some.2 ⟨filled pa, ?_, hk.comments pa hinside hliteral⟩⟩
  · exact (Left.of_literal (a := "-->".toList) (by simp) rfl).trans (List.suffix_append pa _)
  · simp

theorem Fills.isInstruction (h : Fills ps cs) (hc : IsInstruction cs) :
    IsInstruction (filled ps) := by
  obtain ⟨target, rest, hread, hxml, hspace⟩ := hc
  obtain ⟨hname, rfl, -⟩ := readName_eq_some.1 hread
  have hrest : rest.head? ≠ some '{' := fun hhead => absurd (hspace _ hhead) (by decide)
  have hbrace : '{' ∉ target := fun hmem => absurd (hname.isNamePart _ hmem) (by decide)
  obtain ⟨ps', -, h', hread'⟩ := h.takes hname.ne_nil hbrace hrest (readName_takes hread)
  exact ⟨target, filled ps', hread', hxml, by rwa [h'.head?_filled hrest]⟩

theorem Fills.skipInstruction (hk : Kept whole) (hwhole : literal "<?".toList ++ ps <:+ whole)
    (h : Fills ps cs) (hc : skipInstruction cs = some rest) :
    ∃ ps', Left ps' ps ∧ Fills ps' rest ∧ Xml.skipInstruction (filled ps) = some (filled ps') := by
  obtain ⟨a, rfl, hinstruction, hnone⟩ := skipInstruction_eq_some.1 hc
  obtain ⟨pa, ps', rfl, ha, h'⟩ := h.exists_split_append (by decide) (by decide)
  have hinside : literal "<?".toList ++ pa ++ literal "?>".toList <:+: whole := by
    refine List.IsInfix.trans ⟨[], ps', ?_⟩ hwhole.isInfix
    simp
  have hliteral : ¬ literal "?>".toList <:+: pa := fun hin => hnone (ha.infix_of_literal hin)
  refine ⟨ps', ?_, h', skipInstruction_eq_some.2
    ⟨filled pa, ?_, ha.isInstruction hinstruction, hk.instructions pa hinside hliteral⟩⟩
  · exact (Left.of_literal (a := "?>".toList) (by simp) rfl).trans (List.suffix_append pa _)
  · simp

/-! ## Ends of sections -/

/-- The mark that ends sections is literal wherever it stands in the filled text. -/
theorem Kept.exists_literal_end (hk : Kept whole) (hwhole : ps <:+: whole) (h : Fills ps cs)
    {u t : List Char} (heq : filled ps = u ++ ("]]>".toList ++ t)) :
    ∃ pu pt, ps = pu ++ (literal "]]>".toList ++ pt) ∧ filled pu = u := by
  have heq' : filled ps = u ++ "]]".toList ++ '>' :: t := by simpa using heq
  obtain ⟨p₁, pt, rfl, hp₁, -⟩ := h.exists_filled_split (by decide) heq'
  have hend : p₁ ++ literal ['>'] <:+: whole :=
    List.IsInfix.trans ⟨[], pt, by simp⟩ hwhole
  obtain ⟨pu, rfl⟩ := hk.ends p₁ hend ⟨u, hp₁.symm⟩
  refine ⟨pu, pt, by simp, ?_⟩
  rw [filled_append, filled_literal] at hp₁
  exact List.append_cancel_right hp₁

/-- A section ends in the filled text where it ended. -/
theorem Fills.skipSection (hk : Kept whole) (hwhole : ps <:+: whole) (h : Fills ps cs)
    (hc : after "]]>".toList cs = some rest) :
    ∃ ps', Left ps' ps ∧ Fills ps' rest ∧ after "]]>".toList (filled ps) = some (filled ps') := by
  obtain ⟨a, rfl, hnone⟩ := exists_of_after (by decide) hc
  obtain ⟨pa, ps', rfl, ha, h'⟩ := h.exists_split_append (by decide) (by decide)
  refine ⟨ps', ?_, h', ?_⟩
  · exact (Left.of_literal (a := "]]>".toList) (by simp) rfl).trans (List.suffix_append pa _)
  · have hend : ¬ "]]>".toList <:+: filled pa ++ "]]".toList := by
      rintro ⟨u, t, heq⟩
      have hinside : pa ++ literal "]]".toList <:+: whole :=
        List.IsInfix.trans ⟨[], literal ['>'] ++ ps', by simp⟩ hwhole
      have hfills := ha.append (fills_literal "]]".toList)
      obtain ⟨pu, pt, hpu, -⟩ := hk.exists_literal_end hinside hfills (u := u) (t := t) (by
        rw [filled_append, filled_literal, ← heq, List.append_assoc])
      refine hnone (hfills.infix_of_literal ⟨pu, pt, ?_⟩)
      rw [hpu, List.append_assoc]
    rw [filled_append, filled_append, filled_literal]
    exact after_append (by decide) hend

/-! ## Content -/

section Content

variable {d : Doctype} {fits : Scope → List Char → Bool} {outer : Scope}

/-- Characters that begin no markup, where no section ends, are skipped. -/
theorem skipContent_text {c : Char} (hlt : c ≠ '<') (hamp : c ≠ '&')
    (hend : ¬ "]]>".toList <+: c :: cs) (fuel : Nat) (elements : List OpenElement) :
    skipContent d fits outer (fuel + 1) elements (c :: cs) =
      skipContent d fits outer fuel elements cs := by
  rw [skipContent]
  · exact fun _ h => absurd h hlt
  · exact fun _ h => absurd h hlt
  · exact fun _ h => absurd h hlt
  · exact fun _ h => absurd h hlt
  · exact hlt
  · exact hamp
  · rintro tail rfl rfl
    exact hend ⟨tail, rfl⟩

theorem exists_head_of_openTag {scope : Scope} {x : OpenElement × Bool × List Char}
    (h : openTag d scope cs = some x) : ∃ c tail, cs = c :: tail ∧ isNameStart c := by
  obtain ⟨⟨name, tail⟩, hname, -⟩ := Option.bind_eq_some_iff.1 h
  obtain ⟨rfl, ⟨c, tail', hcons, hstart⟩, -⟩ := readQualifiedName_spec hname
  exact ⟨c, tail' ++ tail, by simp [hcons], hstart⟩

theorem skipContent_open {e : OpenElement} {isEmpty : Bool} {elements : List OpenElement}
    (he : openTag d (innermost outer elements) cs = some (e, isEmpty, rest)) (fuel : Nat) :
    skipContent d fits outer (fuel + 1) elements ('<' :: cs) =
      skipContent d fits outer fuel (if isEmpty then elements else e :: elements) rest := by
  obtain ⟨c, tail, rfl, hstart⟩ := exists_head_of_openTag he
  rw [skipContent, he]
  · rfl
  · rintro tail ⟨⟩
    exact absurd hstart (by decide)
  · rintro tail ⟨⟩
    exact absurd hstart (by decide)
  · rintro tail ⟨⟩
    exact absurd hstart (by decide)
  · rintro tail ⟨⟩
    exact absurd hstart (by decide)

/-- A reference may stand in a scope. -/
def mayRefer (fits : Scope → List Char → Bool) (scope : Scope) : Reference → Bool
  | .char _ => true
  | .entity name => fits scope name

theorem skipContent_reference {r : Reference} (hr : readReference cs = some (r, rest)) (fuel : Nat)
    (elements : List OpenElement) : skipContent d fits outer (fuel + 1) elements ('&' :: cs) =
      if mayRefer fits (innermost outer elements) r then
        skipContent d fits outer fuel elements rest
      else none := by
  rw [skipContent, hr]
  cases r <;> rfl

/-- A placeholder is skipped as text. -/
theorem exists_of_skipContent_append {fuel : Nat} {elements : List OpenElement}
    (ha : ∀ c ∈ a, Placeholder.mayHold c)
    (h : skipContent d fits outer fuel elements (a ++ cs) = some rest) :
    ∃ k, fuel = a.length + k ∧ skipContent d fits outer k elements cs = some rest := by
  induction a generalizing fuel with
  | nil => exact ⟨fuel, by simp, h⟩
  | cons c a ih =>
    have hmark (m : Char) (hm : Placeholder.mayHold m = false) : c ≠ m := by
      rintro rfl
      simp [ha c] at hm
    have hend : ¬ "]]>".toList <+: c :: (a ++ cs) := by
      rintro ⟨tail, heq⟩
      exact hmark ']' (by decide) (List.cons.inj heq).1.symm
    cases fuel with
    | zero => cases h
    | succ fuel =>
      rw [List.cons_append, skipContent_text (hmark '<' (by decide)) (hmark '&' (by decide)) hend] at h
      obtain ⟨k, rfl, hk⟩ := ih (fun d hd => ha d (by simp [hd])) h
      exact ⟨k, by simp; omega, hk⟩

/-- An escaped text in which no section ends is skipped. -/
theorem skipContent_escaped {v : List Char} {elements : List OpenElement} (hv : Text.IsEscaped v)
    (hend : ∀ u t, v ++ cs = u ++ ("]]>".toList ++ t) → v.length ≤ u.length)
    (h : ∀ n > cs.length, skipContent d fits outer n elements cs = some rest) :
    ∀ n > (v ++ cs).length, skipContent d fits outer n elements (v ++ cs) = some rest := by
  obtain ⟨s, rfl, -⟩ := hv
  induction s with
  | nil => exact h
  | cons c s ih =>
    rw [List.flatMap_cons, List.append_assoc] at hend ⊢
    have hend' : ∀ u t, s.flatMap Text.escapeChar ++ cs = u ++ ("]]>".toList ++ t) →
        (s.flatMap Text.escapeChar).length ≤ u.length := by
      intro u t heq
      have hle := hend (Text.escapeChar c ++ u) t (by rw [heq, List.append_assoc])
      simp only [List.length_append] at hle
      omega
    intro n hn
    obtain ⟨hsame, hamp, haway⟩ | ⟨name, heq, -, hread⟩ := Text.escapeChar_cases c
    · rw [hsame] at hn hend ⊢
      obtain ⟨m, rfl⟩ := Nat.exists_eq_add_one_of_ne_zero (n := n) (by omega)
      have hlt : c ≠ '<' := by
        rintro rfl
        exact absurd haway (by decide)
      have hnone : ¬ "]]>".toList <+: c :: (s.flatMap Text.escapeChar ++ cs) := by
        rintro ⟨t, ht⟩
        have hle := hend [] t ht.symm
        simp at hle
      rw [List.singleton_append, skipContent_text hlt hamp hnone]
      exact ih hend' m (by simp at hn ⊢; omega)
    · rw [heq] at hn ⊢
      obtain ⟨m, rfl⟩ := Nat.exists_eq_add_one_of_ne_zero (n := n) (by omega)
      rw [List.cons_append, skipContent_reference (hread _)]
      exact ih hend' m (by simp at hn ⊢; omega)

/-- With some fuel, what is left of content fills what is left of filled content. -/
def Steady (d : Doctype) (fits : Scope → List Char → Bool) (outer : Scope)
    (whole : List (Part (List Char))) (fuel : Nat) : Prop :=
  ∀ ⦃elements ps cs rest⦄, ps <:+ whole → Fills ps cs →
    skipContent d fits outer fuel elements cs = some rest →
    ∃ ps', ps' <:+ ps ∧ Fills ps' rest ∧ ∀ n > (filled ps).length,
      skipContent d fits outer n elements (filled ps) = some (filled ps')

variable {fuel : Nat} {elements elements' : List OpenElement}

/-- A step that both texts take. -/
theorem Steady.step {tail : List Char} (ih : Steady d fits outer whole fuel) (hwhole : ps <:+ whole)
    (hleft : Left qs ps) (h : Fills qs tail)
    (hraw : skipContent d fits outer fuel elements' tail = some rest)
    (hstep : ∀ n, skipContent d fits outer (n + 1) elements (filled ps) =
      skipContent d fits outer n elements' (filled qs)) :
    ∃ ps', ps' <:+ ps ∧ Fills ps' rest ∧ ∀ n > (filled ps).length,
      skipContent d fits outer n elements (filled ps) = some (filled ps') := by
  obtain ⟨ps', hsuffix, h', hskip⟩ := ih (hleft.1.trans hwhole) h hraw
  refine ⟨ps', hsuffix.trans hleft.1, h', fun n hn => ?_⟩
  have hlt := hleft.2
  obtain ⟨n, rfl⟩ := Nat.exists_eq_add_one_of_ne_zero (n := n) (by omega)
  rw [hstep]
  exact hskip n (by omega)

theorem Steady.comment (ih : Steady d fits outer whole fuel) (hk : Kept whole) (hwhole : ps <:+ whole)
    (h : Fills ps ("<!--".toList ++ cs))
    (hraw : skipContent d fits outer (fuel + 1) elements ("<!--".toList ++ cs) = some rest) :
    ∃ ps', ps' <:+ ps ∧ Fills ps' rest ∧ ∀ n > (filled ps).length,
      skipContent d fits outer n elements (filled ps) = some (filled ps') := by
  obtain ⟨ps₁, rfl, h₁⟩ := h.exists_append_of_not_mem (by decide)
  obtain ⟨tail, htail, hraw⟩ := Option.bind_eq_some_iff.1 hraw
  obtain ⟨ps₂, hleft, h₂, htail'⟩ := h₁.skipComment hk hwhole htail
  refine ih.step hwhole (hleft.trans (List.suffix_append _ _)) h₂ hraw fun n => ?_
  change (skipComment (filled ps₁)).bind _ = _
  rw [htail']
  rfl

theorem Steady.instruction (ih : Steady d fits outer whole fuel) (hk : Kept whole)
    (hwhole : ps <:+ whole) (h : Fills ps ("<?".toList ++ cs))
    (hraw : skipContent d fits outer (fuel + 1) elements ("<?".toList ++ cs) = some rest) :
    ∃ ps', ps' <:+ ps ∧ Fills ps' rest ∧ ∀ n > (filled ps).length,
      skipContent d fits outer n elements (filled ps) = some (filled ps') := by
  obtain ⟨ps₁, rfl, h₁⟩ := h.exists_append_of_not_mem (by decide)
  obtain ⟨tail, htail, hraw⟩ := Option.bind_eq_some_iff.1 hraw
  obtain ⟨ps₂, hleft, h₂, htail'⟩ := h₁.skipInstruction hk hwhole htail
  refine ih.step hwhole (hleft.trans (List.suffix_append _ _)) h₂ hraw fun n => ?_
  change (skipInstruction (filled ps₁)).bind _ = _
  rw [htail']
  rfl

theorem Steady.section (ih : Steady d fits outer whole fuel) (hk : Kept whole)
    (hwhole : ps <:+ whole) (h : Fills ps ("<![CDATA[".toList ++ cs))
    (hraw : skipContent d fits outer (fuel + 1) elements ("<![CDATA[".toList ++ cs) = some rest) :
    ∃ ps', ps' <:+ ps ∧ Fills ps' rest ∧ ∀ n > (filled ps).length,
      skipContent d fits outer n elements (filled ps) = some (filled ps') := by
  have hstep (n : Nat) (t : List Char) :
      skipContent d fits outer (n + 1) elements ("<![CDATA[".toList ++ t) =
        (after "]]>".toList t).bind (skipContent d fits outer n elements) := rfl
  obtain ⟨ps₁, rfl, h₁⟩ := h.exists_append_of_not_mem (by decide)
  rw [hstep] at hraw
  obtain ⟨tail, htail, hraw⟩ := Option.bind_eq_some_iff.1 hraw
  obtain ⟨ps₂, hleft, h₂, htail'⟩ :=
    h₁.skipSection hk ((List.suffix_append _ _).trans hwhole).isInfix htail
  refine ih.step hwhole (hleft.trans (List.suffix_append _ _)) h₂ hraw fun n => ?_
  rw [filled_append, filled_literal, hstep, htail']
  rfl

theorem Steady.close (ih : Steady d fits outer whole fuel) (hwhole : ps <:+ whole)
    (h : Fills ps ("</".toList ++ cs))
    (hraw : skipContent d fits outer (fuel + 1) elements ("</".toList ++ cs) = some rest) :
    ∃ ps', ps' <:+ ps ∧ Fills ps' rest ∧ ∀ n > (filled ps).length,
      skipContent d fits outer n elements (filled ps) = some (filled ps') := by
  obtain ⟨ps₁, rfl, h₁⟩ := h.exists_append_of_not_mem (by decide)
  cases elements with
  | nil =>
    cases hraw
    refine ⟨_, List.suffix_rfl, h, fun n hn => ?_⟩
    obtain ⟨n, rfl⟩ := Nat.exists_eq_add_one_of_ne_zero (n := n) (by omega)
    rfl
  | cons e elements =>
    obtain ⟨tail, htail, hraw⟩ := Option.bind_eq_some_iff.1 hraw
    obtain ⟨ps₂, hleft, h₂, htail'⟩ := h₁.closeTag htail
    refine ih.step hwhole (hleft.trans (List.suffix_append _ _)) h₂ hraw fun n => ?_
    change (closeTag e (filled ps₁)).bind _ = _
    rw [htail']
    rfl

theorem Steady.open (ih : Steady d fits outer whole fuel) (hwhole : ps <:+ whole)
    (h : Fills ps ('<' :: cs)) {e : OpenElement} {isEmpty : Bool} {tail : List Char}
    (he : openTag d (innermost outer elements) cs = some (e, isEmpty, tail))
    (hraw : skipContent d fits outer fuel (if isEmpty then elements else e :: elements) tail =
      some rest) :
    ∃ ps', ps' <:+ ps ∧ Fills ps' rest ∧ ∀ n > (filled ps).length,
      skipContent d fits outer n elements (filled ps) = some (filled ps') := by
  obtain ⟨ps₁, rfl, h₁⟩ := h.exists_cons (by decide)
  obtain ⟨ps₂, hleft, h₂, he'⟩ := h₁.openTag he
  exact ih.step hwhole (hleft.trans (List.suffix_cons _ _)) h₂ hraw fun n =>
    skipContent_open he' n

theorem Steady.reference (ih : Steady d fits outer whole fuel) (hwhole : ps <:+ whole)
    (h : Fills ps ('&' :: cs))
    (hraw : skipContent d fits outer (fuel + 1) elements ('&' :: cs) = some rest) :
    ∃ ps', ps' <:+ ps ∧ Fills ps' rest ∧ ∀ n > (filled ps).length,
      skipContent d fits outer n elements (filled ps) = some (filled ps') := by
  obtain ⟨ps₁, rfl, h₁⟩ := h.exists_cons (by decide)
  obtain ⟨⟨r, tail⟩, hr, -⟩ := Option.bind_eq_some_iff.1 hraw
  obtain ⟨ps₂, hleft, h₂, hr'⟩ := h₁.readReference hr
  rw [skipContent_reference hr] at hraw
  split at hraw
  · next hfits =>
    refine ih.step hwhole (hleft.trans (List.suffix_cons _ _)) h₂ hraw fun n => ?_
    rw [filled_char, skipContent_reference hr', if_pos hfits]
  · cases hraw

theorem Steady.text {c : Char} (ih : Steady d fits outer whole fuel) (hk : Kept whole)
    (hwhole : .char c :: ps <:+ whole) (h : Fills ps cs) (hlt : c ≠ '<') (hamp : c ≠ '&')
    (hraw : skipContent d fits outer (fuel + 1) elements (c :: cs) = some rest) :
    ∃ ps', ps' <:+ .char c :: ps ∧ Fills ps' rest ∧ ∀ n > (filled (.char c :: ps)).length,
      skipContent d fits outer n elements (filled (.char c :: ps)) = some (filled ps') := by
  have hend : ¬ "]]>".toList <+: c :: cs := by
    rintro ⟨tail, htail⟩
    cases htail
    cases hraw
  have hend' : ¬ "]]>".toList <+: filled (.char c :: ps) := by
    rintro ⟨t, heq⟩
    obtain ⟨pu, pt, hps, hpu⟩ :=
      hk.exists_literal_end hwhole.isInfix (h.char c) (u := []) (t := t) heq.symm
    cases pu with
    | nil =>
      obtain ⟨hc, rfl⟩ := List.cons.inj hps
      cases hc
      obtain ⟨b, tail, rfl, hb, -⟩ := (show Fills (literal "]>".toList ++ pt) cs from h).exists_of_append
      exact hend ⟨tail, by rw [hb.eq_of_literal]; rfl⟩
    | cons p pu =>
      obtain ⟨rfl, -⟩ := List.cons.inj hps
      cases hpu
  rw [skipContent_text hlt hamp hend] at hraw
  exact ih.step hwhole (.of_char c List.suffix_rfl) h hraw fun n =>
    skipContent_text hlt hamp hend' n elements

theorem Steady.placeholder {v p : List Char} {k : Nat} (ih : Steady d fits outer whole k)
    (hk : Kept whole) (hwhole : .slot v :: ps <:+ whole) (hv : Text.IsEscaped v)
    (hp : Placeholder.IsPlaceholder p) (h : Fills ps cs)
    (hraw : skipContent d fits outer k elements cs = some rest) :
    ∃ ps', ps' <:+ .slot v :: ps ∧ Fills ps' rest ∧ ∀ n > (filled (.slot v :: ps)).length,
      skipContent d fits outer n elements (filled (.slot v :: ps)) = some (filled ps') := by
  obtain ⟨ps', hsuffix, h', hskip⟩ := ih ((List.suffix_cons _ _).trans hwhole) h hraw
  refine ⟨ps', hsuffix.trans (List.suffix_cons _ _), h', skipContent_escaped hv ?_ hskip⟩
  -- A mark for the end of a section is literal, so it begins behind the slot.
  intro u t heq
  obtain ⟨pu, pt, hps, rfl⟩ := hk.exists_literal_end hwhole.isInfix (h.slot hv hp) heq
  cases pu with
  | nil => cases hps
  | cons q pu =>
    obtain ⟨rfl, -⟩ := List.cons.inj hps
    simp

/-- Content that is filled is skipped as far as it was. -/
theorem steady (d : Doctype) (fits : Scope → List Char → Bool) (outer : Scope) (hk : Kept whole)
    (fuel : Nat) : Steady d fits outer whole fuel := by
  induction fuel using Nat.strong_induction_on with
  | _ fuel ih =>
    intro elements ps cs rest hwhole h hraw
    cases fuel with
    | zero => cases hraw
    | succ fuel =>
      have hsteady := ih fuel (Nat.lt_succ_self fuel)
      have hstep := hraw
      rw [skipContent.eq_def] at hstep
      dsimp only at hstep
      split at hstep
      · cases h.eq_nil
        split at hstep
        · next hempty =>
          cases hstep
          refine ⟨[], List.suffix_rfl, .nil, fun n hn => ?_⟩
          obtain ⟨n, rfl⟩ := Nat.exists_eq_add_one_of_ne_zero (n := n) (by omega)
          rw [filled_nil, skipContent, if_pos hempty]
        · cases hstep
      · exact hsteady.comment hk hwhole h hraw
      · obtain ⟨tail, htail, -⟩ := Option.bind_eq_some_iff.1 hstep
        cases strip?_eq_some.1 htail
        exact hsteady.section hk hwhole h hraw
      · exact hsteady.instruction hk hwhole h hraw
      · exact hsteady.close hwhole h hraw
      · obtain ⟨⟨e, isEmpty, tail⟩, he, hmore⟩ := Option.bind_eq_some_iff.1 hstep
        exact hsteady.open hwhole h he hmore
      · exact hsteady.reference hwhole h hraw
      · cases hstep
      · next c tail _ _ _ _ hlt hamp _ =>
        generalize hcs : c :: tail = cs at h hraw
        cases h with
        | nil => cases hcs
        | char _ h =>
          cases hcs
          exact hsteady.text hk hwhole h hlt hamp hraw
        | slot hv hp h =>
          obtain ⟨k, hfuel, hraw'⟩ := exists_of_skipContent_append (fun c hc => hp.mayHold hc) hraw
          have hpos := hp.length_pos
          exact (ih k (by omega)).placeholder hk hwhole hv hp h hraw'

end Content

end Part

end Inventory
