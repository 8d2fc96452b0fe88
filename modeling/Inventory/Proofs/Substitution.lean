import Inventory.Proofs.Policy
import Inventory.Proofs.Placeholders

/-!
# Filling in one pass

A text is cut at its placeholders, the leftmost ones first, into literal stretches and placeholders,
and in one way only. This depends on nothing but the text, and filling keeps the literal stretches
and puts an escaped value in the place of each placeholder. So what is put in is never scanned. The
escaped value has no character that markup takes for itself but the ampersands of its references,
and gives the value back when these are read.
-/

namespace Inventory

/-! ## Escaped values -/

namespace Text

/-- The references that escaping writes. -/
def references : List (List Char) :=
  ["&amp;".toList, "&lt;".toList, "&gt;".toList, "&quot;".toList, "&#x27;".toList]

/-- Reads the references that escaping writes; all other characters stand for themselves. -/
def unescape : List Char → List Char
  | '&' :: 'a' :: 'm' :: 'p' :: ';' :: rest => '&' :: unescape rest
  | '&' :: 'l' :: 't' :: ';' :: rest => '<' :: unescape rest
  | '&' :: 'g' :: 't' :: ';' :: rest => '>' :: unescape rest
  | '&' :: 'q' :: 'u' :: 'o' :: 't' :: ';' :: rest => '"' :: unescape rest
  | '&' :: '#' :: 'x' :: '2' :: '7' :: ';' :: rest => '\'' :: unescape rest
  | c :: rest => c :: unescape rest
  | [] => []

variable {c : Char} {a b : List Char}

theorem escapeChar_mem_references (c : Char) :
    escapeChar c = [c] ∧ c ≠ '&' ∨ escapeChar c ∈ references := by
  unfold escapeChar
  split
  · exact .inr (by decide)
  · exact .inr (by decide)
  · exact .inr (by decide)
  · exact .inr (by decide)
  · exact .inr (by decide)
  · next hamp _ _ _ _ => exact .inl ⟨rfl, hamp⟩

/-- A reference has its ampersand in front and no other one. -/
theorem references_ampersand {r : List Char} (h : r ∈ references) :
    r.head? = some '&' ∧ '&' ∉ r.tail := by
  have hall : ∀ r ∈ references, r.head? = some '&' ∧ '&' ∉ r.tail := by decide
  exact hall r h

theorem unescape_cons (h : c ≠ '&') (rest : List Char) :
    unescape (c :: rest) = c :: unescape rest := by
  conv_lhs => unfold unescape
  split
  · next heq => exact absurd (List.cons.inj heq).1 h
  · next heq => exact absurd (List.cons.inj heq).1 h
  · next heq => exact absurd (List.cons.inj heq).1 h
  · next heq => exact absurd (List.cons.inj heq).1 h
  · next heq => exact absurd (List.cons.inj heq).1 h
  · next heq =>
      cases heq
      rfl
  · next heq => cases heq

theorem unescape_escapeChar (c : Char) (rest : List Char) :
    unescape (escapeChar c ++ rest) = c :: unescape rest := by
  unfold escapeChar
  split
  · rfl
  · rfl
  · rfl
  · rfl
  · rfl
  · next hamp _ _ _ _ => exact unescape_cons hamp rest

/-- Reading the references gives the value back. -/
theorem unescape_escape (s : String) : unescape (escape s) = s.toList := by
  rw [escape]
  induction s.toList with
  | nil => rfl
  | cons c cs ih => rw [List.flatMap_cons, unescape_escapeChar, ih]

theorem not_mem_escape (s : String) (hc : isEscapedAway c) : c ∉ escape s :=
  not_mem_flatMap_escapeChar s.toList hc

/-- In what escaping makes of a character, an ampersand is the beginning of a reference. -/
theorem escapeChar_of_ampersand (h : escapeChar c = a ++ '&' :: b) :
    a = [] ∧ escapeChar c ∈ references := by
  obtain ⟨hsame, hc⟩ | hmem := escapeChar_mem_references c
  · have hin : '&' ∈ [c] := by
      rw [← hsame, h]
      simp
    exact absurd (List.mem_singleton.1 hin).symm hc
  · refine ⟨?_, hmem⟩
    cases a with
    | nil => rfl
    | cons d a =>
        have htail := (references_ampersand hmem).2
        rw [h] at htail
        exact absurd (by simp) htail

/-- Every ampersand in an escaped text is the beginning of a reference. -/
theorem exists_reference_prefix {s : String} (h : escape s = a ++ '&' :: b) :
    ∃ r ∈ references, r <+: '&' :: b := by
  rw [escape] at h
  generalize s.toList = cs at h
  induction cs generalizing a with
  | nil => exact absurd h.symm (List.append_ne_nil_of_right_ne_nil _ (List.cons_ne_nil _ _))
  | cons c cs ih =>
      rw [List.flatMap_cons] at h
      obtain ⟨a', -, h⟩ | ⟨c', hchar, h⟩ := List.append_eq_append_iff.1 h
      · exact ih h
      · -- The ampersand is behind what stands for the first character, or in front of its reference.
        cases c' with
        | nil => exact ih (a := []) h.symm
        | cons d c' =>
            obtain ⟨rfl, htail⟩ := List.cons.inj h
            obtain ⟨rfl, hmem⟩ := escapeChar_of_ampersand hchar
            exact ⟨_, hmem, cs.flatMap escapeChar, by rw [hchar, htail]; rfl⟩

end Text

/-! ## Cutting a text at its placeholders -/

namespace Placeholder

open Name (IsPlain)

variable {cs rest literal written last last' : List Char} {name : String}

/-- A placeholder begins the text. -/
def Begins (cs : List Char) : Prop :=
  ∃ p name rest, IsPlain name ∧ Writes p name ∧ cs = p ++ rest

/-- A stretch of text, with `rest` behind it, in which no placeholder begins. -/
def IsLiteral (cs rest : List Char) : Prop :=
  ∀ a b, cs = a ++ b → b ≠ [] → ¬Begins (b ++ rest)

/-- A placeholder as it is written, for a name, with the literal text in front of it. -/
structure Segment where
  literal : List Char
  written : List Char
  name : String

/-- The text is cut at its placeholders: none begins in the literal text in front of one, and the
search goes on behind it. -/
inductive IsCut : List Char → List Segment → List Char → Prop
  | last {last : List Char} (hlast : IsLiteral last []) : IsCut last [] last
  | next {literal written rest last : List Char} {name : String} {segments : List Segment}
      (hliteral : IsLiteral literal (written ++ rest)) (hname : IsPlain name)
      (hwrites : Writes written name) (h : IsCut rest segments last) :
      IsCut (literal ++ (written ++ rest)) (⟨literal, written, name⟩ :: segments) last

theorem Writes.ne_nil (h : Writes written name) : written ≠ [] := by
  obtain ⟨_, _, _, -, -, -, rfl⟩ := h
  exact List.cons_ne_nil _ _

theorem begins_iff : Begins cs ↔ (read? cs).isSome := by
  rw [Option.isSome_iff_exists]
  constructor
  · rintro ⟨p, name, rest, hname, hp, rfl⟩
    exact ⟨_, read?_of_writes hp hname rest⟩
  · rintro ⟨⟨name, rest⟩, hread⟩
    obtain ⟨hname, p, hp, rfl⟩ := exists_writes_of_read? hread
    exact ⟨p, name, rest, hname, hp, rfl⟩

theorem isLiteral_nil (rest : List Char) : IsLiteral [] rest :=
  fun _ _ heq hb => absurd (List.append_eq_nil_iff.1 heq.symm).2 hb

theorem isLiteral_cons {c : Char} :
    IsLiteral (c :: cs) rest ↔ read? (c :: (cs ++ rest)) = none ∧ IsLiteral cs rest := by
  rw [← Option.not_isSome_iff_eq_none, ← begins_iff]
  constructor
  · intro h
    exact ⟨h [] (c :: cs) rfl (List.cons_ne_nil _ _), fun a b heq => h (c :: a) b (by rw [heq]; rfl)⟩
  · rintro ⟨hbegins, h⟩ a b heq hb
    cases a with
    | nil =>
        rw [List.nil_append] at heq
        exact heq ▸ hbegins
    | cons d a => exact h a b (List.cons.inj heq).2 hb

/-- Every text can be cut. -/
theorem exists_isCut (cs : List Char) : ∃ segments last, IsCut cs segments last := by
  induction cs using parts.induct with
  | case1 => exact ⟨[], [], .last (isLiteral_nil _)⟩
  | case2 c cs name rest hread ih =>
      obtain ⟨hname, p, hp, heq⟩ := exists_writes_of_read? hread
      obtain ⟨segments, last, h⟩ := ih
      rw [heq]
      exact ⟨_, last, .next (isLiteral_nil _) hname hp h⟩
  | case3 c cs hread ih =>
      obtain ⟨segments, last, h⟩ := ih
      cases h with
      | last hlast =>
          have hnone : read? (c :: (cs ++ [])) = none := by rwa [List.append_nil]
          exact ⟨[], c :: cs, .last (isLiteral_cons.2 ⟨hnone, hlast⟩)⟩
      | next hliteral hname hwrites h =>
          exact ⟨_, last, .next (isLiteral_cons.2 ⟨hread, hliteral⟩) hname hwrites h⟩

/-- Of two cuts, the one with the first placeholder further left is the one that is made. -/
theorem literal_eq_of_cuts {literal' written' rest' : List Char} {name' : String}
    (hname : IsPlain name) (hwrites : Writes written name) (hname' : IsPlain name')
    (hwrites' : Writes written' name') (hliteral : IsLiteral literal (written ++ rest))
    (hliteral' : IsLiteral literal' (written' ++ rest'))
    (heq : literal ++ (written ++ rest) = literal' ++ (written' ++ rest')) : literal = literal' := by
  obtain ⟨x, rfl, htail⟩ | ⟨x, rfl, htail⟩ := List.append_eq_append_iff.1 heq
  · by_contra hne
    exact hliteral' literal x rfl (by simpa using hne) ⟨written, name, rest, hname, hwrites, htail.symm⟩
  · by_contra hne
    exact hliteral literal' x rfl (by simpa using hne)
      ⟨written', name', rest', hname', hwrites', htail.symm⟩

/-- A text is cut in one way only. -/
theorem IsCut.unique {segments segments' : List Segment} (h : IsCut cs segments last)
    (h' : IsCut cs segments' last') : segments = segments' ∧ last = last' := by
  induction h generalizing segments' last' with
  | @last last hlast =>
      cases h' with
      | last => exact ⟨rfl, rfl⟩
      | @next literal written rest _ name _ _ hname hwrites _ =>
          refine absurd ⟨written, name, rest, hname, hwrites, List.append_nil _⟩
            (hlast literal (written ++ rest) rfl ?_)
          exact List.append_ne_nil_of_left_ne_nil hwrites.ne_nil _
  | @next literal written rest last name segments hliteral hname hwrites _ ih =>
      generalize hcs : literal ++ (written ++ rest) = cs at h'
      cases h' with
      | last hlast =>
          refine absurd ⟨written, name, rest, hname, hwrites, List.append_nil _⟩
            (hlast literal (written ++ rest) hcs.symm ?_)
          exact List.append_ne_nil_of_left_ne_nil hwrites.ne_nil _
      | @next literal' written' rest' _ name' _ hliteral' hname' hwrites' h' =>
          obtain rfl := literal_eq_of_cuts hname hwrites hname' hwrites' hliteral hliteral' hcs
          have htail := List.append_cancel_left hcs
          have hread := read?_of_writes hwrites hname rest
          rw [htail, read?_of_writes hwrites' hname'] at hread
          cases hread
          obtain rfl := List.append_cancel_right htail
          obtain ⟨rfl, rfl⟩ := ih h'
          exact ⟨rfl, rfl⟩

/-- The pieces of a cut are the text. -/
theorem IsCut.flatten {segments : List Segment} (h : IsCut cs segments last) :
    cs = (segments.flatMap fun s => s.literal ++ s.written) ++ last := by
  induction h with
  | last => rfl
  | next _ _ _ _ ih =>
      rw [List.flatMap_cons, List.append_assoc, ← ih, List.append_assoc]

theorem render_of_isLiteral (text : String → List Char) (h : IsLiteral cs rest) :
    Part.render text (parts (cs ++ rest)) = cs ++ Part.render text (parts rest) := by
  induction cs with
  | nil => rfl
  | cons c cs ih =>
      obtain ⟨hread, h⟩ := isLiteral_cons.1 h
      rw [List.cons_append, parts_of_read?_eq_none hread, Part.render, ih h, List.cons_append]

/-- Filling keeps the literal text and puts a text in the place of each placeholder. -/
theorem IsCut.render_parts {segments : List Segment} (h : IsCut cs segments last)
    (text : String → List Char) : Part.render text (parts cs) =
      (segments.flatMap fun s => s.literal ++ text s.name) ++ last := by
  induction h with
  | @last last hlast =>
      have hrender := render_of_isLiteral text hlast
      rwa [List.append_nil, parts, Part.render, List.append_nil] at hrender
  | @next literal written rest last name segments hliteral hname hwrites _ ih =>
      have hparts := parts_of_writes hwrites hname [] rest
      rw [List.nil_append, parts, List.nil_append] at hparts
      rw [render_of_isLiteral text hliteral, hparts, Part.render, ih, List.flatMap_cons]
      simp only [List.append_assoc]

theorem slots_of_isLiteral (h : IsLiteral cs rest) :
    Part.slots (parts (cs ++ rest)) = Part.slots (parts rest) := by
  induction cs with
  | nil => rfl
  | cons c cs ih =>
      obtain ⟨hread, h⟩ := isLiteral_cons.1 h
      rw [List.cons_append, parts_of_read?_eq_none hread, Part.slots, ih h]

/-- The placeholders of a cut are those that are found when the template is filled. -/
theorem IsCut.slots_parts {segments : List Segment} (h : IsCut cs segments last) :
    Part.slots (parts cs) = segments.map (·.name) := by
  induction h with
  | @last last hlast =>
      have hslots := slots_of_isLiteral hlast
      rwa [List.append_nil, parts, Part.slots] at hslots
  | @next literal written rest last name segments hliteral hname hwrites _ ih =>
      have hparts := parts_of_writes hwrites hname [] rest
      rw [List.nil_append, parts, List.nil_append] at hparts
      rw [slots_of_isLiteral hliteral, hparts, Part.slots, ih, List.map_cons]

end Placeholder

/-! ## Main result -/

namespace Template

open Placeholder (IsCut Segment)

variable {t : Template} {segments : List Segment} {last : List Char}

/-- The pieces of a cut with the escaped values of the names in the places of the placeholders, and
nothing in those of names without one. -/
def substituted (segments : List Segment) (last : List Char) (value? : String → Option String) :
    String :=
  String.ofList
    ((segments.flatMap fun s => s.literal ++ (value? s.name).elim [] Text.escape) ++ last)

theorem filledText_of_isCut (h : IsCut t.text.toList segments last)
    (value? : String → Option String) : t.filledText value? = substituted segments last value? := by
  rw [filledText, render, Part.render_map]
  exact congrArg String.ofList (h.render_parts _)

theorem missing_of_isCut (h : IsCut t.text.toList segments last) {value? : String → Option String}
    (hvalues : ∀ s ∈ segments, (value? s.name).isSome) : t.missing value? = [] := by
  refine List.eq_nil_iff_forall_not_mem.2 fun name hname => ?_
  obtain ⟨hmem, hnone⟩ := mem_missing.1 hname
  rw [mem_placeholders, parts, h.slots_parts] at hmem
  obtain ⟨s, hs, rfl⟩ := List.mem_map.1 hmem
  have hsome := hvalues s hs
  rw [hnone] at hsome
  cases hsome

/-- A template is filled in one pass. Its text has one cut at its placeholders, leftmost first, and
whatever the values are, the filled text is that cut with the literal text as it was and the escaped
value of each placeholder in its place, nothing where there is no value. That is the text which is
checked and given back, unless a strict filling is refused for want of values. Escaped values have
no angle brackets and no quotes, and an ampersand only in front of one of five references; when these
are read they are the values again. -/
theorem filled_in_one_pass (t : Template) :
    ∃ segments last, IsCut t.text.toList segments last ∧
      (∀ segments' last', IsCut t.text.toList segments' last' →
        segments = segments' ∧ last = last') ∧
      t.text.toList = (segments.flatMap fun s => s.literal ++ s.written) ++ last ∧
      (∀ value?, t.filledText value? = substituted segments last value?) ∧
      (∀ value? strict, (strict = true → ∀ s ∈ segments, (value? s.name).isSome) →
        (t.filling value? strict).result =
          (check t.name (substituted segments last value?)).map fun _ =>
            substituted segments last value?) ∧
      ∀ v : String, (∀ c ∈ ['<', '>', '"', '\''], c ∉ Text.escape v) ∧
        (∀ a b, Text.escape v = a ++ '&' :: b → ∃ r ∈ Text.references, r <+: '&' :: b) ∧
        Text.unescape (Text.escape v) = v.toList := by
  obtain ⟨segments, last, hcut⟩ := Placeholder.exists_isCut t.text.toList
  refine ⟨segments, last, hcut, fun segments' last' => hcut.unique, hcut.flatten,
    filledText_of_isCut hcut, fun value? strict hvalues => ?_, fun v => ⟨fun c hc => ?_,
      fun a b => Text.exists_reference_prefix, Text.unescape_escape v⟩⟩
  · have hlenient := congrArg Filling.result (filling_lenient t value?)
    rw [filledText_of_isCut hcut] at hlenient
    cases strict with
    | false => exact hlenient
    | true =>
        rw [filling_strict_of_missing_eq_nil (missing_of_isCut hcut (hvalues rfl))]
        exact hlenient
  · have haway : ['<', '>', '"', '\''].all Text.isEscapedAway := rfl
    exact Text.not_mem_escape v (List.all_eq_true.1 haway c hc)

/-- Neither a placeholder in a value is filled, nor one that a value completes with the braces in
front of it. -/
theorem braces_kept :
    let t : Template := ⟨"label", "<b>\x7b\x7b\x7b\x7bkey\x7d\x7d\x7b\x7b Size \x7d\x7d</b>"⟩
    let value? : String → Option String :=
      fun name => some (if name = "key" then "size\x7d\x7d" else "\x7b\x7bkey\x7d\x7d<&")
    (t.filling value? true).result =
      .ok "<b>\x7b\x7bsize\x7d\x7d\x7b\x7bkey\x7d\x7d&lt;&amp;</b>" := by
  intro t value?
  have htext : t.filledText value? =
      "<b>\x7b\x7bsize\x7d\x7d\x7b\x7bkey\x7d\x7d&lt;&amp;</b>" := by
    decide +kernel
  have hcheck : check t.name (t.filledText value?) = .ok () := by
    rw [htext]
    exact check_eq_ok.2 (by decide +kernel)
  obtain ⟨segments, last, -, -, -, hsubstituted, hresult, -⟩ := filled_in_one_pass t
  rw [hresult value? true fun _ s _ => rfl, ← hsubstituted, hcheck, htext]
  rfl

end Template

end Inventory
