import Inventory.Label.Template
import Mathlib.Data.List.Infix
import Mathlib.Data.List.TakeWhile

/-!
# Texts beside what they are filled to

The parts of a template, with escaped texts in the slots, are laid beside the text of the template
itself: `Fills ps cs` says that `cs` becomes `Part.filled ps`. What a reader of markup looks for
stands in no placeholder and in no escaped text, so where it is found in one of the two texts, it is
the same literal part of both.
-/

namespace Inventory

/-! ## Escaped texts -/

namespace Text

/-- The text is the escaped form of one whose characters a document may hold. -/
def IsEscaped (cs : List Char) : Prop :=
  ∃ s : List Char, cs = s.flatMap escapeChar ∧ ∀ c ∈ s, Xml.isChar c

/-- Characters that escaping takes away. -/
def isEscapedAway (c : Char) : Bool :=
  c == '<' || c == '>' || c == '"' || c == '\''

/-- Whether something holds of the characters of a text is decided by looking at these, and not at
all characters that there are. -/
instance decidableForallMem (p : Char → Prop) [DecidablePred p] (cs : List Char) :
    Decidable (∀ c ∈ cs, p c) :=
  List.decidableBAll p cs

/-- A character that is escaped begins a reference to itself; all others stay. -/
theorem escapeChar_cases (c : Char) :
    escapeChar c = [c] ∧ c ≠ '&' ∧ isEscapedAway c = false ∨
      ∃ name, escapeChar c = '&' :: name ∧ (∀ d ∈ name, isEscapedAway d = false ∧ Xml.isChar d) ∧
        ∀ rest, Xml.readReference (name ++ rest) = some (.char c, rest) := by
  unfold escapeChar
  split
  · exact .inr ⟨"amp;".toList, rfl, by decide, fun _ => rfl⟩
  · exact .inr ⟨"lt;".toList, rfl, by decide, fun _ => rfl⟩
  · exact .inr ⟨"gt;".toList, rfl, by decide, fun _ => rfl⟩
  · exact .inr ⟨"quot;".toList, rfl, by decide, fun _ => rfl⟩
  · exact .inr ⟨"#x27;".toList, rfl, by decide, fun _ => rfl⟩
  · next hamp hlt hgt hquot hapos =>
    refine .inl ⟨rfl, hamp, ?_⟩
    simp only [isEscapedAway, Bool.or_eq_false_iff, beq_eq_false_iff_ne]
    exact ⟨⟨⟨hlt, hgt⟩, hquot⟩, hapos⟩

theorem not_mem_flatMap_escapeChar (s : List Char) {c : Char} (hc : isEscapedAway c) :
    c ∉ s.flatMap escapeChar := by
  rw [List.mem_flatMap]
  rintro ⟨d, -, hd⟩
  obtain ⟨hsame, -, hstays⟩ | ⟨name, heq, hname, -⟩ := escapeChar_cases d
  · rw [hsame, List.mem_singleton] at hd
    subst hd
    simp [hstays] at hc
  · rw [heq, List.mem_cons] at hd
    obtain rfl | hd := hd
    · exact absurd hc (by decide)
    · simp [(hname c hd).1] at hc

theorem IsEscaped.not_mem {v : List Char} (h : IsEscaped v) {c : Char} (hc : isEscapedAway c) :
    c ∉ v := by
  obtain ⟨s, rfl, -⟩ := h
  exact not_mem_flatMap_escapeChar s hc

theorem IsEscaped.isChar {v : List Char} (h : IsEscaped v) {c : Char} (hc : c ∈ v) :
    Xml.isChar c := by
  obtain ⟨s, rfl, hs⟩ := h
  obtain ⟨d, hmem, hd⟩ := List.mem_flatMap.1 hc
  obtain ⟨hsame, -⟩ | ⟨name, heq, hname, -⟩ := escapeChar_cases d
  · rw [hsame, List.mem_singleton] at hd
    exact hd ▸ hs d hmem
  · rw [heq, List.mem_cons] at hd
    obtain rfl | hd := hd
    · decide
    · exact (hname c hd).2

end Text

/-! ## Placeholders as texts -/

namespace Placeholder

/-- Characters of which placeholders consist. Those beyond ASCII among them are blanks, which are
other characters where a text is read in another charset. -/
def mayHold (c : Char) : Bool :=
  c == '{' || c == '}' || Text.isBlank c || Name.isPart c || 128 ≤ c.toNat

/-- The text is a placeholder, as far as its braces and its characters go. -/
def IsPlaceholder (p : List Char) : Prop :=
  ∃ inside, p = '{' :: '{' :: (inside ++ ['}', '}']) ∧ ∀ c ∈ inside, mayHold c

theorem IsPlaceholder.mayHold {p : List Char} (h : IsPlaceholder p) {c : Char} (hc : c ∈ p) :
    mayHold c := by
  obtain ⟨inside, rfl, hinside⟩ := h
  simp only [List.mem_cons, List.mem_append, List.not_mem_nil, or_false] at hc
  obtain rfl | rfl | hc | rfl | rfl := hc
  · rfl
  · rfl
  · exact hinside c hc
  · rfl
  · rfl

theorem IsPlaceholder.length_pos {p : List Char} (h : IsPlaceholder p) : 0 < p.length := by
  obtain ⟨inside, rfl, -⟩ := h
  simp

/-- What is read as a placeholder is one. -/
theorem isPlaceholder_of_read? {cs rest : List Char} {name : String}
    (h : read? cs = some (name, rest)) : ∃ p, IsPlaceholder p ∧ cs = p ++ rest := by
  unfold read? at h
  split at h
  · next body =>
    obtain ⟨⟨name, rest⟩, hname, heq⟩ := Option.map_eq_some_iff.1 h
    cases heq
    simp only [named?] at hname
    split at hname
    · next c tail hbody =>
      split at hname
      · obtain ⟨after, hclosed, heq⟩ := Option.map_eq_some_iff.1 hname
        cases heq
        simp only [closed?] at hclosed
        split at hclosed
        · next hbraces =>
          cases hclosed
          let blank := body.takeWhile Text.isBlank
          let name := (body.dropWhile Text.isBlank).takeWhile Name.isPart
          let rest' := (body.dropWhile Text.isBlank).dropWhile Name.isPart
          refine ⟨_, ⟨blank ++ (name ++ rest'.takeWhile Text.isBlank), rfl, ?_⟩, ?_⟩
          · intro d hd
            simp only [List.mem_append] at hd
            obtain hd | hd | hd := hd
            · simp [mayHold, List.mem_takeWhile_imp hd]
            · simp [mayHold, List.mem_takeWhile_imp hd]
            · simp [mayHold, List.mem_takeWhile_imp hd]
          · have hbody : body = blank ++ (name ++ (rest'.takeWhile Text.isBlank ++ '}' :: '}' :: rest)) := by
              rw [← hbraces, List.takeWhile_append_dropWhile, List.takeWhile_append_dropWhile,
                List.takeWhile_append_dropWhile]
            rw [hbody]
            simp [blank, name, rest']
        · cases hclosed
      · cases hname
    · cases hname
  · cases h

theorem parts_of_read? {c : Char} {cs rest : List Char} {name : String}
    (h : read? (c :: cs) = some (name, rest)) : parts (c :: cs) = .slot name :: parts rest := by
  rw [parts]
  split
  · next heq =>
    rw [h] at heq
    cases heq
    rfl
  · next heq =>
    rw [h] at heq
    cases heq

theorem parts_of_read?_eq_none {c : Char} {cs : List Char} (h : read? (c :: cs) = none) :
    parts (c :: cs) = .char c :: parts cs := by
  rw [parts]
  split
  · next heq =>
    rw [h] at heq
    cases heq
  · rfl

end Placeholder

/-! ## Parts beside the text that they fill -/

namespace Part

/-- A text as parts that stay. -/
def literal (cs : List Char) : List (Part (List Char)) :=
  cs.map .char

/-- The text of parts with texts in their slots. -/
def filled (ps : List (Part (List Char))) : List Char :=
  render id ps

@[simp] theorem filled_nil : filled [] = [] := rfl

@[simp] theorem filled_char (c : Char) (ps : List (Part (List Char))) :
    filled (.char c :: ps) = c :: filled ps := rfl

@[simp] theorem filled_slot (v : List Char) (ps : List (Part (List Char))) :
    filled (.slot v :: ps) = v ++ filled ps := rfl

@[simp] theorem filled_append (ps qs : List (Part (List Char))) :
    filled (ps ++ qs) = filled ps ++ filled qs := by
  induction ps with
  | nil => rfl
  | cons p ps ih => cases p <;> simp [ih]

@[simp] theorem literal_nil : literal [] = [] := rfl

@[simp] theorem literal_cons (c : Char) (cs : List Char) :
    literal (c :: cs) = .char c :: literal cs := rfl

@[simp] theorem filled_literal (cs : List Char) : filled (literal cs) = cs := by
  induction cs with
  | nil => rfl
  | cons c cs ih => simp [ih]

/-- The parts cover a text: they are its characters in order, with some text in the place of some of
its placeholders. -/
inductive Covers : List (Part (List Char)) → List Char → Prop
  | nil : Covers [] []
  | char (c : Char) {ps : List (Part (List Char))} {cs : List Char} (h : Covers ps cs) :
      Covers (.char c :: ps) (c :: cs)
  | slot (v : List Char) {p cs : List Char} {ps : List (Part (List Char))}
      (hp : Placeholder.IsPlaceholder p) (h : Covers ps cs) : Covers (.slot v :: ps) (p ++ cs)

/-- The parts fill a text: they are its characters in order, with an escaped text in the place of
some of its placeholders. -/
inductive Fills : List (Part (List Char)) → List Char → Prop
  | nil : Fills [] []
  | char (c : Char) {ps : List (Part (List Char))} {cs : List Char} (h : Fills ps cs) :
      Fills (.char c :: ps) (c :: cs)
  | slot {v p cs : List Char} {ps : List (Part (List Char))} (hv : Text.IsEscaped v)
      (hp : Placeholder.IsPlaceholder p) (h : Fills ps cs) : Fills (.slot v :: ps) (p ++ cs)

namespace Covers

variable {ps : List (Part (List Char))} {a cs : List Char}

theorem eq_nil (h : Covers ps []) : ps = [] := by
  generalize hcs : ([] : List Char) = cs at h
  cases h with
  | nil => rfl
  | char => cases hcs
  | slot _ hp =>
    obtain ⟨_, rfl, -⟩ := hp
    cases hcs

/-- Only a brace can begin a placeholder. -/
theorem exists_cons {c : Char} (h : Covers ps (c :: cs)) (hc : c ≠ '{') :
    ∃ ps', ps = .char c :: ps' ∧ Covers ps' cs := by
  generalize hcs : c :: cs = ds at h
  cases h with
  | nil => cases hcs
  | char d h =>
    cases hcs
    exact ⟨_, rfl, h⟩
  | slot _ hp =>
    obtain ⟨_, rfl, -⟩ := hp
    cases hcs
    exact absurd rfl hc

/-- A text without doubled braces, which does not end within some, has no placeholder. -/
theorem exists_append (h : Covers ps (a ++ cs)) (ha : ¬ ['{', '{'] <:+: a)
    (hlast : a.getLast? ≠ some '{') : ∃ ps', ps = literal a ++ ps' ∧ Covers ps' cs := by
  induction a generalizing ps with
  | nil => exact ⟨ps, rfl, h⟩
  | cons c a ih =>
    generalize hds : c :: a ++ cs = ds at h
    cases h with
    | nil => cases hds
    | char d h =>
      cases hds
      have ha' : ¬ ['{', '{'] <:+: a := fun hin => ha (hin.trans (List.suffix_cons c a).isInfix)
      have hlast' : a.getLast? ≠ some '{' := by
        intro hl
        rw [List.getLast?_cons, hl] at hlast
        exact hlast rfl
      obtain ⟨ps', rfl, h'⟩ := ih h ha' hlast'
      exact ⟨ps', rfl, h'⟩
    | slot _ hp =>
      obtain ⟨inside, rfl, -⟩ := hp
      obtain ⟨rfl, htail⟩ := List.cons.inj hds
      cases a with
      | nil => exact absurd rfl hlast
      | cons d a =>
        obtain ⟨rfl, -⟩ := List.cons.inj htail
        exact absurd ⟨[], a, rfl⟩ ha

theorem exists_append_of_not_mem (h : Covers ps (a ++ cs)) (ha : '{' ∉ a) :
    ∃ ps', ps = literal a ++ ps' ∧ Covers ps' cs :=
  h.exists_append (fun hin => ha (hin.subset (by simp)))
    fun hlast => ha (List.mem_of_getLast? hlast)

theorem head?_filled (h : Covers ps cs) (hcs : cs.head? ≠ some '{') :
    (filled ps).head? = cs.head? := by
  cases cs with
  | nil => rw [h.eq_nil, filled_nil]
  | cons c cs =>
    obtain ⟨ps', rfl, -⟩ := h.exists_cons fun heq => hcs (by rw [heq]; rfl)
    rfl

end Covers

/-- What fills a text are the parts that cover it with escaped texts. -/
theorem fills_iff {ps : List (Part (List Char))} {cs : List Char} :
    Fills ps cs ↔ Covers ps cs ∧ ∀ v, .slot v ∈ ps → Text.IsEscaped v := by
  constructor
  · intro h
    induction h with
    | nil => exact ⟨.nil, nofun⟩
    | char c _ ih => exact ⟨ih.1.char c, fun v hv => ih.2 v (by simpa using hv)⟩
    | slot hv hp _ ih =>
      refine ⟨ih.1.slot _ hp, fun w hw => ?_⟩
      obtain heq | hw := List.mem_cons.1 hw
      · cases heq
        exact hv
      · exact ih.2 w hw
  · rintro ⟨h, hescaped⟩
    induction h with
    | nil => exact .nil
    | char c _ ih => exact .char c (ih fun v hv => hescaped v (by simp [hv]))
    | slot v hp _ ih => exact .slot (hescaped v (by simp)) hp (ih fun w hw => hescaped w (by simp [hw]))

/-- The parts of a text fill it. -/
theorem fills_parts (value : String → List Char) (cs : List Char)
    (hvalue : ∀ name ∈ slots (Placeholder.parts cs), Text.IsEscaped (value name)) :
    Fills ((Placeholder.parts cs).map (map value)) cs := by
  induction cs using Placeholder.parts.induct with
  | case1 => simpa [Placeholder.parts] using Fills.nil
  | case2 c cs name rest hread ih =>
    obtain ⟨p, hp, heq⟩ := Placeholder.isPlaceholder_of_read? hread
    rw [Placeholder.parts_of_read? hread] at hvalue ⊢
    rw [heq]
    exact .slot (hvalue name (by simp [slots])) hp
      (ih fun n hn => hvalue n (by simp [slots, hn]))
  | case3 c cs hread ih =>
    rw [Placeholder.parts_of_read?_eq_none hread] at hvalue ⊢
    exact .char c (ih hvalue)

theorem fills_literal (cs : List Char) : Fills (literal cs) cs := by
  induction cs with
  | nil => exact .nil
  | cons c cs ih => exact .char c ih

namespace Fills

variable {ps qs : List (Part (List Char))} {a b cs : List Char}

theorem covers (h : Fills ps cs) : Covers ps cs :=
  (fills_iff.1 h).1

/-- What is left of parts that fill a text fills what it covers. -/
theorem of_suffix (h : Fills ps cs) (hqs : qs <:+ ps) (hb : Covers qs b) : Fills qs b :=
  fills_iff.2 ⟨hb, fun v hv => (fills_iff.1 h).2 v (hqs.subset hv)⟩

theorem append (hp : Fills ps a) (hq : Fills qs b) : Fills (ps ++ qs) (a ++ b) := by
  induction hp with
  | nil => exact hq
  | char c _ ih => exact .char c ih
  | slot hv hp _ ih => exact List.append_assoc .. ▸ .slot hv hp ih

theorem eq_nil (h : Fills ps []) : ps = [] :=
  h.covers.eq_nil

theorem exists_cons {c : Char} (h : Fills ps (c :: cs)) (hc : c ≠ '{') :
    ∃ ps', ps = .char c :: ps' ∧ Fills ps' cs := by
  obtain ⟨ps', rfl, h'⟩ := h.covers.exists_cons hc
  exact ⟨ps', rfl, h.of_suffix (List.suffix_cons _ _) h'⟩

theorem exists_append (h : Fills ps (a ++ cs)) (ha : ¬ ['{', '{'] <:+: a)
    (hlast : a.getLast? ≠ some '{') : ∃ ps', ps = literal a ++ ps' ∧ Fills ps' cs := by
  obtain ⟨ps', rfl, h'⟩ := h.covers.exists_append ha hlast
  exact ⟨ps', rfl, h.of_suffix (List.suffix_append _ _) h'⟩

theorem exists_append_of_not_mem (h : Fills ps (a ++ cs)) (ha : '{' ∉ a) :
    ∃ ps', ps = literal a ++ ps' ∧ Fills ps' cs := by
  obtain ⟨ps', rfl, h'⟩ := h.covers.exists_append_of_not_mem ha
  exact ⟨ps', rfl, h.of_suffix (List.suffix_append _ _) h'⟩

theorem head?_filled (h : Fills ps cs) (hcs : cs.head? ≠ some '{') :
    (filled ps).head? = cs.head? :=
  h.covers.head?_filled hcs

/-- What stands in no placeholder splits the parts as it splits their text. -/
theorem exists_split {m : Char} (h : Fills ps (a ++ m :: b)) (hm : Placeholder.mayHold m = false) :
    ∃ pa pb, ps = pa ++ .char m :: pb ∧ Fills pa a ∧ Fills pb b := by
  generalize hcs : a ++ m :: b = cs at h
  induction h generalizing a with
  | nil => simp at hcs
  | char c h ih =>
    cases a with
    | nil =>
      cases hcs
      exact ⟨[], _, rfl, .nil, h⟩
    | cons d a =>
      cases hcs
      obtain ⟨pa, pb, rfl, ha, hb⟩ := ih rfl
      exact ⟨_ :: pa, pb, rfl, .char _ ha, hb⟩
  | @slot v p cs ps hv hp h ih =>
    obtain ⟨p', rfl, htail⟩ | ⟨a', rfl, htail⟩ := List.append_eq_append_iff.1 hcs
    · cases p' with
      | nil =>
        obtain ⟨pa, pb, rfl, ha, hb⟩ := ih (a := []) (by simpa using htail)
        exact ⟨.slot v :: pa, pb, rfl, by simpa using ha.slot hv hp, hb⟩
      | cons d p' =>
        obtain ⟨rfl, -⟩ := List.cons.inj htail
        have hheld : Placeholder.mayHold m := hp.mayHold (by simp)
        simp [hm] at hheld
    · obtain ⟨pa, pb, rfl, ha, hb⟩ := ih htail.symm
      exact ⟨.slot v :: pa, pb, rfl, ha.slot hv hp, hb⟩

theorem exists_split_append {m : List Char} (h : Fills ps (a ++ (m ++ b))) (hne : m ≠ [])
    (hm : ∀ c ∈ m, Placeholder.mayHold c = false) :
    ∃ pa pb, ps = pa ++ (literal m ++ pb) ∧ Fills pa a ∧ Fills pb b := by
  obtain ⟨c, m, rfl⟩ := List.exists_cons_of_ne_nil hne
  obtain ⟨pa, pm, rfl, ha, hmb⟩ := h.exists_split (hm c (by simp))
  have hbrace : '{' ∉ m := fun hmem => absurd (hm '{' (by simp [hmem])) (by decide)
  obtain ⟨pb, rfl, hb⟩ := hmb.exists_append_of_not_mem hbrace
  exact ⟨pa, pb, rfl, ha, hb⟩

theorem exists_of_append {cs : List Char} (h : Fills (ps ++ qs) cs) :
    ∃ a b, cs = a ++ b ∧ Fills ps a ∧ Fills qs b := by
  induction ps generalizing cs with
  | nil => exact ⟨[], cs, rfl, .nil, h⟩
  | cons p ps ih =>
    cases h with
    | char c h =>
      obtain ⟨a, b, rfl, ha, hb⟩ := ih h
      exact ⟨c :: a, b, rfl, ha.char c, hb⟩
    | slot hv hp h =>
      obtain ⟨a, b, rfl, ha, hb⟩ := ih h
      exact ⟨_, b, (List.append_assoc ..).symm, ha.slot hv hp, hb⟩

theorem eq_of_literal (h : Fills (literal a) cs) : cs = a := by
  induction a generalizing cs with
  | nil =>
    cases h
    rfl
  | cons c a ih =>
    cases h with
    | char _ h => rw [ih h]

/-- What the parts hold literally, their text holds. -/
theorem infix_of_literal {m : List Char} (h : Fills ps cs) (hm : literal m <:+: ps) :
    m <:+: cs := by
  obtain ⟨x, y, rfl⟩ := hm
  obtain ⟨xm, c, rfl, hxm, -⟩ := h.exists_of_append
  obtain ⟨b, m', rfl, -, hm⟩ := hxm.exists_of_append
  rw [hm.eq_of_literal]
  exact ⟨b, c, rfl⟩

/-- What is escaped in texts stands among the parts as it stands in the filled text. -/
theorem exists_filled_split {m : Char} (h : Fills ps cs) (hm : Text.isEscapedAway m)
    (heq : filled ps = a ++ m :: b) :
    ∃ pa pb, ps = pa ++ .char m :: pb ∧ filled pa = a ∧ filled pb = b := by
  induction h generalizing a with
  | nil => simp at heq
  | char c h ih =>
    cases a with
    | nil =>
      obtain ⟨rfl, rfl⟩ := List.cons.inj heq
      exact ⟨[], _, rfl, rfl, rfl⟩
    | cons d a =>
      obtain ⟨rfl, htail⟩ := List.cons.inj heq
      obtain ⟨pa, pb, rfl, rfl, rfl⟩ := ih htail
      exact ⟨.char c :: pa, pb, rfl, rfl, rfl⟩
  | @slot v p cs ps hv hp h ih =>
    rw [filled_slot] at heq
    obtain ⟨a', rfl, htail⟩ | ⟨v', rfl, htail⟩ := List.append_eq_append_iff.1 heq
    · obtain ⟨pa, pb, rfl, rfl, rfl⟩ := ih htail
      exact ⟨.slot v :: pa, pb, rfl, rfl, rfl⟩
    · cases v' with
      | nil =>
        obtain ⟨pa, pb, rfl, hpa, rfl⟩ := ih (a := []) (by simpa using htail.symm)
        exact ⟨.slot (a ++ []) :: pa, pb, rfl, by simp [hpa], rfl⟩
      | cons d v' =>
        obtain ⟨rfl, -⟩ := List.cons.inj htail
        exact absurd (by simp) (hv.not_mem hm)

theorem not_mem_filled {m : Char} (h : Fills ps cs) (hm : Text.isEscapedAway m) (hcs : m ∉ cs) :
    m ∉ filled ps := by
  intro hmem
  obtain ⟨a, b, heq⟩ := List.append_of_mem hmem
  obtain ⟨pa, pb, rfl, -⟩ := h.exists_filled_split hm heq
  exact hcs ((h.infix_of_literal (m := [m]) ⟨pa, pb, by simp⟩).subset (by simp))

theorem isChar_filled (h : Fills ps cs) (hcs : ∀ c ∈ cs, Xml.isChar c) :
    ∀ c ∈ filled ps, Xml.isChar c := by
  induction h with
  | nil => simp
  | char c h ih =>
    rw [filled_char, List.forall_mem_cons]
    exact ⟨hcs c (by simp), ih fun d hd => hcs d (by simp [hd])⟩
  | slot hv hp h ih =>
    rw [filled_slot, List.forall_mem_append]
    exact ⟨fun d hd => hv.isChar hd, ih fun d hd => hcs d (by simp [hd])⟩

end Fills

end Part

end Inventory
