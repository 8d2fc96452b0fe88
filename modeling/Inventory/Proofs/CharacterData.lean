import Inventory.Proofs.Labels

/-!
# What is read of a label

A reader of documents unifies the ends of lines before all else, and then reports the characters of
the text between tags, with those that references stand for. Of an escaped text it reports the
text itself if there is no carriage return in it, and the text with its line ends unified in any
case, whatever literal text stands around it.
-/

namespace Inventory

/-! ## The ends of lines -/

namespace Xml

/-- Unifies the ends of lines: a carriage return becomes a line feed, with one behind it or not. -/
def unifyLineEnds : List Char → List Char
  | '\r' :: '\n' :: rest => '\n' :: unifyLineEnds rest
  | '\r' :: rest => '\n' :: unifyLineEnds rest
  | c :: rest => c :: unifyLineEnds rest
  | [] => []

variable {c : Char} {a b cs rest : List Char}

theorem unifyLineEnds_cons (h : c ≠ '\r') (rest : List Char) :
    unifyLineEnds (c :: rest) = c :: unifyLineEnds rest := by
  rw [unifyLineEnds]
  · rintro _ rfl
    exact absurd rfl h
  · exact h

theorem unifyLineEnds_return (h : rest.head? ≠ some '\n') :
    unifyLineEnds ('\r' :: rest) = '\n' :: unifyLineEnds rest := by
  rw [unifyLineEnds]
  rintro tail rfl
  exact h rfl

theorem unifyLineEnds_append_of_not_mem (h : '\r' ∉ a) (b : List Char) :
    unifyLineEnds (a ++ b) = a ++ unifyLineEnds b := by
  induction a with
  | nil => rfl
  | cons c a ih =>
      rw [List.mem_cons, not_or] at h
      rw [List.cons_append, unifyLineEnds_cons (Ne.symm h.1), ih h.2, List.cons_append]

/-- Two texts are unified apart if no line end can stretch over both. -/
theorem unifyLineEnds_append (h : a.getLast? ≠ some '\r') (b : List Char) :
    unifyLineEnds (a ++ b) = unifyLineEnds a ++ unifyLineEnds b := by
  induction a using unifyLineEnds.induct with
  | case1 rest ih =>
      have hrest : rest.getLast? ≠ some '\r' := by
        rintro hlast
        simp [List.getLast?_cons, hlast] at h
      rw [List.cons_append, List.cons_append, unifyLineEnds, ih hrest, unifyLineEnds,
        List.cons_append]
  | case2 rest hno ih =>
      obtain ⟨d, tail, rfl⟩ : ∃ d tail, rest = d :: tail := by
        cases rest with
        | nil => exact absurd rfl h
        | cons d tail => exact ⟨d, tail, rfl⟩
      have hd : ∀ (x : List Char), (d :: x).head? ≠ some '\n' := by
        intro x heq
        cases heq
        exact hno tail rfl
      rw [List.cons_append, List.cons_append, unifyLineEnds_return (hd _), ← List.cons_append,
        ih (by simpa using h), unifyLineEnds_return (hd _), List.cons_append]
  | case3 c rest _ hc ih =>
      have hrest : rest.getLast? ≠ some '\r' := by
        rintro hlast
        simp [List.getLast?_cons, hlast] at h
      rw [List.cons_append, unifyLineEnds_cons hc, ih hrest, unifyLineEnds_cons hc, List.cons_append]
  | case4 => rfl

/-- No carriage return is left, and nothing but line feeds is new. -/
theorem mem_unifyLineEnds (h : c ∈ unifyLineEnds cs) : c = '\n' ∨ c ∈ cs ∧ c ≠ '\r' := by
  induction cs using unifyLineEnds.induct with
  | case1 rest ih =>
      rw [unifyLineEnds] at h
      rcases List.mem_cons.1 h with rfl | h
      · exact .inl rfl
      · exact (ih h).imp_right fun ⟨hmem, hne⟩ => ⟨by simp [hmem], hne⟩
  | case2 rest hno ih =>
      rw [unifyLineEnds] at h
      · rcases List.mem_cons.1 h with rfl | h
        · exact .inl rfl
        · exact (ih h).imp_right fun ⟨hmem, hne⟩ => ⟨by simp [hmem], hne⟩
      · exact hno
  | case3 d rest _ hd ih =>
      rw [unifyLineEnds_cons hd] at h
      rcases List.mem_cons.1 h with rfl | h
      · exact .inr ⟨List.mem_cons_self .., hd⟩
      · exact (ih h).imp_right fun ⟨hmem, hne⟩ => ⟨by simp [hmem], hne⟩
  | case4 => cases h

theorem unifyLineEnds_eq_self_iff : unifyLineEnds cs = cs ↔ '\r' ∉ cs := by
  constructor
  · intro heq hmem
    rw [← heq] at hmem
    rcases mem_unifyLineEnds hmem with h | ⟨-, h⟩
    · cases h
    · exact h rfl
  · intro h
    have happend := unifyLineEnds_append_of_not_mem h []
    rwa [List.append_nil, unifyLineEnds, List.append_nil] at happend

/-! ## The characters of content -/

theorem readReference_length {r : Reference} (h : readReference cs = some (r, rest)) :
    rest.length < cs.length := by
  obtain ⟨body, rfl, -, -⟩ := readReference_spec h
  simp
  omega

/-- The characters that are reported for text between tags. There are none where markup begins, where
a reference is to no character, or where a character stands that no document may hold. -/
def characters (cs : List Char) : Option (List Char) :=
  match cs with
  | [] => some []
  | '&' :: rest =>
    match _h : readReference rest with
    | some (.char c, rest) => (characters rest).map (c :: ·)
    | _ => none
  | '<' :: _ => none
  | c :: rest => if isChar c then (characters rest).map (c :: ·) else none
termination_by cs.length
decreasing_by
  · exact Nat.lt_succ_of_lt (readReference_length ‹_›)
  · simp

/-- What a reader reports for text between tags, in which no section may seem to end. -/
def reported (cs : List Char) : Option (List Char) :=
  if "]]>".toList <:+: cs then none else characters (unifyLineEnds cs)

theorem characters_cons (hamp : c ≠ '&') (hlt : c ≠ '<') (hc : isChar c) (rest : List Char) :
    characters (c :: rest) = (characters rest).map (c :: ·) := by
  rw [characters, if_pos hc]
  · exact hamp
  · exact hlt

theorem characters_reference (h : readReference cs = some (.char c, rest)) :
    characters ('&' :: cs) = (characters rest).map (c :: ·) := by
  rw [characters]
  split
  · next heq =>
      rw [h] at heq
      cases heq
      rfl
  · next hno => exact absurd h (hno c rest)

/-- What is read to its end is read so in front of any text. -/
theorem characters_append (h : characters a = some b) (rest : List Char) :
    characters (a ++ rest) = (characters rest).map (b ++ ·) := by
  induction a using characters.induct generalizing b with
  | case1 =>
      rw [characters] at h
      cases h
      exact (Option.map_id_apply ..).symm
  | case2 cs c behind hread ih =>
      obtain ⟨body, rfl, -, hbody⟩ := readReference_spec hread
      rw [characters_reference hread] at h
      obtain ⟨b, hb, rfl⟩ := Option.map_eq_some_iff.1 h
      have happend : '&' :: (body ++ ';' :: behind) ++ rest = '&' :: (body ++ ';' :: (behind ++ rest)) := by
        simp
      rw [happend, characters_reference (hbody _), ih hb, Option.map_map]
      rfl
  | case3 cs hno =>
      rw [characters] at h
      split at h
      · next c behind heq => exact absurd heq (hno c behind)
      · cases h
  | case4 cs =>
      rw [characters] at h
      cases h
  | case5 c cs hamp hlt hc ih =>
      rw [characters_cons hamp hlt hc] at h
      obtain ⟨b, hb, rfl⟩ := Option.map_eq_some_iff.1 h
      rw [List.cons_append, characters_cons hamp hlt hc, ih hb, Option.map_map]
      rfl
  | case6 c cs hamp hlt hc =>
      rw [characters, if_neg hc] at h
      · cases h
      · exact hamp
      · exact hlt

end Xml

/-! ## Escaped texts in content -/

namespace Text

open Xml (unifyLineEnds characters reported)

variable {c : Char} {cs : List Char}

theorem characters_escapeChar (hc : Xml.isChar c) : characters (escapeChar c) = some [c] := by
  obtain ⟨hsame, hamp, haway⟩ | ⟨name, heq, -, hread⟩ := escapeChar_cases c
  · have hlt : c ≠ '<' := by
      rintro rfl
      exact absurd haway (by decide)
    rw [hsame, Xml.characters_cons hamp hlt hc, characters]
    rfl
  · have hname := hread []
    rw [List.append_nil] at hname
    rw [heq, Xml.characters_reference hname, characters]
    rfl

/-- Of an escaped text the text itself is read. -/
theorem characters_flatMap_escapeChar (h : ∀ c ∈ cs, Xml.isChar c) :
    characters (cs.flatMap escapeChar) = some cs := by
  induction cs with
  | nil =>
      rw [List.flatMap_nil, characters]
  | cons c cs ih =>
      obtain ⟨hc, hcs⟩ := List.forall_mem_cons.1 h
      rw [List.flatMap_cons, Xml.characters_append (characters_escapeChar hc), ih hcs]
      rfl

theorem escapeChar_return : escapeChar '\r' = ['\r'] := rfl

theorem not_mem_escapeChar_return (hc : c ≠ '\r') : '\r' ∉ escapeChar c := by
  unfold escapeChar
  split
  · decide
  · decide
  · decide
  · decide
  · decide
  · exact fun hmem => hc (List.mem_singleton.1 hmem).symm

theorem head?_escapeChar (hc : c ≠ '\n') (rest : List Char) :
    (escapeChar c ++ rest).head? ≠ some '\n' := by
  unfold escapeChar
  split
  · exact nofun
  · exact nofun
  · exact nofun
  · exact nofun
  · exact nofun
  · exact fun heq => hc (Option.some.inj heq)

/-- Escaping does not touch the ends of lines. -/
theorem unifyLineEnds_flatMap_escapeChar (cs : List Char) :
    unifyLineEnds (cs.flatMap escapeChar) = (unifyLineEnds cs).flatMap escapeChar := by
  induction cs using Inventory.Xml.unifyLineEnds.induct with
  | case1 rest ih =>
      rw [unifyLineEnds, List.flatMap_cons, List.flatMap_cons, List.flatMap_cons, ← ih]
      rfl
  | case2 rest hno ih =>
      have hhead : (rest.flatMap escapeChar).head? ≠ some '\n' := by
        cases rest with
        | nil => exact nofun
        | cons d tail =>
            rw [List.flatMap_cons]
            exact head?_escapeChar (fun hd => hno tail (by rw [hd])) _
      rw [List.flatMap_cons, escapeChar_return, List.singleton_append,
        Xml.unifyLineEnds_return hhead, ih, unifyLineEnds, List.flatMap_cons]
      · rfl
      · exact hno
  | case3 c rest _ hc ih =>
      rw [List.flatMap_cons, Xml.unifyLineEnds_append_of_not_mem (not_mem_escapeChar_return hc), ih,
        Xml.unifyLineEnds_cons hc, List.flatMap_cons]
  | case4 => rfl

/-- No section seems to end in an escaped text. -/
theorem not_infix_escape (s : String) : ¬"]]>".toList <:+: escape s := by
  intro hin
  exact not_mem_flatMap_escapeChar s.toList (c := '>') rfl (hin.subset (by decide))

end Text

namespace Xml

variable {s : String} {before after b a : List Char}

theorem reported_escape (hs : ∀ c ∈ s.toList, isChar c) :
    reported (Text.escape s) = some (unifyLineEnds s.toList) := by
  have hchars : ∀ c ∈ unifyLineEnds s.toList, isChar c := by
    intro c hc
    rcases mem_unifyLineEnds hc with rfl | ⟨hmem, -⟩
    · decide
    · exact hs c hmem
  rw [reported, if_neg (Text.not_infix_escape s), Text.escape, Text.unifyLineEnds_flatMap_escapeChar,
    Text.characters_flatMap_escapeChar hchars]

/-- Between literal texts that are text themselves, the text is read as it is. -/
theorem reported_between (hs : ∀ c ∈ s.toList, isChar c) (hreturn : '\r' ∉ s.toList)
    (hbefore : reported before = some b) (hafter : reported after = some a)
    (hlast : before.getLast? ≠ some '\r')
    (hend : ¬"]]>".toList <:+: before ++ (Text.escape s ++ after)) :
    reported (before ++ (Text.escape s ++ after)) = some (b ++ (s.toList ++ a)) := by
  have hescaped : '\r' ∉ Text.escape s := by
    rw [Text.escape, List.mem_flatMap]
    rintro ⟨c, hc, hmem⟩
    have hne : c ≠ '\r' := fun heq => hreturn (heq ▸ hc)
    exact Text.not_mem_escapeChar_return hne hmem
  unfold reported at hbefore hafter
  split at hbefore
  · cases hbefore
  · split at hafter
    · cases hafter
    · rw [reported, if_neg hend, unifyLineEnds_append hlast,
        unifyLineEnds_append_of_not_mem hescaped, characters_append hbefore, Text.escape,
        characters_append (Text.characters_flatMap_escapeChar hs), hafter]
      rfl

/-- How a text is seen that was escaped and put into content: with its line ends unified, and so as
it is exactly if it has no carriage return, also with literal text around it. -/
structure Shows (s : String) : Prop where
  unified : reported (Text.escape s) = some (unifyLineEnds s.toList)
  literal_iff : reported (Text.escape s) = some s.toList ↔ '\r' ∉ s.toList
  between : ∀ before after b a, reported before = some b → reported after = some a →
    before.getLast? ≠ some '\r' → ¬"]]>".toList <:+: before ++ (Text.escape s ++ after) →
    '\r' ∉ s.toList → reported (before ++ (Text.escape s ++ after)) = some (b ++ (s.toList ++ a))

theorem shows_of_isChar (hs : ∀ c ∈ s.toList, isChar c) : Shows s where
  unified := reported_escape hs
  literal_iff := by
    rw [reported_escape hs, Option.some.injEq]
    exact unifyLineEnds_eq_self_iff
  between _ _ _ _ hbefore hafter hlast hend hreturn :=
    reported_between hs hreturn hbefore hafter hlast hend

/-! ## Main result -/

/-- Every text that is accepted is read back with its line ends unified, and so is every text that a
label has for an entry that is held, be it a key, a location or the text of a field. It is read back
as it is stored exactly if it has no carriage return. -/
theorem read_as_stored (text what kept : String) (e : Entry) (c : Category) (name : String) :
    (checkText text what = .ok kept → Shows text) ∧ (e.IsHeld → Shows (e.labelText c name)) :=
  ⟨fun h => shows_of_isChar (isChar_of_checkText h),
    fun h => shows_of_isChar (h.isChar_labelText c name)⟩

/-- A location with markup in it, on a label with a word in front, and the text of a field. -/
theorem drawer_read :
    let tools : Category := ⟨"tools", [⟨"size", .text⟩]⟩
    let hammer : Entry := ⟨"hammer", "tools", "shed", .int 1, [("size", .text "<3")], none, none⟩
    reported ("in " ++ String.ofList (Text.escape "drawer <1> & \"2\"")).toList =
        some "in drawer <1> & \"2\"".toList ∧
      hammer.IsHeld ∧ reported (Text.escape (hammer.labelText tools "size")) = some "<3".toList := by
  intro tools hammer
  have hkept : checkText "drawer <1> & \"2\"" "location" = .ok "drawer <1> & \"2\"" :=
    checkText_eq_ok _ (by decide +kernel)
  have hheld : hammer.IsHeld :=
    ⟨Value.isHeld_text (by decide +kernel), Value.isHeld_text (by decide +kernel),
      Value.isHeld_text (by decide +kernel), trivial,
      by simpa [hammer] using Value.isHeld_text (by decide +kernel), nofun, nofun⟩
  obtain ⟨hdrawer, hhammer⟩ := read_as_stored _ _ _ hammer tools "size"
  have hread := (hdrawer hkept).between "in ".toList [] "in ".toList []
    (by decide +kernel) (by decide +kernel) (by decide +kernel) (by decide +kernel) (by decide +kernel)
  have hsize := (hhammer hheld).literal_iff.2 (by decide +kernel)
  refine ⟨?_, hheld, hsize.trans (by decide +kernel)⟩
  rw [String.toList_append, String.toList_ofList]
  rw [List.append_nil, List.append_nil] at hread
  exact hread.trans (by decide +kernel)

/-- A carriage return in a location is accepted and stands on the label, but a reader of the label
sees a line feed. -/
theorem return_read_as_line_feed :
    let t : Template := ⟨"label", "<b>\x7b\x7blocation\x7d\x7d</b>"⟩
    let tools : Category := ⟨"tools", [⟨"size", .text⟩]⟩
    let hammer : Entry := ⟨"hammer", "tools", "a\rb", .int 1, [("size", .null)], none, none⟩
    let s : Session :=
      { Session.fresh Database.empty "2024-01-01 00:00:00" with cache := some ⟨0, [tools]⟩ }
    checkText "a\rb" "location" = .ok "a\rb" ∧ hammer.IsHeld ∧
      (Store.fill t hammer true).exec s = (.ok ⟨"<b>a\rb</b>", []⟩, s) ∧
      reported (Text.escape "a\rb") = some "a\nb".toList ∧
      reported (Text.escape "a\rb") ≠ some "a\rb".toList := by
  intro t tools hammer s
  have hkept : checkText "a\rb" "location" = .ok "a\rb" := checkText_eq_ok _ (by decide +kernel)
  have hread : reported (Text.escape "a\rb") = some "a\nb".toList :=
    reported_escape (isChar_of_checkText hkept)
  have hc : (Registry.resolve hammer.category).exec s = (.ok tools, s) :=
    Registry.exec_resolve_of_cached rfl rfl (by decide +kernel)
  have hbound : ∀ p ∈ t.placeholders, p ∈ Entry.propertyNames ∨ p ∈ tools.fieldNames := by
    decide +kernel
  have htext : String.ofList (Part.filled (t.cells (hammer.labelText tools))) = "<b>a\rb</b>" := by
    decide +kernel
  refine ⟨hkept, ⟨Value.isHeld_text (by decide +kernel), Value.isHeld_text (by decide +kernel),
    Value.isHeld_text (by decide +kernel), trivial, by simp [hammer, Value.IsHeld], nofun, nofun⟩,
    ?_, hread, ?_⟩
  · have hcheck : Template.check t.name "<b>a\rb</b>" = .ok () :=
      Template.check_eq_ok.2 (by decide +kernel)
    rw [Store.exec_fill_strict hc hbound, htext, hcheck]
    rfl
  · rw [hread]
    decide +kernel

end Xml

end Inventory
