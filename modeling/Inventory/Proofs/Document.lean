import Inventory.Proofs.Content
import Inventory.Proofs.DocumentType

/-!
# Documents that are filled

A well-formed document stays one when it is filled, if the placeholders stand outside its declaration
of a type and filling forms no marks.
-/

namespace Inventory

open Xml

namespace Part

variable {whole ps qs : List (Part (List Char))} {a cs rest : List Char}

/-! ## Around the root -/

/-- What is skipped around the root is skipped in the filled text, up to what may follow there. -/
theorem Fills.skipMisc {fuel : Nat} (hk : Kept whole) (hwhole : ps <:+ whole) (h : Fills ps cs)
    (hm : skipMisc fuel cs = some rest) :
    ∃ ps', ps' <:+ ps ∧ Fills ps' rest ∧ ∀ n ≥ (filled ps).length,
      ∃ m ≥ (filled ps').length, Xml.skipMisc n (filled ps) = Xml.skipMisc m (filled ps') := by
  induction fuel generalizing ps cs with
  | zero =>
    cases hm
    exact ⟨ps, List.suffix_rfl, h, fun n hn => ⟨n, hn, rfl⟩⟩
  | succ fuel ih =>
    have hstep {ps₁ : List (Part (List Char))} {tail : List Char} (hleft : Left ps₁ ps)
        (h₁ : Fills ps₁ tail) (htail : Xml.skipMisc fuel tail = some rest)
        (hskip : ∀ n, Xml.skipMisc (n + 1) (filled ps) = Xml.skipMisc n (filled ps₁)) :
        ∃ ps', ps' <:+ ps ∧ Fills ps' rest ∧ ∀ n ≥ (filled ps).length,
          ∃ m ≥ (filled ps').length, Xml.skipMisc n (filled ps) = Xml.skipMisc m (filled ps') := by
      obtain ⟨ps', hsuffix, h', hmisc⟩ := ih (hleft.1.trans hwhole) h₁ htail
      refine ⟨ps', hsuffix.trans hleft.1, h', fun n hn => ?_⟩
      have hlt := hleft.2
      obtain ⟨n, rfl⟩ := hleft.exists_succ hn
      rw [hskip]
      exact hmisc n (by omega)
    rw [Xml.skipMisc.eq_def] at hm
    dsimp only at hm
    split at hm
    · next tail =>
      obtain ⟨tail', hcomment, hm⟩ := Option.bind_eq_some_iff.1 hm
      obtain ⟨ps₁, rfl, h₁⟩ := h.exists_append_of_not_mem (a := "<!--".toList) (by decide)
      obtain ⟨ps₂, hleft, h₂, hcomment'⟩ := h₁.skipComment hk hwhole hcomment
      refine hstep (hleft.trans (List.suffix_append _ _)) h₂ hm fun n => ?_
      change (Xml.skipComment (filled ps₁)).bind _ = _
      rw [hcomment']
      rfl
    · next tail =>
      obtain ⟨tail', hinstruction, hm⟩ := Option.bind_eq_some_iff.1 hm
      obtain ⟨ps₁, rfl, h₁⟩ := h.exists_append_of_not_mem (a := "<?".toList) (by decide)
      obtain ⟨ps₂, hleft, h₂, hinstruction'⟩ := h₁.skipInstruction hk hwhole hinstruction
      refine hstep (hleft.trans (List.suffix_append _ _)) h₂ hm fun n => ?_
      change (Xml.skipInstruction (filled ps₁)).bind _ = _
      rw [hinstruction']
      rfl
    · next c tail _ _ =>
      split at hm
      · next hspace =>
        obtain ⟨ps₁, rfl, h₁⟩ := h.exists_cons (c := c) fun hc => by
          rw [hc] at hspace
          exact absurd hspace (by decide)
        refine hstep (.of_char c List.suffix_rfl) h₁ hm fun n => ?_
        simp only [isSpace, Bool.or_eq_true, beq_iff_eq] at hspace
        obtain ((rfl | rfl) | rfl) | rfl := hspace <;> rfl
      · cases hm
        exact ⟨ps, List.suffix_rfl, h, fun n hn => ⟨n, hn, rfl⟩⟩
    · cases hm
      exact ⟨ps, List.suffix_rfl, h, fun n hn => ⟨n, hn, rfl⟩⟩

theorem skipMisc_nil (n : Nat) : Xml.skipMisc n [] = some [] := by
  cases n <;> rfl

/-- Nothing is skipped in front of a tag. -/
theorem skipMisc_of_tag {c : Char} (hbang : c ≠ '!') (hquestion : c ≠ '?') (n : Nat)
    (cs : List Char) : Xml.skipMisc n ('<' :: c :: cs) = some ('<' :: c :: cs) := by
  cases n with
  | zero => rfl
  | succ n =>
    rw [Xml.skipMisc]
    · rfl
    · rintro tail _ ⟨⟩
      exact hbang rfl
    · rintro tail _ ⟨⟩
      exact hquestion rfl

theorem skipRoot_eq (d : Doctype) (cs : List Char) : Xml.skipRoot d ('<' :: cs) =
    (openTag d Scope.outermost cs).bind fun (e, isEmpty, rest) =>
      if isEmpty then some rest
      else
        (skipContent d (d.entityFits d.entities.depth) e.scope (rest.length + 1) [] rest).bind
          fun rest => (strip? "</".toList rest).bind (closeTag e) := by
  rfl

theorem Fills.skipRoot {d : Doctype} (hk : Kept whole) (hwhole : ps <:+ whole) (h : Fills ps cs)
    (hr : skipRoot d cs = some rest) :
    ∃ ps', ps' <:+ ps ∧ Fills ps' rest ∧ Xml.skipRoot d (filled ps) = some (filled ps') := by
  obtain ⟨tail, htail, -⟩ := Option.bind_eq_some_iff.1 hr
  have hcs : cs = '<' :: tail := strip?_eq_some.1 htail
  subst hcs
  obtain ⟨ps₁, rfl, h₁⟩ := h.exists_cons (by decide)
  rw [skipRoot_eq] at hr
  obtain ⟨⟨e, isEmpty, tail₁⟩, he, hr⟩ := Option.bind_eq_some_iff.1 hr
  obtain ⟨ps₂, hleft, h₂, he'⟩ := h₁.openTag he
  have hsuffix : ps₂ <:+ .char '<' :: ps₁ := hleft.1.trans (List.suffix_cons _ _)
  rw [filled_char, skipRoot_eq, he']
  dsimp only at hr
  split at hr
  · next hempty =>
    cases hr
    exact ⟨ps₂, hsuffix, h₂, by simp [hempty]⟩
  · next hempty =>
    obtain ⟨tail₂, hcontent, hr⟩ := Option.bind_eq_some_iff.1 hr
    obtain ⟨tail₃, hclose, hr⟩ := Option.bind_eq_some_iff.1 hr
    obtain ⟨ps₃, hsuffix', h₃, hcontent'⟩ := steady d _ e.scope hk _ (hsuffix.trans hwhole) h₂ hcontent
    cases strip?_eq_some.1 hclose
    obtain ⟨ps₄, rfl, h₄⟩ := h₃.exists_append_of_not_mem (a := "</".toList) (by decide)
    obtain ⟨ps', hleft', h', hr'⟩ := h₄.closeTag hr
    refine ⟨ps', (hleft'.1.trans (List.suffix_append _ _)).trans (hsuffix'.trans hsuffix), h', ?_⟩
    have hclose' : strip? "</".toList (filled (literal "</".toList ++ ps₄)) = some (filled ps₄) :=
      strip?_eq_some.2 (by rw [filled_append, filled_literal])
    simp only [Option.bind_some, if_neg hempty, hcontent' _ (Nat.lt_succ_self _), hclose', hr']

/-! ## The declaration in front -/

theorem not_mem_of_isSpace (h : ∀ c ∈ cs, isSpace c) : '{' ∉ cs :=
  fun hmem => absurd (h _ hmem) (by decide)

/-- An item holds no brace if its name holds none. -/
theorem exists_of_readItem {name value : List Char}
    (h : readItem cs = some (some (name, value), rest)) :
    ∃ used, cs = used ++ rest ∧ ('{' ∉ name → '{' ∉ used) := by
  unfold readItem at h
  split at h
  · cases h
  · next body hne =>
    split at h
    · cases h
    · next hspace =>
      dsimp only at h
      split at h
      · next tail hequals =>
        obtain ⟨⟨v, tail'⟩, hquoted, hmore⟩ := Option.bind_eq_some_iff.1 h
        dsimp only at hmore
        split at hmore
        · next hall =>
          cases hmore
          generalize hname : List.takeWhile _ (cs.dropWhile isSpace) = name at *
          obtain ⟨space, hspace₁, hcs, -⟩ := exists_space cs
          obtain ⟨space', hspace₂, hbody, -⟩ :=
            exists_space ((cs.dropWhile isSpace).dropWhile fun c => c != '=' && !isSpace c)
          obtain ⟨space'', hspace₃, htail, -⟩ := exists_space tail
          obtain ⟨q, hq, -, hquote⟩ := readQuoted_eq_some.1 hquoted
          have hsplit := List.takeWhile_append_dropWhile (p := fun c => c != '=' && !isSpace c)
            (l := cs.dropWhile isSpace)
          rw [hname, hbody, hequals, htail, hquote] at hsplit
          rw [← hsplit] at hcs
          refine ⟨space ++ (name ++ (space' ++ '=' :: (space'' ++ q :: (value ++ [q])))), by rw [hcs]; simp,
            fun hbrace => ?_⟩
          have hvalue : '{' ∉ value := fun hmem => absurd (List.all_eq_true.1 hall _ hmem) (by decide)
          obtain rfl | rfl := hq
          · simp [not_mem_of_isSpace hspace₁, not_mem_of_isSpace hspace₂, not_mem_of_isSpace hspace₃, hbrace, hvalue]
          · simp [not_mem_of_isSpace hspace₁, not_mem_of_isSpace hspace₂, not_mem_of_isSpace hspace₃, hbrace, hvalue]
        · cases hmore
      · cases h

theorem isSpace_of_readItem_none (h : readItem cs = some (none, rest)) : ∀ c ∈ cs, isSpace c := by
  unfold readItem at h
  split at h
  · next hnone => exact List.dropWhile_eq_nil_iff.1 hnone
  · split at h
    · cases h
    · dsimp only at h
      split at h
      · obtain ⟨⟨v, tail⟩, -, hmore⟩ := Option.bind_eq_some_iff.1 h
        dsimp only at hmore
        split at hmore
        · cases hmore
        · cases hmore
      · cases h

/-- What ends the settings of a declaration: nothing but space, or one item and space. -/
theorem not_mem_of_lastItem {encoding : Option (List Char)} {header : Header}
    {item : Option (List Char × List Char)}
    (h : (match item with
      | none => some ⟨encoding, false⟩
      | some (name, value) =>
        if name ≠ "standalone".toList || !(rest.all isSpace) then none
        else if value = "yes".toList then some ⟨encoding, true⟩
        else if value = "no".toList then some ⟨encoding, false⟩
        else none) = some header)
    (hitem : readItem cs = some (item, rest)) : '{' ∉ cs := by
  split at h
  · exact not_mem_of_isSpace (isSpace_of_readItem_none hitem)
  · next name value =>
    split at h
    · cases h
    · next hend =>
      simp only [Bool.or_eq_true, decide_eq_true_eq, Bool.not_eq_true', not_or, not_not,
        Bool.not_eq_false, List.all_eq_true] at hend
      obtain ⟨used, rfl, hused⟩ := exists_of_readItem hitem
      rw [List.mem_append, not_or]
      exact ⟨hused (by rw [hend.1]; decide), not_mem_of_isSpace hend.2⟩

theorem not_mem_of_readSettings {header : Header} (h : readSettings cs = some header) : '{' ∉ cs := by
  obtain ⟨⟨first, tail⟩, hfirst, hmore⟩ := Option.bind_eq_some_iff.1 h
  dsimp only at hmore
  split at hmore
  · next name hencoding =>
    obtain ⟨p, hp, -⟩ := Option.map_eq_some_iff.1 hencoding
    obtain ⟨hsome, hname⟩ := Option.filter_eq_some_iff.1 hp
    subst hsome
    obtain ⟨used, rfl, hused⟩ := exists_of_readItem hfirst
    split at hmore
    · obtain ⟨⟨item, tail'⟩, hitem, hlast⟩ := Option.bind_eq_some_iff.1 hmore
      rw [List.mem_append, not_or]
      exact ⟨hused (by rw [of_decide_eq_true hname]; decide), not_mem_of_lastItem hlast hitem⟩
    · cases hmore
  · exact not_mem_of_lastItem hmore hfirst

/-- What the declaration says by what stands inside it. -/
def headerOf (inside : List Char) : Option Header :=
  (readItem inside).bind fun p =>
    match p.1 with
    | some (name, _) => if name = "version".toList then readSettings p.2 else none
    | none => none

theorem not_mem_of_headerOf {header : Header} (h : headerOf cs = some header) : '{' ∉ cs := by
  obtain ⟨⟨item, settings⟩, hitem, hmore⟩ := Option.bind_eq_some_iff.1 h
  dsimp only at hmore
  split at hmore
  · next name value =>
    split at hmore
    · next hname =>
      obtain ⟨used, rfl, hused⟩ := exists_of_readItem hitem
      rw [List.mem_append, not_or]
      exact ⟨hused (by rw [hname]; decide), not_mem_of_readSettings hmore⟩
    · cases hmore
  · cases hmore

theorem readHeader_eq {inside : List Char} (hnone : ¬ "?>".toList <:+: inside ++ ['?'])
    (hother : ((inside ++ "?>".toList).head?.any isNamePart ||
      decide ((inside ++ "?>".toList).head? = some ':')) = false) (rest : List Char) :
    Xml.readHeader ("<?xml".toList ++ (inside ++ ("?>".toList ++ rest))) =
      (headerOf inside).map fun header => (header, rest) := by
  have hstrip : strip? "<?xml".toList ("<?xml".toList ++ (inside ++ ("?>".toList ++ rest))) =
      some (inside ++ ("?>".toList ++ rest)) := strip?_eq_some.2 rfl
  have hhead : (inside ++ ("?>".toList ++ rest)).head? = (inside ++ "?>".toList).head? := by
    cases inside <;> rfl
  have hlength : (inside ++ ("?>".toList ++ rest)).length - rest.length - 2 = inside.length := by
    simp
    omega
  rw [Xml.readHeader, hstrip]
  simp only [hhead, hother, Bool.false_eq_true, if_false, after_append (by decide) hnone, hlength,
    List.take_left, Option.bind_eq_bind, Option.bind_some]
  unfold headerOf
  cases readItem inside with
  | none => rfl
  | some p =>
    obtain ⟨item, settings⟩ := p
    simp only [Option.bind_some]
    cases item with
    | none => rfl
    | some item =>
      dsimp only
      split
      · exact (Option.map_eq_bind ..).symm
      · rfl

/-- A document begins with no placeholder, also behind the first bracket, and if it begins with an
instruction, the instruction ends. -/
def BeginsWell (cs : List Char) : Prop :=
  cs.head? ≠ some '{' ∧ (∀ tail, cs = '<' :: tail → tail.head? ≠ some '{') ∧
    ∀ tail, cs = "<?".toList ++ tail → skipInstruction tail ≠ none

theorem beginsWell_of_skipDocument {isAlone : Bool} {size : Char → Nat} {read : Nat}
    (h : skipDocument isAlone size read cs = some rest) : BeginsWell cs := by
  obtain ⟨body, hbody, h⟩ := Option.bind_eq_some_iff.1 h
  obtain ⟨⟨d, behind⟩, hread, h⟩ := Option.bind_eq_some_iff.1 h
  obtain ⟨root, hroot, h⟩ := Option.bind_eq_some_iff.1 h
  -- without a document type the root stands where nothing is left to skip
  have hplain (hmisc : ∀ n, Xml.skipMisc n cs = some cs)
      (htype : strip? "<!DOCTYPE".toList cs = none) : Xml.skipRoot (.bare isAlone) cs ≠ none := by
    rw [hmisc, Option.some.injEq] at hbody
    subst hbody
    rw [Doctype.read, htype] at hread
    cases hread
    rw [hmisc, Option.some.injEq] at hroot
    subst hroot
    dsimp only at h
    split at h
    · cases h
    · obtain ⟨behind, hbehind, -⟩ := Option.bind_eq_some_iff.1 h
      simp [hbehind]
  refine ⟨fun hhead => ?_, fun tail hcs hhead => ?_, fun tail hcs hnone => ?_⟩
  · obtain ⟨tail, rfl⟩ := List.head?_eq_some_iff.1 hhead
    exact hplain (fun n => by cases n <;> rfl) rfl rfl
  · obtain ⟨tail, rfl⟩ := List.head?_eq_some_iff.1 hhead
    subst hcs
    exact hplain (skipMisc_of_tag (by decide) (by decide) · tail) rfl rfl
  · subst hcs
    change (Xml.skipInstruction tail).bind _ = _ at hbody
    rw [hnone] at hbody
    cases hbody

theorem prefix_of_prefix_append {c : Char} {m : List Char} (hc : c ∉ m) (h : m <+: a ++ c :: cs) :
    m <+: a := by
  obtain ⟨t, ht⟩ := h
  obtain ⟨b, rfl, -⟩ | ⟨b, rfl, hb⟩ := List.append_eq_append_iff.1 ht
  · exact List.prefix_append _ _
  · cases b with
    | nil => simp
    | cons d b =>
      obtain ⟨rfl, -⟩ := List.cons.inj hb
      simp at hc

/-- An instruction begins with a name and a character that is in none. -/
theorem exists_target (h : skipInstruction cs = some rest) :
    ∃ target c tail, cs = target ++ c :: tail ∧ '{' ∉ target ∧ isNamePart c = false ∧ c ≠ '{' := by
  obtain ⟨a, rfl, ⟨target, tail, hread, -, hspace⟩, -⟩ := skipInstruction_eq_some.1 h
  obtain ⟨hname, rfl, hstops⟩ := readName_eq_some.1 hread
  have hbrace : '{' ∉ target := fun hmem => absurd (hname.isNamePart _ hmem) (by decide)
  cases tail with
  | nil => exact ⟨target, '?', '>' :: rest, by simp, hbrace, by decide, by decide⟩
  | cons c tail =>
    refine ⟨target, c, tail ++ ("?>".toList ++ rest), by simp, hbrace, hstops c rfl, ?_⟩
    rintro rfl
    exact absurd (hspace _ rfl) (by decide)

theorem Covers.strip?_eq_none (h : Covers ps cs) (hbegins : BeginsWell cs)
    (hnone : strip? "<?xml".toList cs = none) : strip? "<?xml".toList (filled ps) = none := by
  rw [Option.eq_none_iff_forall_ne_some] at hnone ⊢
  intro t ht
  have hfilled : filled ps = '<' :: '?' :: ("xml".toList ++ t) := strip?_eq_some.1 ht
  obtain ⟨hhead, htag, hinstruction⟩ := hbegins
  cases cs with
  | nil =>
    rw [h.eq_nil] at hfilled
    cases hfilled
  | cons c cs =>
    obtain ⟨ps₁, rfl, h₁⟩ := h.exists_cons fun hc => hhead (by rw [hc]; rfl)
    rw [filled_char] at hfilled
    obtain ⟨rfl, hfilled₁⟩ := List.cons.inj hfilled
    cases cs with
    | nil =>
      rw [h₁.eq_nil] at hfilled₁
      cases hfilled₁
    | cons d cs =>
      obtain ⟨ps₂, rfl, h₂⟩ := h₁.exists_cons fun hd => htag _ rfl (by rw [hd]; rfl)
      rw [filled_char] at hfilled₁
      obtain ⟨rfl, hfilled₂⟩ := List.cons.inj hfilled₁
      obtain ⟨tail, htail⟩ := Option.ne_none_iff_exists'.1 (hinstruction cs rfl)
      obtain ⟨target, c, tail, rfl, hbrace, hpart, hc⟩ := exists_target htail
      obtain ⟨ps₃, rfl, h₃⟩ := h₂.exists_append_of_not_mem hbrace
      obtain ⟨ps₄, rfl, -⟩ := h₃.exists_cons hc
      rw [filled_append, filled_literal, filled_char] at hfilled₂
      have hxml : c ∉ "xml".toList := by
        intro hmem
        have hall : ∀ d ∈ "xml".toList, isNamePart d := by decide
        rw [hall c hmem] at hpart
        cases hpart
      obtain ⟨name, rfl⟩ := prefix_of_prefix_append hxml ⟨t, hfilled₂.symm⟩
      exact hnone (name ++ c :: tail) (strip?_eq_some.2 (by simp))

/-- The declaration in front of a document holds no placeholder. -/
theorem Covers.readHeader {header : Header} (h : Covers ps cs)
    (hr : readHeader cs = some (header, rest)) (hbegins : header.encoding = none → BeginsWell rest) :
    ∃ ps', ps' <:+ ps ∧ Covers ps' rest ∧ Xml.readHeader (filled ps) = some (header, filled ps') := by
  have hraw := hr
  unfold Xml.readHeader at hr
  split at hr
  · next body hstrip =>
    have hcs : cs = "<?xml".toList ++ body := strip?_eq_some.1 hstrip
    subst hcs
    split at hr
    · next hother =>
      cases hr
      refine ⟨ps, List.suffix_rfl, h, ?_⟩
      obtain ⟨ps₁, rfl, h₁⟩ := h.exists_append_of_not_mem (a := "<?xml".toList) (by decide)
      have hhead : (filled ps₁).head? = body.head? := by
        refine h₁.head?_filled fun hbrace => ?_
        rw [hbrace] at hother
        exact absurd hother (by decide)
      have hstrip' : strip? "<?xml".toList (filled (literal "<?xml".toList ++ ps₁)) =
          some (filled ps₁) := strip?_eq_some.2 (by rw [filled_append, filled_literal])
      rw [Xml.readHeader, hstrip']
      simp only [hhead, hother, if_true]
    · next hother =>
      obtain ⟨tail, hafter, -⟩ := Option.bind_eq_some_iff.1 hr
      obtain ⟨inside, rfl, hinside⟩ := exists_of_after (by decide) hafter
      have hhead : (inside ++ ("?>".toList ++ tail)).head? = (inside ++ "?>".toList).head? := by
        cases inside <;> rfl
      rw [hhead, Bool.not_eq_true] at hother
      rw [readHeader_eq hinside hother] at hraw
      obtain ⟨header, hheader, heq⟩ := Option.map_eq_some_iff.1 hraw
      cases heq
      have hbrace := not_mem_of_headerOf hheader
      rw [← List.append_assoc, ← List.append_assoc] at h
      obtain ⟨ps', rfl, h'⟩ := h.exists_append_of_not_mem (by simp [hbrace])
      refine ⟨ps', List.suffix_append _ _, h', ?_⟩
      rw [filled_append, filled_literal, List.append_assoc, List.append_assoc,
        readHeader_eq hinside hother, hheader]
      rfl
  · next hnone =>
    cases hr
    refine ⟨ps, List.suffix_rfl, h, ?_⟩
    rw [Xml.readHeader, h.strip?_eq_none (hbegins rfl) hnone]

/-! ## Up to the root -/

/-- A document up to its root. -/
structure Opening where
  doctype : Doctype
  /-- The declaration of its type as it is written; nothing where there is none. -/
  typeText : List Char
  /-- The root and all that follows. -/
  root : List Char

/-- How a document opens, after the declaration in front of it. -/
def opening? (isAlone : Bool) (cs : List Char) : Option Opening := do
  let body ← Xml.skipMisc cs.length cs
  let (d, behind) ← Doctype.read isAlone body
  let root ← Xml.skipMisc cs.length behind
  return ⟨d, body.take (body.length - behind.length), root⟩

theorem skipDocument_eq (isAlone : Bool) (size : Char → Nat) (read : Nat) (cs : List Char) :
    skipDocument isAlone size read cs = (opening? isAlone cs).bind fun o =>
      if o.doctype.isGrowthBorne size
          (read + sizeBy size (cs.take (cs.length - o.root.length))) o.root then
        (Xml.skipRoot o.doctype o.root).bind (Xml.skipMisc cs.length)
      else none := by
  simp only [skipDocument, opening?, Option.bind_eq_bind, Option.pure_def, Option.bind_assoc,
    Option.bind_some]
  refine congrArg _ (funext fun body => congrArg _ (funext fun p => congrArg _ (funext fun root => ?_)))
  split
  · next hgrowth => rw [if_neg (by simpa using hgrowth), Option.bind_none]
  · next hgrowth => rw [if_pos (by simpa using hgrowth)]

theorem exists_head_of_skipRoot {d : Doctype} (h : skipRoot d cs = some rest) :
    ∃ c tail, cs = '<' :: c :: tail ∧ isNameStart c := by
  obtain ⟨tail, htail, h⟩ := Option.bind_eq_some_iff.1 h
  obtain ⟨x, hx, -⟩ := Option.bind_eq_some_iff.1 h
  obtain ⟨c, tail, rfl, hc⟩ := exists_head_of_openTag hx
  exact ⟨c, tail, strip?_eq_some.1 htail, hc⟩

/-- In front of the root nothing is left to skip, also in the filled text. -/
theorem Fills.skipMisc_filled {d : Doctype} (h : Fills ps cs) (hr : Xml.skipRoot d cs = some rest) :
    (∀ n, Xml.skipMisc n (filled ps) = some (filled ps)) ∧
      strip? "<!DOCTYPE".toList (filled ps) = none := by
  obtain ⟨c, tail, rfl, hc⟩ := exists_head_of_skipRoot hr
  have hne (mark : Char) (hmark : isNameStart mark = false) : c ≠ mark := by
    rintro rfl
    rw [hmark] at hc
    cases hc
  obtain ⟨ps₁, rfl, h₁⟩ := h.exists_cons (by decide)
  obtain ⟨ps₂, rfl, -⟩ := h₁.exists_cons (hne '{' (by decide))
  have hbang := hne '!' (by decide)
  refine ⟨fun n => skipMisc_of_tag hbang (hne '?' (by decide)) n _, ?_⟩
  rw [Option.eq_none_iff_forall_ne_some]
  intro t ht
  exact hbang (List.cons.inj (List.cons.inj (strip?_eq_some.1 ht)).2).1

theorem take_length_sub (a b : List Char) :
    (a ++ b).take ((a ++ b).length - b.length) = a := by
  simp

/-- A document opens as the text of the template does, if the declaration of its type holds no
placeholder. -/
theorem Fills.opening {isAlone : Bool} {o : Opening} (hk : Kept whole) (hwhole : ps <:+ whole)
    (h : Fills ps cs) (ho : opening? isAlone cs = some o) (htype : ¬ ['{', '{'] <:+: o.typeText)
    (hroot : Xml.skipRoot o.doctype o.root = some rest) :
    ∃ ps', ps' <:+ ps ∧ Fills ps' o.root ∧
      opening? isAlone (filled ps) = some { o with root := filled ps' } := by
  obtain ⟨body, hbody, ho⟩ := Option.bind_eq_some_iff.1 ho
  obtain ⟨⟨d, behind⟩, hread, ho⟩ := Option.bind_eq_some_iff.1 ho
  obtain ⟨root, hbehind, ho⟩ := Option.bind_eq_some_iff.1 ho
  cases ho
  dsimp only at htype hroot hbehind ⊢
  obtain ⟨ps₁, hsuffix₁, h₁, hbody'⟩ := h.skipMisc hk hwhole hbody
  obtain ⟨m, hm, hmisc⟩ := hbody' _ (Nat.le_refl _)
  have hopening {a b : List Char} {ps' : List (Part (List Char))}
      (hbody : Xml.skipMisc m (filled ps₁) = some (a ++ b))
      (hread : Doctype.read isAlone (a ++ b) = some (d, b))
      (hbehind : Xml.skipMisc (filled ps).length b = some (filled ps')) :
      opening? isAlone (filled ps) = some ⟨d, a, filled ps'⟩ := by
    simp only [opening?, hmisc, hbody, hread, hbehind, take_length_sub, Option.bind_eq_bind,
      Option.bind_some, Option.pure_def]
  cases hstrip : strip? "<!DOCTYPE".toList body with
  | none =>
    rw [Doctype.read, hstrip] at hread
    cases hread
    obtain ⟨ps₂, hsuffix₂, h₂, hroot'⟩ := h₁.skipMisc hk (hsuffix₁.trans hwhole) hbehind
    obtain ⟨m', -, hmisc'⟩ := hroot' m hm
    obtain ⟨hstay, htype'⟩ := h₂.skipMisc_filled hroot
    refine ⟨ps₂, hsuffix₂.trans hsuffix₁, h₂, ?_⟩
    rw [Nat.sub_self, List.take_zero]
    have hread' : Doctype.read isAlone (filled ps₂) = some (.bare isAlone, filled ps₂) := by
      rw [Doctype.read, htype']
    exact hopening (a := []) (b := filled ps₂) (hmisc'.trans (hstay m')) hread' (hstay _)
  | some tail =>
    obtain ⟨a, rfl, hlast, htakes⟩ := Doctype.read_takes hstrip hread
    rw [take_length_sub] at htype ⊢
    obtain ⟨ps₂, rfl, h₂⟩ := h₁.exists_append htype (by rw [hlast]; decide)
    have hsuffix₂ : ps₂ <:+ ps := (List.suffix_append _ _).trans hsuffix₁
    obtain ⟨ps₃, hsuffix₃, h₃, hroot'⟩ := h₂.skipMisc hk (hsuffix₂.trans hwhole) hbehind
    obtain ⟨m', -, hmisc'⟩ := hroot' _ (length_filled_le hsuffix₂)
    obtain ⟨hstay, -⟩ := h₃.skipMisc_filled hroot
    refine ⟨ps₃, hsuffix₃.trans hsuffix₂, h₃, hopening (a := a) ?_ (htakes _) (hmisc'.trans (hstay m'))⟩
    rw [strip?_eq_some.1 hstrip] at h₁
    obtain ⟨ps₄, heq, -⟩ := h₁.exists_append_of_not_mem (by decide)
    have hfilled : a ++ filled ps₂ = "<!DOCTYPE".toList ++ filled ps₄ := by
      rw [← filled_literal a, ← filled_append, heq, filled_append, filled_literal]
    rw [filled_append, filled_literal, hfilled]
    cases m <;> rfl

/-- A document is read to its end when it is filled, if it was, the declaration of its type holds no
placeholder, filling forms no marks, and the growth by entities is borne. -/
theorem Fills.skipDocument {isAlone : Bool} {size : Char → Nat} {read read' : Nat} (hk : Kept ps)
    (h : Fills ps cs) (hraw : skipDocument isAlone size read cs = some [])
    (htype : ∀ o, opening? isAlone cs = some o → ¬ ['{', '{'] <:+: o.typeText)
    (hgrowth : ∀ o, opening? isAlone (filled ps) = some o → o.doctype.isGrowthBorne size
      (read' + sizeBy size ((filled ps).take ((filled ps).length - o.root.length))) o.root) :
    Xml.skipDocument isAlone size read' (filled ps) = some [] := by
  rw [skipDocument_eq] at hraw ⊢
  obtain ⟨o, ho, hraw⟩ := Option.bind_eq_some_iff.1 hraw
  split at hraw
  · obtain ⟨behind, hroot, hbehind⟩ := Option.bind_eq_some_iff.1 hraw
    obtain ⟨ps₁, hsuffix₁, h₁, ho'⟩ := h.opening hk List.suffix_rfl ho (htype o ho) hroot
    obtain ⟨ps₂, hsuffix₂, h₂, hroot'⟩ := h₁.skipRoot hk hsuffix₁ hroot
    obtain ⟨ps₃, -, h₃, hmisc⟩ := h₂.skipMisc hk (hsuffix₂.trans hsuffix₁) hbehind
    obtain ⟨m, -, hmisc⟩ := hmisc _ (length_filled_le (hsuffix₂.trans hsuffix₁))
    rw [ho', Option.bind_some, if_pos (hgrowth _ ho'), hroot', Option.bind_some, hmisc, h₃.eq_nil]
    exact skipMisc_nil m
  · cases hraw

end Part

end Inventory
