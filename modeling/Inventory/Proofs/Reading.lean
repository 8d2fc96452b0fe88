import Inventory.Xml.Document
import Mathlib.Data.List.Infix
import Mathlib.Data.List.TakeWhile

/-!
# What readers of markup take off

Readers take characters off the head of a text. For those that look for a mark, the first mark is
what they find, and for those that read names and values the characters taken off spell what they
give. None of them looks further than one character behind what it takes off.
-/

namespace Inventory.Xml

/-- `p` takes `a` off and gives `x`, whatever it is that follows and begins with `next`. -/
def Takes {α : Type} (p : List Char → Option (α × List Char)) (a : List Char) (x : α)
    (next : Option Char) : Prop :=
  ∀ rest : List Char, rest.head? = next → p (a ++ rest) = some (x, rest)

/-! ## Runs of characters -/

/-- No character of the class is next. -/
def Stops (p : Char → Bool) (cs : List Char) : Prop :=
  ∀ c, cs.head? = some c → p c = false

section Stops

variable {p : Char → Bool} {a cs rest : List Char}

theorem stops_dropWhile (p : Char → Bool) (cs : List Char) : Stops p (cs.dropWhile p) := by
  intro c hc
  have hhead := List.head?_dropWhile_not p cs
  rw [hc] at hhead
  exact hhead

theorem Stops.takeWhile_append (h : Stops p rest) (ha : ∀ c ∈ a, p c) :
    (a ++ rest).takeWhile p = a := by
  rw [List.takeWhile_append_of_pos ha]
  cases rest with
  | nil => simp
  | cons c rest => simp [h c rfl]

theorem Stops.dropWhile_append (h : Stops p rest) (ha : ∀ c ∈ a, p c) :
    (a ++ rest).dropWhile p = rest := by
  rw [List.dropWhile_append_of_pos ha]
  cases rest with
  | nil => rfl
  | cons c rest => simp [h c rfl]

theorem Stops.of_head? {rest' : List Char} (h : Stops p rest) (heq : rest'.head? = rest.head?) :
    Stops p rest' := by
  rw [Stops, heq]
  exact h

end Stops

/-! ## Marks -/

variable {mark cs rest : List Char}

theorem strip?_eq_some : strip? mark cs = some rest ↔ cs = mark ++ rest := by
  unfold strip?
  split
  · next h =>
    obtain ⟨tail, rfl⟩ := List.isPrefixOf_iff_prefix.1 h
    simp [eq_comm]
  · next h =>
    simp only [reduceCtorEq, false_iff]
    rintro rfl
    exact h (List.isPrefixOf_iff_prefix.2 (List.prefix_append mark rest))

theorem length_dropLast_lt (hmark : mark ≠ []) : mark.dropLast.length < mark.length := by
  have hpos := List.length_pos_iff.2 hmark
  rw [List.length_dropLast]
  omega

/-- The first mark is found: none begins in front of it. -/
theorem after_append (hmark : mark ≠ []) {a : List Char} (ha : ¬ mark <:+: a ++ mark.dropLast) :
    after mark (a ++ (mark ++ rest)) = some rest := by
  induction a with
  | nil =>
    obtain ⟨c, mark, rfl⟩ := List.exists_cons_of_ne_nil hmark
    have hprefix : (c :: mark).isPrefixOf (c :: (mark ++ rest)) :=
      List.isPrefixOf_iff_prefix.2 (List.prefix_append (c :: mark) rest)
    rw [List.nil_append, List.cons_append, after, if_pos hprefix, ← List.cons_append, List.drop_left]
  | cons c a ih =>
    rw [List.cons_append, List.infix_cons_iff] at ha
    have hprefix : ¬ (mark.isPrefixOf (c :: (a ++ (mark ++ rest)))) := by
      intro h
      refine ha (.inl (List.prefix_of_prefix_length_le (List.isPrefixOf_iff_prefix.1 h) ?_ ?_))
      · refine List.cons_prefix_cons.2 ⟨rfl, (List.prefix_append_right_inj a).2 ?_⟩
        exact (List.dropLast_prefix mark).trans (List.prefix_append mark rest)
      · simp only [List.length_cons, List.length_append, List.length_dropLast]
        omega
    rw [List.cons_append, after, if_neg hprefix]
    exact ih fun hin => ha (.inr hin)

theorem exists_of_after (hmark : mark ≠ []) {cs : List Char} (h : after mark cs = some rest) :
    ∃ a, cs = a ++ (mark ++ rest) ∧ ¬ mark <:+: a ++ mark.dropLast := by
  induction cs with
  | nil => simp [after, hmark] at h
  | cons c cs ih =>
    rw [after] at h
    split at h
    · next hprefix =>
      obtain ⟨tail, htail⟩ := List.isPrefixOf_iff_prefix.1 hprefix
      rw [← htail, List.drop_left, Option.some.injEq] at h
      subst h
      refine ⟨[], htail.symm, fun hin => ?_⟩
      exact absurd hin.length_le (Nat.not_le.2 (length_dropLast_lt hmark))
    · next hprefix =>
      obtain ⟨a, rfl, ha⟩ := ih h
      refine ⟨c :: a, rfl, fun hin => ?_⟩
      rw [List.cons_append, List.infix_cons_iff] at hin
      obtain hin | hin := hin
      · refine hprefix (List.isPrefixOf_iff_prefix.2 (hin.trans ?_))
        refine List.cons_prefix_cons.2 ⟨rfl, (List.prefix_append_right_inj a).2 ?_⟩
        exact (List.dropLast_prefix mark).trans (List.prefix_append mark rest)
      · exact ha hin

/-- A comment ends at its first two hyphens. -/
theorem skipComment_eq_some {cs : List Char} : skipComment cs = some rest ↔
    ∃ a, cs = a ++ ("-->".toList ++ rest) ∧ ¬ "--".toList <:+: a ++ ['-'] := by
  constructor
  · intro h
    obtain ⟨tail, hafter, hstrip⟩ := Option.bind_eq_some_iff.1 h
    obtain ⟨a, rfl, ha⟩ := exists_of_after (by decide) hafter
    rw [strip?_eq_some.1 hstrip]
    exact ⟨a, rfl, ha⟩
  · rintro ⟨a, rfl, ha⟩
    have hafter : after "--".toList (a ++ ("--".toList ++ '>' :: rest)) = some ('>' :: rest) :=
      after_append (by decide) ha
    exact Option.bind_eq_some_iff.2 ⟨_, hafter, strip?_eq_some.2 rfl⟩

/-! ## Names -/

/-- A name without a colon. -/
def IsName : List Char → Prop
  | [] => False
  | c :: cs => isNameStart c ∧ ∀ d ∈ cs, isNamePart d

theorem isNamePart_of_isNameStart {c : Char} (h : isNameStart c) : isNamePart c := by
  simp [isNamePart, h]

theorem IsName.isNamePart {n : List Char} (h : IsName n) : ∀ c ∈ n, isNamePart c := by
  cases n with
  | nil => simp
  | cons c n => exact List.forall_mem_cons.2 ⟨isNamePart_of_isNameStart h.1, h.2⟩

theorem IsName.ne_nil {n : List Char} (h : IsName n) : n ≠ [] := by
  rintro rfl
  exact h

theorem readName_eq_some {cs n : List Char} :
    readName cs = some (n, rest) ↔ IsName n ∧ cs = n ++ rest ∧ Stops isNamePart rest := by
  constructor
  · intro h
    cases cs with
    | nil => cases h
    | cons c cs =>
      rw [readName] at h
      split at h
      · next hstart =>
        cases h
        refine ⟨⟨hstart, fun d hd => List.mem_takeWhile_imp hd⟩, ?_, stops_dropWhile _ _⟩
        rw [List.cons_append, List.takeWhile_append_dropWhile]
      · cases h
  · rintro ⟨hname, rfl, hstops⟩
    cases n with
    | nil => exact hname.elim
    | cons c n =>
      rw [List.cons_append, readName, if_pos hname.1, hstops.takeWhile_append hname.2,
        hstops.dropWhile_append hname.2]

theorem readName_takes {cs n : List Char} (h : readName cs = some (n, rest)) :
    Takes readName n n rest.head? := by
  obtain ⟨hname, -, hstops⟩ := readName_eq_some.1 h
  exact fun rest' hrest => readName_eq_some.2 ⟨hname, rfl, hstops.of_head? hrest⟩

/-- A qualified name as it is written. -/
def QualifiedName.text (n : QualifiedName) : List Char :=
  n.qualifier.elim n.base (· ++ ':' :: n.base)

theorem readQualifiedName_of_name {n : List Char} (hname : IsName n) (hstops : Stops isNamePart rest)
    (hcolon : rest.head? ≠ some ':') : readQualifiedName (n ++ rest) = some (⟨none, n⟩, rest) := by
  rw [readQualifiedName, readName_eq_some.2 ⟨hname, rfl, hstops⟩]
  cases rest with
  | nil => rfl
  | cons c rest =>
    simp only [Option.bind_eq_bind, Option.bind_some]
    split
    · next heq => exact absurd (congrArg List.head? heq) hcolon
    · rfl

theorem readQualifiedName_of_names {q n : List Char} (hq : IsName q) (hname : IsName n)
    (hstops : Stops isNamePart rest) :
    readQualifiedName (q ++ ':' :: (n ++ rest)) = some (⟨some q, n⟩, rest) := by
  have hstops' : Stops isNamePart (':' :: (n ++ rest)) := by
    rintro _ ⟨⟩
    decide
  rw [readQualifiedName, readName_eq_some.2 ⟨hq, rfl, hstops'⟩]
  simp only [Option.bind_eq_bind, Option.bind_some, readName_eq_some.2 ⟨hname, rfl, hstops⟩]
  rfl

/-- A qualified name is read as it is written. -/
theorem readQualifiedName_spec {cs : List Char} {n : QualifiedName}
    (h : readQualifiedName cs = some (n, rest)) :
    cs = n.text ++ rest ∧ (∃ c tail, n.text = c :: tail ∧ isNameStart c) ∧
      (∀ c ∈ n.text, c = ':' ∨ isNamePart c) ∧ Takes readQualifiedName n.text n rest.head? := by
  obtain ⟨⟨first, tail⟩, hfirst, hrest⟩ := Option.bind_eq_some_iff.1 h
  obtain ⟨hname, rfl, hstops⟩ := readName_eq_some.1 hfirst
  obtain ⟨c, first, rfl⟩ := List.exists_cons_of_ne_nil hname.ne_nil
  dsimp only at hrest
  split at hrest
  · next tail =>
    obtain ⟨⟨second, tail⟩, hsecond, heq⟩ := Option.bind_eq_some_iff.1 hrest
    cases heq
    obtain ⟨hname', rfl, hstops'⟩ := readName_eq_some.1 hsecond
    refine ⟨by simp [QualifiedName.text], ⟨c, _, rfl, hname.1⟩, ?_, ?_⟩
    · intro d hd
      simp only [QualifiedName.text, Option.elim_some, List.mem_append, List.mem_cons] at hd
      obtain hd | rfl | hd := hd
      · exact .inr (hname.isNamePart d (by simpa using hd))
      · exact .inl rfl
      · exact .inr (hname'.isNamePart d hd)
    · intro rest' hhead
      have hread := readQualifiedName_of_names hname hname' (hstops'.of_head? hhead)
      simpa [QualifiedName.text] using hread
  · next hcolon =>
    cases hrest
    refine ⟨rfl, ⟨c, _, rfl, hname.1⟩, fun d hd => .inr (hname.isNamePart d hd), ?_⟩
    intro rest' hhead
    refine readQualifiedName_of_name hname (hstops.of_head? hhead) fun hc => ?_
    rw [hhead] at hc
    obtain ⟨tail, rfl⟩ := List.head?_eq_some_iff.1 hc
    exact hcolon tail rfl

/-! ## Instructions -/

/-- What stands in an instruction: a name other than `xml`, and space before anything else. -/
def IsInstruction (cs : List Char) : Prop :=
  ∃ target rest, readName cs = some (target, rest) ∧ target.map Char.toLower ≠ "xml".toList ∧
    ∀ c, rest.head? = some c → isSpace c

theorem infix_of_infix_append {c : Char} {m a b : List Char} (hc : c ∉ a)
    (h : (c :: m) <:+: a ++ b) : (c :: m) <:+: b := by
  induction a with
  | nil => exact h
  | cons d a ih =>
    rw [List.cons_append, List.infix_cons_iff] at h
    obtain h | h := h
    · obtain ⟨rfl, -⟩ := List.cons_prefix_cons.1 h
      exact absurd (by simp) hc
    · exact ih (fun hmem => hc (by simp [hmem])) h

theorem infix_of_infix_concat {c d : Char} {m a : List Char} (hc : c ≠ d)
    (h : (m ++ [c]) <:+: a ++ [d]) : (m ++ [c]) <:+: a := by
  obtain h | h := List.infix_concat_iff.1 h
  · obtain h | ⟨t, ht, -⟩ := List.suffix_concat_iff.1 h
    · simp at h
    · exact absurd (List.append_inj' ht rfl).2 (by simpa using hc)
  · exact h

theorem exists_of_skipInstruction {cs : List Char} (h : skipInstruction cs = some rest) :
    ∃ a, cs = a ++ ("?>".toList ++ rest) ∧ IsInstruction a ∧ ¬ "?>".toList <:+: a := by
  obtain ⟨⟨target, tail⟩, htarget, hrest⟩ := Option.bind_eq_some_iff.1 h
  obtain ⟨hname, rfl, hstops⟩ := readName_eq_some.1 htarget
  have hmark : '?' ∉ target := fun hmem => absurd (hname.isNamePart '?' hmem) (by decide)
  dsimp only at hrest
  split at hrest
  · cases hrest
  · next hxml =>
    split at hrest
    · cases hrest
      refine ⟨target, rfl, ⟨target, [], ?_, hxml, by simp⟩, fun hin => hmark (hin.subset (by simp))⟩
      exact readName_eq_some.2 ⟨hname, by simp, by simp [Stops]⟩
    · next c tail _ =>
      split at hrest
      · next hspace =>
        obtain ⟨body, rfl, hbody⟩ := exists_of_after (by decide) hrest
        have hmark' : '?' ∉ target ++ [c] := by
          intro hmem
          obtain hmem | hmem := List.mem_append.1 hmem
          · exact hmark hmem
          · cases List.mem_singleton.1 hmem
            exact absurd hspace (by decide)
        refine ⟨target ++ c :: body, by simp, ⟨target, c :: body, ?_, hxml, by simpa⟩, fun hin => ?_⟩
        · exact readName_eq_some.2 ⟨hname, rfl, hstops.of_head? rfl⟩
        · rw [← List.singleton_append, ← List.append_assoc] at hin
          have hbody' := infix_of_infix_append hmark' hin
          exact hbody (hbody'.trans (List.prefix_append _ _).isInfix)
      · cases hrest
    · cases hrest

theorem skipInstruction_append {a : List Char} (h : IsInstruction a) (hno : ¬ "?>".toList <:+: a) :
    skipInstruction (a ++ ("?>".toList ++ rest)) = some rest := by
  obtain ⟨target, tail, hread, hxml, hspace⟩ := h
  obtain ⟨hname, rfl, hstops⟩ := readName_eq_some.1 hread
  cases tail with
  | nil =>
    have hread' : readName (target ++ ("?>".toList ++ rest)) = some (target, "?>".toList ++ rest) := by
      refine readName_eq_some.2 ⟨hname, rfl, ?_⟩
      rintro _ ⟨⟩
      decide
    rw [List.append_nil, skipInstruction, hread']
    simp only [Option.bind_eq_bind, Option.bind_some, if_neg hxml]
    rfl
  | cons c body =>
    have hread' : readName (target ++ c :: body ++ ("?>".toList ++ rest)) =
        some (target, c :: (body ++ ("?>".toList ++ rest))) :=
      readName_eq_some.2 ⟨hname, by simp, hstops.of_head? rfl⟩
    have hsuffix : body <:+ target ++ c :: body := ⟨target ++ [c], by simp⟩
    have hbody : ¬ "?>".toList <:+: body ++ ['?'] := fun hin =>
      hno ((infix_of_infix_concat (m := ['?']) (by decide) hin).trans hsuffix.isInfix)
    have hspace' : isSpace c := hspace c rfl
    rw [skipInstruction, hread']
    simp only [Option.bind_eq_bind, Option.bind_some, if_neg hxml]
    split
    · next heq =>
      obtain ⟨rfl, -⟩ := List.cons.inj heq
      exact absurd hspace' (by decide)
    · next heq =>
      cases heq
      rw [if_pos hspace']
      exact after_append (by decide) hbody
    · next heq => cases heq

/-- An instruction ends at the first mark for its end. -/
theorem skipInstruction_eq_some {cs : List Char} : skipInstruction cs = some rest ↔
    ∃ a, cs = a ++ ("?>".toList ++ rest) ∧ IsInstruction a ∧ ¬ "?>".toList <:+: a := by
  refine ⟨exists_of_skipInstruction, ?_⟩
  rintro ⟨a, rfl, ha, hno⟩
  exact skipInstruction_append ha hno

/-! ## Quoted texts and references -/

theorem eq_append_of_tail?_dropWhile {q : Char} {cs : List Char}
    (h : (cs.dropWhile (· != q)).tail? = some rest) :
    q ∉ cs.takeWhile (· != q) ∧ cs = cs.takeWhile (· != q) ++ q :: rest := by
  refine ⟨fun hmem => by simpa using List.mem_takeWhile_imp hmem, ?_⟩
  cases hdrop : cs.dropWhile (· != q) with
  | nil =>
    rw [hdrop] at h
    cases h
  | cons c tail =>
    have hstops := stops_dropWhile (· != q) cs c (by rw [hdrop]; rfl)
    have hc : c = q := by simpa using hstops
    rw [hdrop] at h
    cases h
    rw [← hc, ← hdrop, hc, List.takeWhile_append_dropWhile]

theorem takeWhile_ne_append {q : Char} {a : List Char} (h : q ∉ a) (rest : List Char) :
    (a ++ q :: rest).takeWhile (· != q) = a ∧ (a ++ q :: rest).dropWhile (· != q) = q :: rest := by
  have hstops : Stops (· != q) (q :: rest) := by
    rintro _ ⟨⟩
    simp
  have ha : ∀ c ∈ a, c != q := fun c hc => bne_iff_ne.2 (ne_of_mem_of_not_mem hc h)
  exact ⟨hstops.takeWhile_append ha, hstops.dropWhile_append ha⟩

theorem readQuoted_eq_some {cs v : List Char} : readQuoted cs = some (v, rest) ↔
    ∃ q, (q = '"' ∨ q = '\'') ∧ q ∉ v ∧ cs = q :: (v ++ q :: rest) := by
  constructor
  · intro h
    cases cs with
    | nil => cases h
    | cons q cs =>
      simp only [readQuoted, Bool.or_eq_true, decide_eq_true_eq] at h
      split at h
      · next hq =>
        obtain ⟨tail, htail, heq⟩ := Option.map_eq_some_iff.1 h
        cases heq
        obtain ⟨hnot, hcs⟩ := eq_append_of_tail?_dropWhile htail
        exact ⟨q, hq, hnot, congrArg (q :: ·) hcs⟩
      · cases h
  · rintro ⟨q, hq, hv, rfl⟩
    obtain ⟨htake, hdrop⟩ := takeWhile_ne_append hv rest
    simp only [readQuoted, Bool.or_eq_true, decide_eq_true_eq, if_pos hq, htake, hdrop]
    rfl

theorem not_mem_of_charOf? {base : Nat} {digits : List Char} {c : Char}
    (h : charOf? base digits = some c) : '{' ∉ digits := by
  obtain ⟨values, hvalues, -⟩ := Option.bind_eq_some_iff.1 h
  clear h
  have hbrace : digit? base '{' = none := by
    simp [digit?]
  induction digits generalizing values with
  | nil => simp
  | cons d digits ih =>
    rw [List.mapM_cons] at hvalues
    obtain ⟨value, hvalue, hvalues⟩ := Option.bind_eq_some_iff.1 hvalues
    obtain ⟨values, hvalues, -⟩ := Option.bind_eq_some_iff.1 hvalues
    rw [List.mem_cons, not_or]
    refine ⟨?_, ih values hvalues⟩
    rintro rfl
    rw [hbrace] at hvalue
    cases hvalue

/-- A reference is read as it is written, and no brace is in it. -/
theorem readReference_spec {cs : List Char} {r : Reference}
    (h : readReference cs = some (r, rest)) : ∃ body, cs = body ++ ';' :: rest ∧ '{' ∉ body ∧
      ∀ rest', readReference (body ++ ';' :: rest') = some (r, rest') := by
  obtain ⟨tail, htail, hbody⟩ := Option.bind_eq_some_iff.1 h
  obtain ⟨hnot, hcs⟩ := eq_append_of_tail?_dropWhile htail
  generalize cs.takeWhile (· != ';') = body at *
  have hspan (rest' : List Char) := takeWhile_ne_append hnot rest'
  split at hbody
  · next digits =>
    obtain ⟨c, hc, heq⟩ := Option.bind_eq_some_iff.1 hbody
    cases heq
    refine ⟨_, hcs, by simp [not_mem_of_charOf? hc], fun rest' => ?_⟩
    simp only [readReference, hspan rest', List.tail?_cons, Option.bind_eq_bind, Option.bind_some, hc]
    rfl
  · next digits hx =>
    obtain ⟨c, hc, heq⟩ := Option.bind_eq_some_iff.1 hbody
    cases heq
    refine ⟨_, hcs, by simp [not_mem_of_charOf? hc], fun rest' => ?_⟩
    simp only [readReference, hspan rest', List.tail?_cons, Option.bind_eq_bind, Option.bind_some, hc]
    rfl
  · next hx hdigits =>
    split at hbody
    · next c hlookup =>
      cases hbody
      obtain ⟨before, behind, hmem, -⟩ := List.lookup_eq_some_iff.1 hlookup
      have hbrace : ∀ p ∈ entities, '{' ∉ p.1 := by decide
      refine ⟨body, hcs, hbrace (body, c) (by simp [hmem]), fun rest' => ?_⟩
      simp only [readReference, hspan rest', List.tail?_cons, Option.bind_eq_bind,
        Option.bind_some, hlookup]
      rfl
    · next hlookup hname =>
      cases hbody
      obtain ⟨hpart, heq, -⟩ := readName_eq_some.1 hname
      refine ⟨body, hcs, fun hmem => ?_, fun rest' => ?_⟩
      · rw [heq, List.append_nil] at hmem
        exact absurd (hpart.isNamePart _ hmem) (by decide)
      · simp only [readReference, hspan rest', List.tail?_cons, Option.bind_eq_bind,
          Option.bind_some, hlookup, hname]
        rfl
    · cases hbody

end Inventory.Xml
