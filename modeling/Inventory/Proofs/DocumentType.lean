import Inventory.Proofs.Reading

/-!
# How far a document type goes

The declaration of a document's type is read as far as it goes, and what follows it does not matter:
every reader below looks at one character behind what it takes off at most, and the declaration ends
with a character of its own.
-/

namespace Inventory.Xml

variable {a cs rest : List Char}

theorem head?_append_of_ne_nil {α : Type} {a : List α} (ha : a ≠ []) (b b' : List α) :
    (a ++ b).head? = (a ++ b').head? := by
  obtain ⟨c, a, rfl⟩ := List.exists_cons_of_ne_nil ha
  rfl

theorem endsBefore_eq {ends rest' : List Char} (h : rest'.head? = rest.head?) :
    endsBefore ends rest' = endsBefore ends rest := by
  rw [endsBefore, endsBefore, h]

/-! ## Marks of declarations -/

/-- Characters of words. -/
def isWordPart (c : Char) : Bool :=
  isNamePart c || c == ':'

theorem readWord_append {text : List Char} (htext : ∀ c ∈ text, isWordPart c)
    (hstops : Stops isWordPart rest) : readWord (text ++ rest) =
      if text.isEmpty then none
      else if endsBefore ">),|[%".toList rest then some (.word (.of text) text none, rest)
      else
        match rest with
        | sign :: tail =>
          if isSign sign && WordKind.of text != .token then
            some (.word (.of text) text (some sign), tail)
          else none
        | [] => none := by
  have htake : (text ++ rest).takeWhile (fun c => isNamePart c || c == ':') = text :=
    hstops.takeWhile_append htext
  have hdrop : (text ++ rest).dropWhile (fun c => isNamePart c || c == ':') = rest :=
    hstops.dropWhile_append htext
  cases rest <;> simp only [readWord, htake, hdrop]

theorem readWord_takes {m : Mark} (h : readWord cs = some (m, rest)) :
    ∃ c a, isWordPart c ∧ cs = c :: a ++ rest ∧ Takes readWord (c :: a) m rest.head? := by
  obtain ⟨text, tail, htext, hstops, rfl⟩ :
      ∃ text tail, (∀ c ∈ text, isWordPart c) ∧ Stops isWordPart tail ∧ cs = text ++ tail :=
    ⟨_, _, fun c hc => List.mem_takeWhile_imp hc, stops_dropWhile isWordPart cs,
      List.takeWhile_append_dropWhile.symm⟩
  rw [readWord_append htext hstops] at h
  cases text with
  | nil => cases h
  | cons c text =>
    rw [if_neg (by simp)] at h
    split at h
    · next hends =>
      cases h
      refine ⟨c, text, htext c (by simp), rfl, fun rest' hhead => ?_⟩
      rw [readWord_append htext (hstops.of_head? hhead), if_neg (by simp), endsBefore_eq hhead,
        if_pos hends]
    · next hends =>
      split at h
      · next sign tail =>
        split at h
        · next hsign =>
          cases h
          refine ⟨c, text ++ [sign], htext c (by simp), by simp, fun rest' _ => ?_⟩
          have hhead : (sign :: rest').head? = (sign :: rest).head? := rfl
          rw [← List.cons_append, List.append_assoc, List.singleton_append,
            readWord_append htext (hstops.of_head? hhead), if_neg (by simp), endsBefore_eq hhead,
            if_neg hends]
          simp only [if_pos hsign]
        · cases h
      · cases h

theorem readMark_of_isWordPart {c : Char} (hc : isWordPart c) (cs : List Char) :
    readMark (c :: cs) = readWord (c :: cs) := by
  have hne (m : Char) (hm : isWordPart m = false) (tail : List Char) : c :: cs ≠ m :: tail := by
    intro heq
    rw [(List.cons.inj heq).1, hm] at hc
    cases hc
  rw [readMark]
  · exact hne '"' (by decide)
  · exact hne '\'' (by decide)
  · exact hne '#' (by decide)
  · exact hne '%' (by decide)
  · exact hne ',' (by decide)
  · exact hne '|' (by decide)
  · exact hne '(' (by decide)
  · exact hne ')' (by decide)

theorem readMark_quoted {q : Char} {v : List Char} (hq : q = '"' ∨ q = '\'') (hv : q ∉ v)
    (hends : endsBefore ">%[".toList rest) :
    readMark (q :: (v ++ q :: rest)) = some (.quoted v, rest) := by
  have hread : readQuoted (q :: (v ++ q :: rest)) = some (v, rest) :=
    readQuoted_eq_some.2 ⟨q, hq, hv, rfl⟩
  obtain rfl | rfl := hq
  · rw [readMark, hread]
    simp only [Option.bind_eq_bind, Option.bind_some, if_pos hends]
  · rw [readMark, hread]
    simp only [Option.bind_eq_bind, Option.bind_some, if_pos hends]

theorem readQuotedMark_takes {m : Mark}
    (h : ((readQuoted cs).bind fun found =>
      if endsBefore ">%[".toList found.2 then some (Mark.quoted found.1, found.2) else none) =
        some (m, rest)) :
    ∃ a, a ≠ [] ∧ cs = a ++ rest ∧ Takes readMark a m rest.head? := by
  obtain ⟨⟨v, tail⟩, hv, hmore⟩ := Option.bind_eq_some_iff.1 h
  dsimp only at hmore
  split at hmore
  · next hends =>
    cases hmore
    obtain ⟨q, hq, hnot, rfl⟩ := readQuoted_eq_some.1 hv
    refine ⟨q :: (v ++ [q]), by simp, by simp, fun rest' hhead => ?_⟩
    rw [← readMark_quoted hq hnot ((endsBefore_eq hhead).trans hends)]
    simp
  · cases hmore

/-- A bracket that closes a group stands apart from what follows, or a sign belongs to it. -/
theorem readClosing_takes {m : Mark} (h : readMark (')' :: cs) = some (m, rest)) :
    ∃ a, a ≠ [] ∧ ')' :: cs = a ++ rest ∧ Takes readMark a m rest.head? := by
  simp only [readMark] at h
  split at h
  · next hends =>
    cases h
    refine ⟨[')'], by simp, rfl, fun rest' hhead => ?_⟩
    rw [List.singleton_append, readMark.eq_def]
    simp only [endsBefore_eq hhead, if_pos hends]
  · next hends =>
    split at h
    · next sign tail =>
      split at h
      · next hsign =>
        cases h
        refine ⟨[')', sign], by simp, rfl, fun rest' _ => ?_⟩
        have hhead : (sign :: rest').head? = (sign :: rest).head? := rfl
        rw [List.cons_append, List.singleton_append, readMark.eq_def]
        simp only [endsBefore_eq hhead, if_neg hends, if_pos hsign]
      · cases h
    · cases h

/-- A mark is read as it is written. -/
theorem readMark_takes {m : Mark} (h : readMark cs = some (m, rest)) :
    ∃ a, a ≠ [] ∧ cs = a ++ rest ∧ Takes readMark a m rest.head? := by
  have hmark := h
  rw [readMark.eq_def] at h
  split at h
  · exact readQuotedMark_takes h
  · exact readQuotedMark_takes h
  · next tail =>
    obtain ⟨⟨word, tail'⟩, hword, hmore⟩ := Option.bind_eq_some_iff.1 h
    dsimp only at hmore
    split at hmore
    · next hends =>
      cases hmore
      obtain ⟨-, rfl, -⟩ := readName_eq_some.1 hword
      refine ⟨'#' :: word, by simp, rfl, fun rest' hhead => ?_⟩
      rw [List.cons_append, readMark, readName_takes hword rest' hhead]
      simp only [Option.bind_eq_bind, Option.bind_some, endsBefore_eq hhead, if_pos hends]
    · cases hmore
  · next tail =>
    split at h
    · next hends =>
      cases h
      refine ⟨['%'], by simp, rfl, fun rest' hhead => ?_⟩
      rw [List.singleton_append, readMark, if_pos ((endsBefore_eq hhead).trans hends)]
    · cases h
  · cases h
    exact ⟨[','], by simp, rfl, fun rest' _ => rfl⟩
  · cases h
    exact ⟨['|'], by simp, rfl, fun rest' _ => rfl⟩
  · cases h
    exact ⟨['('], by simp, rfl, fun rest' _ => rfl⟩
  · exact readClosing_takes hmark
  · obtain ⟨c, a, hc, rfl, htakes⟩ := readWord_takes h
    refine ⟨c :: a, by simp, rfl, fun rest' hhead => ?_⟩
    rw [← htakes rest' hhead, List.cons_append, readMark_of_isWordPart hc]

theorem strip?_eq_none {mark : List Char} {c : Char} (hmark : mark.head? = some c)
    (h : cs.head? ≠ some c) : strip? mark cs = none := by
  rw [Option.eq_none_iff_forall_ne_some]
  intro rest hstrip
  obtain ⟨mark, rfl⟩ := List.head?_eq_some_iff.1 hmark
  rw [strip?_eq_some.1 hstrip] at h
  exact h rfl

/-! ## Declarations -/

/-- With enough fuel, `p` takes `a` off and gives `x`, whatever follows. -/
def TakesAll {α : Type} (p : (fuel : Nat) → List Char → Option (α × List Char)) (a : List Char)
    (x : α) : Prop :=
  ∀ n ≥ a.length, ∀ rest, p n (a ++ rest) = some (x, rest)

theorem exists_space (cs : List Char) : ∃ space, (∀ c ∈ space, isSpace c) ∧
    cs = space ++ cs.dropWhile isSpace ∧ Stops isSpace (cs.dropWhile isSpace) :=
  ⟨cs.takeWhile isSpace, fun _ hc => List.mem_takeWhile_imp hc,
    List.takeWhile_append_dropWhile.symm, stops_dropWhile isSpace cs⟩

theorem readMarks_takes {fuel : Nat} {ms : List Mark} (h : readMarks fuel cs = some (ms, rest)) :
    ∃ a, a ≠ [] ∧ cs = a ++ rest ∧ TakesAll readMarks a ms := by
  induction fuel generalizing cs ms with
  | zero => cases h
  | succ fuel ih =>
    obtain ⟨space, hspace, hcs, hstops⟩ := exists_space cs
    rw [readMarks] at h
    split at h
    · next tail hend =>
      cases h
      rw [hend] at hcs hstops
      refine ⟨space ++ ['>'], by simp, by simpa using hcs, fun n hn rest' => ?_⟩
      obtain ⟨n, rfl⟩ := Nat.exists_eq_add_one_of_ne_zero (n := n) (by simp at hn; omega)
      have hstops' : Stops isSpace ('>' :: rest') := hstops.of_head? rfl
      rw [List.append_assoc, List.singleton_append, readMarks, hstops'.dropWhile_append hspace]
      rfl
    · next hbody =>
      obtain ⟨⟨m, tail⟩, hm, hmore⟩ := Option.bind_eq_some_iff.1 h
      obtain ⟨⟨others, tail'⟩, hothers, heq⟩ := Option.bind_eq_some_iff.1 hmore
      cases heq
      obtain ⟨a, hne, hbody', htakes⟩ := readMark_takes hm
      obtain ⟨b, hne', rfl, htakes'⟩ := ih hothers
      refine ⟨space ++ (a ++ b), by simp [hne], by rw [hcs, hbody']; simp, fun n hn rest' => ?_⟩
      obtain ⟨c, a, rfl⟩ := List.exists_cons_of_ne_nil hne
      obtain ⟨n, rfl⟩ := Nat.exists_eq_add_one_of_ne_zero (n := n) (by simp at hn; omega)
      have hdrop : (space ++ (c :: a ++ b) ++ rest').dropWhile isSpace = c :: a ++ (b ++ rest') := by
        rw [hbody'] at hstops
        have hstops' : Stops isSpace (c :: a ++ (b ++ rest')) := hstops.of_head? rfl
        rw [List.append_assoc, List.append_assoc, hstops'.dropWhile_append hspace]
      rw [readMarks, hdrop]
      split
      · next heq =>
        obtain ⟨rfl, -⟩ := List.cons.inj heq
        exact absurd hbody' (hbody _)
      · rw [htakes _ (head?_append_of_ne_nil hne' _ _)]
        simp only [Option.bind_eq_bind, Option.bind_some, htakes' n (by simp at hn; omega)]
        rfl

namespace Doctype

variable {d d' : Doctype}

theorem not_isAlpha_of_isSpace {c : Char} (h : isSpace c) : c.isAlpha = false := by
  simp only [isSpace, Bool.or_eq_true, beq_iff_eq] at h
  obtain ((rfl | rfl) | rfl) | rfl := h <;> decide

theorem readSubset_declaration {keyword marks : List Char} {ms : List Mark} {d₁ : Doctype}
    (hkeyword : ∀ c ∈ keyword, c.isAlpha) (hspace : marks.head?.any isSpace)
    (hmarks : TakesAll readMarks marks ms) (hdeclare : d.declare keyword ms = some d₁)
    (fuel : Nat) (rest : List Char) :
    readSubset (fuel + 1) d ("<!".toList ++ (keyword ++ marks) ++ rest) =
      readSubset fuel d₁ rest := by
  obtain ⟨s, marks, rfl⟩ : ∃ s tail, marks = s :: tail := by
    cases marks with
    | nil => cases hspace
    | cons s tail => exact ⟨s, tail, rfl⟩
  have hs : isSpace s := hspace
  have hstops : Stops Char.isAlpha (s :: marks ++ rest) := by
    rintro _ ⟨⟩
    exact not_isAlpha_of_isSpace hs
  have hdash : ∀ tail, keyword ++ (s :: marks ++ rest) ≠ '-' :: '-' :: tail := by
    intro tail heq
    cases keyword with
    | nil =>
      obtain ⟨rfl, -⟩ := List.cons.inj heq
      exact absurd hs (by decide)
    | cons c keyword =>
      obtain ⟨rfl, -⟩ := List.cons.inj heq
      exact absurd (hkeyword '-' (by simp)) (by decide)
  have hread : readMarks (s :: marks ++ rest).length (s :: marks ++ rest) = some (ms, rest) :=
    hmarks _ (by simp) rest
  rw [List.append_assoc, List.append_assoc]
  change readSubset (fuel + 1) d ('<' :: '!' :: (keyword ++ (s :: marks ++ rest))) = _
  rw [readSubset, hstops.takeWhile_append hkeyword, hstops.dropWhile_append hkeyword]
  · rw [hread]
    simp [hs, hdeclare]
  · exact hdash

theorem readSubset_reference {name : List Char} (hname : IsName name) (fuel : Nat)
    (rest : List Char) : readSubset (fuel + 1) d ('%' :: (name ++ [';']) ++ rest) =
      readSubset fuel d.afterReference rest := by
  have hread : readName (name ++ ';' :: rest) = some (name, ';' :: rest) := by
    refine readName_eq_some.2 ⟨hname, rfl, ?_⟩
    rintro _ ⟨⟩
    decide
  rw [List.cons_append, List.append_assoc, List.singleton_append, readSubset, hread]
  rfl

theorem readSubset_comment {x : List Char} (hx : ¬"--".toList <:+: x ++ ['-']) (fuel : Nat)
    (rest : List Char) : readSubset (fuel + 1) d ("<!--".toList ++ (x ++ "-->".toList) ++ rest) =
      readSubset fuel d rest := by
  have hskip : skipComment (x ++ ("-->".toList ++ rest)) = some rest :=
    skipComment_eq_some.2 ⟨x, rfl, hx⟩
  rw [List.append_assoc, List.append_assoc]
  change (skipComment (x ++ ("-->".toList ++ rest))).bind _ = _
  rw [hskip]
  rfl

theorem readSubset_instruction {x : List Char} (hx : IsInstruction x)
    (hends : ¬"?>".toList <:+: x) (fuel : Nat) (rest : List Char) :
    readSubset (fuel + 1) d ("<?".toList ++ (x ++ "?>".toList) ++ rest) =
      readSubset fuel d rest := by
  have hskip : skipInstruction (x ++ ("?>".toList ++ rest)) = some rest :=
    skipInstruction_eq_some.2 ⟨x, rfl, hx, hends⟩
  rw [List.append_assoc, List.append_assoc]
  change (skipInstruction (x ++ ("?>".toList ++ rest))).bind _ = _
  rw [hskip]
  rfl

theorem readSubset_space {c : Char} (hc : isSpace c) (fuel : Nat) (rest : List Char) :
    readSubset (fuel + 1) d ([c] ++ rest) = readSubset fuel d rest := by
  simp only [isSpace, Bool.or_eq_true, beq_iff_eq] at hc
  obtain ((rfl | rfl) | rfl) | rfl := hc <;> rfl

/-- A step through the declarations, which does not depend on what follows. -/
theorem readSubset_step {fuel : Nat} (h : readSubset (fuel + 1) d cs = some (d', rest)) :
    (cs = ']' :: rest ∧ d' = d) ∨ ∃ a d₁ tail, a ≠ [] ∧ cs = a ++ tail ∧
      readSubset fuel d₁ tail = some (d', rest) ∧
      ∀ n rest', readSubset (n + 1) d (a ++ rest') = readSubset n d₁ rest' := by
  rw [readSubset.eq_def] at h
  dsimp only at h
  split at h
  · cases h
    exact .inl ⟨rfl, rfl⟩
  · next tail =>
    obtain ⟨⟨name, tail'⟩, hread, hmore⟩ := Option.bind_eq_some_iff.1 h
    obtain ⟨tail'', hsemicolon, hrest⟩ := Option.bind_eq_some_iff.1 hmore
    obtain ⟨hname, rfl, -⟩ := readName_eq_some.1 hread
    have htail : tail' = ";".toList ++ tail'' := strip?_eq_some.1 hsemicolon
    subst htail
    exact .inr ⟨'%' :: (name ++ [';']), d.afterReference, tail'', by simp, by simp, hrest,
      readSubset_reference hname⟩
  · next tail =>
    obtain ⟨tail', hcomment, hrest⟩ := Option.bind_eq_some_iff.1 h
    obtain ⟨x, rfl, hx⟩ := skipComment_eq_some.1 hcomment
    exact .inr ⟨"<!--".toList ++ (x ++ "-->".toList), d, tail', by simp, by simp, hrest,
      readSubset_comment hx⟩
  · next tail =>
    obtain ⟨tail', hinstruction, hrest⟩ := Option.bind_eq_some_iff.1 h
    obtain ⟨x, rfl, hx, hends⟩ := skipInstruction_eq_some.1 hinstruction
    exact .inr ⟨"<?".toList ++ (x ++ "?>".toList), d, tail', by simp, by simp, hrest,
      readSubset_instruction hx hends⟩
  · next tail _ =>
    split at h
    · cases h
    · next hspace =>
      obtain ⟨⟨ms, tail'⟩, hms, hmore⟩ := Option.bind_eq_some_iff.1 h
      obtain ⟨d₁, hdeclare, hrest⟩ := Option.bind_eq_some_iff.1 hmore
      obtain ⟨x, hne, hx, htakes⟩ := readMarks_takes hms
      have htail : tail = tail.takeWhile Char.isAlpha ++ (x ++ tail') := by
        rw [← hx, List.takeWhile_append_dropWhile]
      refine .inr ⟨"<!".toList ++ (tail.takeWhile Char.isAlpha ++ x), d₁, tail', by simp, ?_, hrest, ?_⟩
      · rw [List.append_assoc, List.append_assoc, ← htail]
        rfl
      · refine readSubset_declaration (fun c hc => List.mem_takeWhile_imp hc) ?_ htakes hdeclare
        rw [hx, head?_append_of_ne_nil hne _ []] at hspace
        simpa using hspace
  · next c tail _ _ _ _ _ =>
    split at h
    · next hspace =>
      exact .inr ⟨[c], d, tail, by simp, rfl, h, readSubset_space hspace⟩
    · cases h
  · cases h

theorem readSubset_takes {fuel : Nat} (h : readSubset fuel d cs = some (d', rest)) :
    ∃ a, a ≠ [] ∧ cs = a ++ rest ∧ TakesAll (readSubset · d) a d' := by
  induction fuel generalizing cs d with
  | zero => cases h
  | succ fuel ih =>
    obtain ⟨rfl, rfl⟩ | ⟨a, d₁, tail, hne, rfl, hrest, hstep⟩ := readSubset_step h
    · refine ⟨[']'], by simp, rfl, fun n hn rest' => ?_⟩
      obtain ⟨n, rfl⟩ := Nat.exists_eq_add_one_of_ne_zero (n := n) (by simp at hn; omega)
      rfl
    · obtain ⟨b, hne', rfl, htakes⟩ := ih hrest
      have hpos := List.length_pos_iff.2 hne
      refine ⟨a ++ b, by simp [hne], by simp, fun n hn rest' => ?_⟩
      rw [List.length_append] at hn
      obtain ⟨n, rfl⟩ := Nat.exists_eq_add_one_of_ne_zero (n := n) (by omega)
      change readSubset (n + 1) d (a ++ b ++ rest') = _
      rw [List.append_assoc, hstep]
      exact htakes n (by omega) rest'

/-! ## The whole declaration -/

/-- Reads the declarations between brackets, if there are any. -/
def readInternal (d : Doctype) (cs : List Char) : Option (Doctype × List Char) :=
  match cs.dropWhile isSpace with
  | '[' :: rest => readSubset rest.length d rest
  | rest => some (d, rest)

/-- What is read of the type after the name of the root and the place of an external part. -/
def readEnd (d : Doctype) (cs : List Char) : Option (Doctype × List Char) :=
  (d.readInternal cs).bind fun p =>
    (strip? ">".toList (p.2.dropWhile isSpace)).map fun rest => (p.1, rest)

theorem readEnd_eq (d : Doctype) (cs : List Char) : d.readEnd cs =
    match cs.dropWhile isSpace with
    | '[' :: rest => (readSubset rest.length d rest).bind fun p =>
        (strip? ">".toList (p.2.dropWhile isSpace)).bind fun rest => some (p.1, rest)
    | rest => (strip? ">".toList (rest.dropWhile isSpace)).bind fun rest => some (d, rest) := by
  unfold readEnd readInternal
  split
  · simp only [Option.map_eq_bind]
    rfl
  · simp only [Option.map_eq_bind]
    rfl

/-- What is read of the type after the name of the root. -/
def readKind (d : Doctype) (cs : List Char) : Option (Doctype × List Char) :=
  (if cs.head?.any isSpace then d.readExternal (cs.dropWhile isSpace) else some (d, cs)).bind
    fun p => p.1.readEnd p.2

theorem read_of_strip? {isAlone : Bool} {tail : List Char}
    (h : strip? "<!DOCTYPE".toList cs = some tail) : read isAlone cs =
      if tail.head?.any isSpace then
        (readQualifiedName (tail.dropWhile isSpace)).bind fun p => readKind (bare isAlone) p.2
      else none := by
  rw [read, h]
  cases hspace : tail.head?.any isSpace with
  | false => simp [hspace]
  | true =>
    simp only [hspace, Bool.not_true, if_true, Option.bind_eq_bind, Bool.false_eq_true, if_false]
    refine congrArg (Option.bind _) (funext fun p => ?_)
    unfold readKind
    split
    · exact congrArg _ (funext fun q => (q.1.readEnd_eq q.2).symm)
    · exact ((bare isAlone).readEnd_eq p.2).symm

theorem head?_space_append {space tail : List Char} {c d : Char} (hspace : ∀ c ∈ space, isSpace c)
    (h : (space ++ d :: tail).head? = some c) : isSpace c ∨ d = c := by
  cases space with
  | nil => exact .inr (Option.some.inj h)
  | cons s space =>
    cases h
    exact .inl (hspace _ (by simp))

/-- Space and the bracket that ends the declaration. -/
theorem exists_of_close (h : strip? ">".toList (cs.dropWhile isSpace) = some rest) :
    ∃ a, a ≠ [] ∧ cs = a ++ rest ∧ a.getLast? = some '>' ∧
      (∀ c, a.head? = some c → isSpace c ∨ c = '>') ∧
      ∀ rest', strip? ">".toList ((a ++ rest').dropWhile isSpace) = some rest' := by
  obtain ⟨space, hspace, hcs, hstops⟩ := exists_space cs
  have hend := strip?_eq_some.1 h
  rw [hend] at hcs hstops
  refine ⟨space ++ ['>'], by simp, by simpa using hcs, by simp, ?_, fun rest' => ?_⟩
  · exact fun c hc => (head?_space_append hspace hc).imp_right Eq.symm
  · have hstops' : Stops isSpace ('>' :: rest') := hstops.of_head? rfl
    rw [List.append_assoc, List.singleton_append, hstops'.dropWhile_append hspace]
    exact strip?_eq_some.2 rfl

theorem readEnd_takes (h : readEnd d cs = some (d', rest)) :
    ∃ a, a ≠ [] ∧ cs = a ++ rest ∧ a.getLast? = some '>' ∧
      (∀ c, a.head? = some c → isSpace c ∨ c = '[' ∨ c = '>') ∧
      ∀ rest', readEnd d (a ++ rest') = some (d', rest') := by
  obtain ⟨⟨d₁, tail⟩, hsubset, hmore⟩ := Option.bind_eq_some_iff.1 h
  obtain ⟨tail', hclose, heq⟩ := Option.map_eq_some_iff.1 hmore
  cases heq
  unfold readInternal at hsubset
  split at hsubset
  · next tail₁ hopen =>
    obtain ⟨a, hne, rfl, htakes⟩ := readSubset_takes hsubset
    obtain ⟨b, hne', rfl, hlast, -, hclose'⟩ := exists_of_close hclose
    obtain ⟨space, hspace, hcs, hstops⟩ := exists_space cs
    rw [hopen] at hcs hstops
    refine ⟨space ++ '[' :: (a ++ b), by simp, by rw [hcs]; simp, ?_, ?_, fun rest' => ?_⟩
    · rw [List.getLast?_append, List.getLast?_cons, List.getLast?_append, hlast]
      rfl
    · exact fun c hc => (head?_space_append hspace hc).imp_right (.inl ∘ Eq.symm)
    · have hstops' : Stops isSpace ('[' :: (a ++ (b ++ rest'))) := hstops.of_head? rfl
      have hdrop : (space ++ '[' :: (a ++ b) ++ rest').dropWhile isSpace = '[' :: (a ++ (b ++ rest')) := by
        rw [← hstops'.dropWhile_append hspace]
        simp
      have hinternal : readInternal d (space ++ '[' :: (a ++ b) ++ rest') = some (d₁, b ++ rest') := by
        rw [readInternal, hdrop]
        exact htakes _ (by simp) _
      rw [readEnd, hinternal, Option.bind_some, hclose']
      rfl
  · next hopen =>
    cases hsubset
    obtain ⟨b, hne, hb, hlast, hhead, hclose'⟩ := exists_of_close hclose
    obtain ⟨space, hspace, hcs, hstops⟩ := exists_space cs
    obtain ⟨c, b, rfl⟩ := List.exists_cons_of_ne_nil hne
    dsimp only at hb
    rw [hb] at hcs hstops
    have hc : c = '>' := (hhead c rfl).resolve_left fun hc => by simp [hstops c rfl] at hc
    subst hc
    refine ⟨space ++ '>' :: b, by simp, by rw [hcs]; simp, by rw [List.getLast?_append, hlast]; rfl, ?_, ?_⟩
    · exact fun c hc => (head?_space_append hspace hc).imp_right (.inr ∘ Eq.symm)
    · intro rest'
      have hstops' : Stops isSpace ('>' :: b ++ rest') := hstops.of_head? rfl
      have hinternal : readInternal d (space ++ '>' :: b ++ rest') = some (d, '>' :: b ++ rest') := by
        rw [readInternal, List.append_assoc, hstops'.dropWhile_append hspace]
        rfl
      rw [readEnd, hinternal, Option.bind_some, hclose']
      rfl

theorem readLiteral_takes {v : List Char} (h : readExternal.readLiteral cs = some (v, rest)) :
    ∃ a, a ≠ [] ∧ cs = a ++ rest ∧ Takes readExternal.readLiteral a v rest.head? := by
  unfold readExternal.readLiteral at h
  split at h
  · cases h
  · next hspace =>
    obtain ⟨⟨v', tail⟩, hquoted, hmore⟩ := Option.bind_eq_some_iff.1 h
    dsimp only at hmore
    split at hmore
    · next hends =>
      cases hmore
      obtain ⟨space, hall, hcs, hstops⟩ := exists_space cs
      obtain ⟨q, hq, hnot, hbody⟩ := readQuoted_eq_some.1 hquoted
      rw [hbody] at hcs hstops
      refine ⟨space ++ q :: (v ++ [q]), by simp, by rw [hcs]; simp, fun rest' hhead => ?_⟩
      have hstops' : Stops isSpace (q :: (v ++ q :: rest')) := hstops.of_head? rfl
      have heq : space ++ q :: (v ++ [q]) ++ rest' = space ++ q :: (v ++ q :: rest') := by simp
      have hfirst : (space ++ q :: (v ++ q :: rest')).head? = cs.head? := by
        rw [hcs]
        cases space <;> rfl
      have hread : readQuoted (q :: (v ++ q :: rest')) = some (v, rest') :=
        readQuoted_eq_some.2 ⟨q, hq, hnot, rfl⟩
      rw [heq, readExternal.readLiteral, hfirst, if_neg hspace, hstops'.dropWhile_append hall, hread]
      simp only [Option.bind_eq_bind, Option.bind_some, endsBefore_eq hhead, if_pos hends]
      rfl
    · cases hmore

theorem readExternal_takes (h : readExternal d cs = some (d', rest))
    (hsystem : rest.head? ≠ some 'S') (hpublic : rest.head? ≠ some 'P') :
    ∃ a, cs = a ++ rest ∧ Takes (readExternal d) a d' rest.head? := by
  unfold readExternal at h
  split at h
  · next tail _ hstrip =>
    obtain ⟨⟨v, tail'⟩, hliteral, heq⟩ := Option.bind_eq_some_iff.1 h
    cases heq
    obtain ⟨a, -, rfl, htakes⟩ := readLiteral_takes hliteral
    refine ⟨"SYSTEM".toList ++ a, by rw [strip?_eq_some.1 hstrip]; simp, fun rest' hhead => ?_⟩
    have hstrip' : strip? "SYSTEM".toList ("SYSTEM".toList ++ a ++ rest') = some (a ++ rest') :=
      strip?_eq_some.2 (List.append_assoc ..)
    rw [readExternal, hstrip']
    simp only [htakes rest' hhead]
    rfl
  · next tail hnone hstrip =>
    obtain ⟨⟨name, tail₁⟩, hname, hmore⟩ := Option.bind_eq_some_iff.1 h
    dsimp only at hmore
    split at hmore
    · cases hmore
    · next hallowed =>
      obtain ⟨⟨v, tail'⟩, hliteral, heq⟩ := Option.bind_eq_some_iff.1 hmore
      cases heq
      obtain ⟨a, -, rfl, htakes⟩ := readLiteral_takes hname
      obtain ⟨b, hne, rfl, htakes'⟩ := readLiteral_takes hliteral
      refine ⟨"PUBLIC".toList ++ (a ++ b), by rw [strip?_eq_some.1 hstrip]; simp, ?_⟩
      intro rest' hhead
      have heq : "PUBLIC".toList ++ (a ++ b) ++ rest' = "PUBLIC".toList ++ (a ++ (b ++ rest')) := by
        simp only [List.append_assoc]
      have hsystem' : strip? "SYSTEM".toList ("PUBLIC".toList ++ (a ++ (b ++ rest'))) = none := rfl
      rw [heq, readExternal, hsystem', strip?_eq_some.2 rfl]
      simp only [htakes _ (head?_append_of_ne_nil hne _ _), htakes' rest' hhead, Option.bind_eq_bind,
        Option.bind_some, if_neg hallowed]
      rfl
  · cases h
    refine ⟨[], rfl, fun rest' hhead => ?_⟩
    rw [List.nil_append, readExternal, strip?_eq_none rfl (hhead ▸ hsystem),
      strip?_eq_none rfl (hhead ▸ hpublic)]

theorem readKind_takes (h : readKind d cs = some (d', rest)) :
    ∃ a, a ≠ [] ∧ cs = a ++ rest ∧ a.getLast? = some '>' ∧
      ∀ rest', readKind d (a ++ rest') = some (d', rest') := by
  obtain ⟨⟨d₁, tail⟩, hexternal, hend⟩ := Option.bind_eq_some_iff.1 h
  obtain ⟨a, hne, rfl, hlast, hhead, hend'⟩ := readEnd_takes hend
  have hnot (c : Char) (hspace : isSpace c = false) (hopen : c ≠ '[') (hclose : c ≠ '>') :
      (a ++ rest).head? ≠ some c := by
    intro hc
    rw [head?_append_of_ne_nil hne _ []] at hc
    obtain h | h | h := hhead c (by simpa using hc)
    · simp [hspace] at h
    · exact hopen h
    · exact hclose h
  split at hexternal
  · next hspace =>
    obtain ⟨x, hx, htakes⟩ := readExternal_takes hexternal (hnot 'S' (by decide) (by decide) (by decide))
      (hnot 'P' (by decide) (by decide) (by decide))
    obtain ⟨space, hall, hcs, hstops⟩ := exists_space cs
    rw [hx] at hcs hstops
    refine ⟨space ++ (x ++ a), by simp [hne], by rw [hcs]; simp, ?_, fun rest' => ?_⟩
    · rw [List.getLast?_append, List.getLast?_append, hlast]
      rfl
    · have heq (tail : List Char) : space ++ (x ++ (a ++ tail)) = space ++ (x ++ a) ++ tail := by simp
      have hne' : x ++ a ≠ [] := by simp [hne]
      have hstops' : Stops isSpace (x ++ (a ++ rest')) := by
        refine hstops.of_head? ?_
        rw [← List.append_assoc, ← List.append_assoc]
        exact head?_append_of_ne_nil hne' _ _
      have hspace' : (space ++ (x ++ (a ++ rest'))).head?.any isSpace := by
        rw [hcs, heq] at hspace
        rw [heq, head?_append_of_ne_nil (by simp [hne]) _ rest]
        exact hspace
      rw [← heq, readKind, if_pos hspace', hstops'.dropWhile_append hall,
        htakes _ (head?_append_of_ne_nil hne _ _)]
      exact hend' rest'
  · next hspace =>
    cases hexternal
    refine ⟨a, hne, rfl, hlast, fun rest' => ?_⟩
    rw [readKind, head?_append_of_ne_nil hne _ rest, if_neg hspace]
    exact hend' rest'

/-- The declaration of a type ends with a bracket, and what follows does not matter to it. -/
theorem read_takes {isAlone : Bool} {tail : List Char}
    (hstrip : strip? "<!DOCTYPE".toList cs = some tail) (h : read isAlone cs = some (d, rest)) :
    ∃ a, cs = a ++ rest ∧ a.getLast? = some '>' ∧ ∀ rest', read isAlone (a ++ rest') = some (d, rest') := by
  rw [read_of_strip? hstrip] at h
  split at h
  · next hspace =>
    obtain ⟨⟨name, tail₁⟩, hname, hkind⟩ := Option.bind_eq_some_iff.1 h
    obtain ⟨a, hne, rfl, hlast, hkind'⟩ := readKind_takes hkind
    obtain ⟨hbody, ⟨c, t, hcons, -⟩, -, htakes⟩ := readQualifiedName_spec hname
    obtain ⟨space, hall, hcs, hstops⟩ := exists_space tail
    rw [hbody] at hcs hstops
    refine ⟨"<!DOCTYPE".toList ++ (space ++ (name.text ++ a)), ?_, ?_, fun rest' => ?_⟩
    · rw [strip?_eq_some.1 hstrip, hcs]
      simp only [List.append_assoc]
    · rw [List.getLast?_append, List.getLast?_append, List.getLast?_append, hlast]
      rfl
    · have hstops' : Stops isSpace (name.text ++ (a ++ rest')) := by
        refine hstops.of_head? ?_
        rw [hcons]
        rfl
      have hspace' : (space ++ (name.text ++ (a ++ rest'))).head?.any isSpace := by
        rw [hcs, hcons] at hspace
        rw [hcons]
        cases space <;> exact hspace
      have hstrip' : strip? "<!DOCTYPE".toList ("<!DOCTYPE".toList ++ (space ++ (name.text ++ a)) ++ rest') =
          some (space ++ (name.text ++ (a ++ rest'))) :=
        strip?_eq_some.2 (by simp only [List.append_assoc])
      rw [read_of_strip? hstrip', if_pos hspace', hstops'.dropWhile_append hall,
        htakes _ (head?_append_of_ne_nil hne _ _)]
      exact hkind' rest'
  · cases h

end Doctype

end Inventory.Xml
