import Inventory.Proofs.Filling
import Inventory.Proofs.Schema

/-!
# Written placeholders

Which texts are placeholders for a name, and that they are found wherever they are written: the
scan of a text takes the first placeholder that fits, but no placeholder that begins earlier can
reach into one that is written out.
-/

namespace Inventory

/-! ## Plain names -/

namespace Name

/-- A letter of ASCII in lower case, or the underscore. -/
def isPlainStart (c : Char) : Bool :=
  c.isLower || c == '_'

/-- A letter of ASCII in lower case, a digit of ASCII, or the underscore. -/
def isPlainPart (c : Char) : Bool :=
  isPlainStart c || c.isDigit

/-- One or more letters in lower case, digits and underscores of ASCII, the first one no digit. -/
def IsPlain (name : String) : Prop :=
  ∃ c rest, name.toList = c :: rest ∧ isPlainStart c ∧ ∀ d ∈ rest, isPlainPart d

variable {c : Char} {cs : List Char}

theorem isUpper_iff : c.isUpper ↔ 65 ≤ c.toNat ∧ c.toNat ≤ 90 := by
  show decide (65 ≤ c.val ∧ c.val ≤ 90) = true ↔ _
  rw [decide_eq_true_eq]
  exact Iff.rfl

theorem isLower_iff : c.isLower ↔ 97 ≤ c.toNat ∧ c.toNat ≤ 122 := by
  show (decide (97 ≤ c.val) && decide (c.val ≤ 122)) = true ↔ _
  rw [Bool.and_eq_true, decide_eq_true_eq, decide_eq_true_eq]
  exact Iff.rfl

theorem isPlainStart_iff :
    isPlainStart c ↔ (97 ≤ c.toNat ∧ c.toNat ≤ 122) ∨ c.toNat = 95 := by
  rw [isPlainStart, Bool.or_eq_true, isLower_iff, beq_iff_eq, ← Char.toNat_inj]
  exact Iff.rfl

theorem isPlainPart_iff : isPlainPart c ↔ isPlainStart c ∨ 48 ≤ c.toNat ∧ c.toNat ≤ 57 := by
  simp only [isPlainPart, Char.isDigit, Bool.or_eq_true, Bool.and_eq_true,
    decide_eq_true_eq, UInt32.le_iff_toNat_le, ge_iff_le]
  exact Iff.rfl

theorem isStart_iff : isStart c ↔
    (65 ≤ c.toNat ∧ c.toNat ≤ 90) ∨ (97 ≤ c.toNat ∧ c.toNat ≤ 122) ∨ c.toNat = 95 := by
  show ((c.isUpper || c.isLower) || c == '_') = true ↔ _
  rw [Bool.or_eq_true, Bool.or_eq_true, isUpper_iff, isLower_iff, beq_iff_eq, ← Char.toNat_inj,
    or_assoc]
  exact Iff.rfl

theorem isPart_iff : isPart c ↔ isStart c ∨ 48 ≤ c.toNat ∧ c.toNat ≤ 57 := by
  simp only [isPart, isStart, Char.isAlphanum, Char.isDigit, Bool.or_eq_true, Bool.and_eq_true,
    decide_eq_true_eq, UInt32.le_iff_toNat_le, ge_iff_le, or_right_comm]
  exact Iff.rfl

theorem toNat_toLower (c : Char) :
    c.toLower.toNat = if 65 ≤ c.toNat ∧ c.toNat ≤ 90 then c.toNat + 32 else c.toNat := by
  unfold Char.toLower
  split
  · next hc =>
      have hle : c.toNat ≤ 90 := UInt32.le_iff_toNat_le.1 hc.2
      have hge : 65 ≤ c.toNat := UInt32.le_iff_toNat_le.1 hc.1
      rw [if_pos ⟨hge, hle⟩]
      show (c.val + 32).toNat = _
      rw [UInt32.toNat_add]
      show (c.toNat + 32) % 2 ^ 32 = _
      omega
  · next hc =>
      rw [if_neg]
      exact fun h => hc ⟨UInt32.le_iff_toNat_le.2 h.1, UInt32.le_iff_toNat_le.2 h.2⟩

theorem isPlainStart_toLower : isPlainStart c.toLower ↔ isStart c := by
  rw [isPlainStart_iff, isStart_iff, toNat_toLower]
  split <;> omega

theorem isPlainPart_toLower : isPlainPart c.toLower ↔ isPart c := by
  rw [isPlainPart_iff, isPart_iff, isPlainStart_toLower, toNat_toLower, isStart_iff]
  split <;> omega

/-- The characters write a name, in any case. -/
def IsWritten (cs : List Char) : Prop :=
  ∃ c rest, cs = c :: rest ∧ isStart c ∧ ∀ d ∈ rest, isPart d

theorem IsWritten.ne_nil {cs : List Char} (h : IsWritten cs) : cs ≠ [] := by
  obtain ⟨c, rest, rfl, -⟩ := h
  exact List.cons_ne_nil c rest

theorem IsWritten.isPart {cs : List Char} (h : IsWritten cs) : ∀ c ∈ cs, isPart c := by
  obtain ⟨c, rest, rfl, hc, hrest⟩ := h
  exact List.forall_mem_cons.2 ⟨isPart_of_isStart hc, hrest⟩

/-- Names in any case are what is plain in lower case. -/
theorem isPlain_map_toLower : IsPlain (String.ofList (cs.map Char.toLower)) ↔ IsWritten cs := by
  rw [IsPlain, String.toList_ofList, IsWritten]
  cases cs with
  | nil => simp
  | cons c rest => simp [isPlainStart_toLower, isPlainPart_toLower]

theorem IsPlain.isWritten {name : String} (h : IsPlain name)
    (hcs : cs.map Char.toLower = name.toList) : IsWritten cs := by
  rw [← isPlain_map_toLower, hcs, String.ofList_toList]
  exact h

end Name

/-! ## Reading a placeholder -/

namespace Placeholder

open Name (IsPlain IsWritten)

variable {cs rest : List Char} {name : String}

/-- The text is a placeholder for the name: in any case, with any white space inside the braces. -/
def Writes (p : List Char) (name : String) : Prop :=
  ∃ before given after, (∀ c ∈ before, Text.isBlank c) ∧ (∀ c ∈ after, Text.isBlank c) ∧
    given.map Char.toLower = name.toList ∧
    p = '{' :: '{' :: (before ++ (given ++ (after ++ ['}', '}'])))

theorem dropWhile_append_cons {p : Char → Bool} {c : Char} (hc : p c = false) (cs rest : List Char) :
    (cs ++ c :: rest).dropWhile p = cs.dropWhile p ++ c :: rest := by
  induction cs with
  | nil => exact List.dropWhile_cons_of_neg (by simp [hc])
  | cons d cs ih =>
      rw [List.cons_append, List.dropWhile_cons, List.dropWhile_cons]
      split
      · exact ih
      · rfl

theorem takeWhile_append_cons {p : Char → Bool} {c : Char} (hc : p c = false) (cs rest : List Char) :
    (cs ++ c :: rest).takeWhile p = cs.takeWhile p := by
  induction cs with
  | nil => exact List.takeWhile_cons_of_neg (by simp [hc])
  | cons d cs ih =>
      rw [List.cons_append, List.takeWhile_cons, List.takeWhile_cons, ih]

/-! ### Texts that go on with braces -/

theorem closed?_append (cs tail : List Char) :
    closed? (cs ++ '{' :: tail) = (closed? cs).map (· ++ '{' :: tail) := by
  have hbrace : Text.isBlank '{' = false := by decide
  rw [closed?, closed?, dropWhile_append_cons hbrace]
  rcases cs.dropWhile Text.isBlank with _ | ⟨c, _ | ⟨d, rest⟩⟩
  · rfl
  · by_cases hc : c = '}' <;> simp [hc]
  · by_cases hc : c = '}' <;> by_cases hd : d = '}' <;> simp [hc, hd]

theorem named?_append (cs tail : List Char) :
    named? (cs ++ '{' :: tail) =
      (named? cs).map fun (name, rest) => (name, rest ++ '{' :: tail) := by
  have hblank : Text.isBlank '{' = false := by decide
  have hpart : Name.isPart '{' = false := by decide
  rw [named?, named?, dropWhile_append_cons hblank]
  dsimp only
  cases cs.dropWhile Text.isBlank with
  | nil => rfl
  | cons c body =>
      rw [List.cons_append]
      dsimp only
      split
      · rw [← List.cons_append, dropWhile_append_cons hpart, takeWhile_append_cons hpart,
          closed?_append, Option.map_map, Option.map_map]
        rfl
      · rfl

theorem read?_eq_none {c d : Char} (h : ¬(c = '{' ∧ d = '{')) (rest : List Char) :
    read? (c :: d :: rest) = none := by
  unfold read?
  split
  · next heq =>
      cases heq
      exact absurd ⟨rfl, rfl⟩ h
  · rfl

/-- Whether a placeholder begins in front of opening braces does not depend on what these open. -/
theorem read?_append {cs : List Char} (hcs : cs ≠ []) (tail : List Char) :
    read? (cs ++ '{' :: '{' :: tail) =
      (read? cs).map fun (name, rest) => (name, rest ++ '{' :: '{' :: tail) := by
  rcases cs with _ | ⟨c, _ | ⟨d, rest⟩⟩
  · exact absurd rfl hcs
  · -- The brace in front is an opening one only for what cannot be a name.
    by_cases hc : c = '{'
    · subst hc
      rfl
    · simp [read?, hc]
  · by_cases hc : c = '{' ∧ d = '{'
    · obtain ⟨rfl, rfl⟩ := hc
      show (named? (rest ++ '{' :: '{' :: tail)).map _ = ((named? rest).map _).map _
      rw [named?_append, Option.map_map, Option.map_map]
      rfl
    · rw [read?_eq_none hc]
      exact read?_eq_none hc _

/-- The parts of a text in front of opening braces are its own. -/
theorem parts_append (cs tail : List Char) :
    parts (cs ++ '{' :: '{' :: tail) = parts cs ++ parts ('{' :: '{' :: tail) := by
  induction cs using parts.induct with
  | case1 => simp [parts]
  | case2 c cs name rest hread ih =>
      have happend := read?_append (List.cons_ne_nil c cs) tail
      rw [hread] at happend
      rw [parts_of_read? hread, List.cons_append, List.cons_append, ← ih]
      exact parts_of_read? happend
  | case3 c cs hread ih =>
      have happend := read?_append (List.cons_ne_nil c cs) tail
      rw [hread] at happend
      rw [parts_of_read?_eq_none hread, List.cons_append, List.cons_append, ← ih]
      exact parts_of_read?_eq_none happend

/-! ### What is written is read -/

theorem closed?_of_blanks {blanks : List Char} (h : ∀ c ∈ blanks, Text.isBlank c)
    (rest : List Char) : closed? (blanks ++ '}' :: '}' :: rest) = some rest := by
  rw [closed?, List.dropWhile_append_of_pos h, List.dropWhile_cons_of_neg (by decide)]
  rfl

theorem not_isPart_of_isBlank {c : Char} (h : Text.isBlank c) : Name.isPart c = false := by
  rw [Bool.eq_false_iff]
  intro hpart
  rw [Name.isPart_iff, Name.isStart_iff] at hpart
  simp only [Text.isBlank, Bool.or_eq_true, Bool.and_eq_true, decide_eq_true_eq, beq_iff_eq] at h
  omega

/-- Behind a name there is either nothing or something that does not go on with it. -/
def EndsName (cs : List Char) : Prop :=
  ∀ c ∈ cs.head?, Name.isPart c = false

theorem endsName_of_blanks {blanks : List Char} (h : ∀ c ∈ blanks, Text.isBlank c)
    (hcs : EndsName cs) : EndsName (blanks ++ cs) := by
  cases blanks with
  | nil => exact hcs
  | cons c blanks =>
      rintro d ⟨⟩
      exact not_isPart_of_isBlank (h c (List.mem_cons_self ..))

/-- After white space a name is found as far as it goes. -/
theorem spans_of_parts {before given : List Char} (hbefore : ∀ c ∈ before, Text.isBlank c)
    (hne : given ≠ []) (hparts : ∀ c ∈ given, Name.isPart c) (hcs : EndsName cs) :
    (before ++ (given ++ cs)).dropWhile Text.isBlank = given ++ cs ∧
      (given ++ cs).takeWhile Name.isPart = given ∧ (given ++ cs).dropWhile Name.isPart = cs := by
  refine ⟨?_, ?_, ?_⟩
  · rw [List.dropWhile_append_of_pos hbefore]
    obtain ⟨c, others, rfl⟩ := List.exists_cons_of_ne_nil hne
    have hblank : ¬Text.isBlank c := fun hblank =>
      Bool.eq_false_iff.1 (not_isPart_of_isBlank hblank) (hparts c (List.mem_cons_self ..))
    exact List.dropWhile_cons_of_neg hblank
  · rw [List.takeWhile_append_of_pos hparts]
    cases cs with
    | nil => exact List.append_nil _
    | cons d cs =>
        rw [List.takeWhile_cons_of_neg (Bool.eq_false_iff.1 (hcs d rfl)), List.append_nil]
  · rw [List.dropWhile_append_of_pos hparts]
    cases cs with
    | nil => rfl
    | cons d cs => exact List.dropWhile_cons_of_neg (Bool.eq_false_iff.1 (hcs d rfl))

theorem named?_of_written {before given : List Char} (hbefore : ∀ c ∈ before, Text.isBlank c)
    (hgiven : IsWritten given) (hcs : EndsName cs) :
    named? (before ++ (given ++ cs)) = (closed? cs).map (given, ·) := by
  obtain ⟨hblank, htake, hdrop⟩ := spans_of_parts hbefore hgiven.ne_nil hgiven.isPart hcs
  obtain ⟨c, others, rfl, hc, -⟩ := hgiven
  rw [List.cons_append] at hblank htake hdrop
  rw [named?, List.cons_append, hblank]
  dsimp only
  rw [if_pos hc, htake, hdrop]

theorem read?_of_writes {p : List Char} (hp : Writes p name) (hname : IsPlain name)
    (rest : List Char) : read? (p ++ rest) = some (name, rest) := by
  obtain ⟨before, given, after, hbefore, hafter, hgiven, rfl⟩ := hp
  have hends : EndsName (after ++ '}' :: '}' :: rest) :=
    endsName_of_blanks hafter (by rintro c ⟨⟩; decide)
  have hp : '{' :: '{' :: (before ++ (given ++ (after ++ ['}', '}']))) ++ rest =
      '{' :: '{' :: (before ++ (given ++ (after ++ '}' :: '}' :: rest))) := by
    simp
  rw [hp, read?, named?_of_written hbefore (hname.isWritten hgiven) hends,
    closed?_of_blanks hafter, Option.map_some, Option.map_some]
  dsimp only
  rw [hgiven, String.ofList_toList]

/-- A placeholder that is written out is found, whatever stands around it. -/
theorem parts_of_writes {p : List Char} (hp : Writes p name) (hname : IsPlain name)
    (before after : List Char) :
    parts (before ++ (p ++ after)) = parts before ++ .slot name :: parts after := by
  have hread := read?_of_writes hp hname after
  obtain ⟨_, _, _, -, -, -, rfl⟩ := hp
  rw [List.cons_append, List.cons_append, parts_append]
  exact congrArg (parts before ++ ·) (parts_of_read? hread)

/-! ### What is read was written -/

/-- What is named begins with a name in any case, white space around it, and closing braces. -/
theorem exists_of_named? {given : List Char} (h : named? cs = some (given, rest)) :
    IsWritten given ∧ ∃ before after, (∀ c ∈ before, Text.isBlank c) ∧
      (∀ c ∈ after, Text.isBlank c) ∧ cs = before ++ (given ++ (after ++ '}' :: '}' :: rest)) := by
  unfold named? at h
  dsimp only at h
  split at h
  · next c tail hbody =>
      split at h
      · next hc =>
          obtain ⟨behind, hclosed, heq⟩ := Option.map_eq_some_iff.1 h
          cases heq
          unfold closed? at hclosed
          split at hclosed
          · next hbraces =>
              cases hclosed
              let body := cs.dropWhile Text.isBlank
              refine ⟨⟨c, tail.takeWhile Name.isPart, ?_, hc, fun d => List.mem_takeWhile_imp⟩,
                cs.takeWhile Text.isBlank,
                (body.dropWhile Name.isPart).takeWhile Text.isBlank,
                fun d => List.mem_takeWhile_imp, fun d => List.mem_takeWhile_imp, ?_⟩
              · rw [hbody]
                exact List.takeWhile_cons_of_pos (Name.isPart_of_isStart hc)
              · rw [← hbraces, List.takeWhile_append_dropWhile, List.takeWhile_append_dropWhile,
                  List.takeWhile_append_dropWhile]
          · cases hclosed
      · cases h
  · cases h

/-- What is read was written as a placeholder for a plain name. -/
theorem exists_writes_of_read? (h : read? cs = some (name, rest)) :
    IsPlain name ∧ ∃ p, Writes p name ∧ cs = p ++ rest := by
  unfold read? at h
  split at h
  · next body =>
      obtain ⟨⟨given, behind⟩, hnamed, heq⟩ := Option.map_eq_some_iff.1 h
      cases heq
      obtain ⟨hwritten, before, after, hbefore, hafter, rfl⟩ := exists_of_named? hnamed
      refine ⟨Name.isPlain_map_toLower.2 hwritten, _,
        ⟨before, given, after, hbefore, hafter, String.toList_ofList.symm, rfl⟩, ?_⟩
      simp
  · cases h

theorem isPlain_of_mem_slots (h : name ∈ Part.slots (parts cs)) : IsPlain name := by
  induction cs using parts.induct with
  | case1 =>
      rw [parts] at h
      cases h
  | case2 c cs other rest hread ih =>
      rw [parts_of_read? hread] at h
      rcases List.mem_cons.1 h with rfl | h
      · exact (exists_writes_of_read? hread).1
      · exact ih h
  | case3 c cs hread ih =>
      rw [parts_of_read?_eq_none hread] at h
      exact ih h

end Placeholder

end Inventory
