import Inventory.Proofs.Labels
import Inventory.Proofs.Minting
import Inventory.Proofs.Placeholders

/-!
# Sheets of keys

The places for keys in a template are counted in one scan, and the keys are put there in another
one, with other placeholders between them. Both scans come to the same places in the same order: the
place with `n` others in front of it gets the key with index `n`. What else can refuse the sheet is
the same as for labels: placeholders without values, and marks that the filled text has and the
template had not.
-/

namespace Inventory

open Placeholder (Writes)

namespace Template

/-! ## Keys in their places -/

/-- How many places for keys there are among parts. -/
def keyPlaces (ps : List (Part String)) : Nat :=
  ((Part.slots ps).filter (· == nextKey)).length

/-- Parts with keys in their places: the place with `n` others in front of it gets the key with index
`n`, and all other placeholders get nothing. -/
def withKeys (keys : List String) (ps : List (Part String)) :
    List (Part (String × Option String)) :=
  ps.mapIdx fun i p =>
    p.map fun name => (name, if name = nextKey then keys[keyPlaces (ps.take i)]? else none)

/-- A text with escaped keys in their places, and no text in those of other placeholders. -/
def sheet (keys : List String) (cs : List Char) : List (Part (List Char)) :=
  (withKeys keys (Placeholder.parts cs)).map (Part.map fun p => p.2.elim [] Text.escape)

/-- The placeholders that are not for keys, each one once, in order. -/
def others (t : Template) : List String :=
  t.placeholders.filter (· != nextKey)

section Parts

variable {keys : List String} {ps qs : List (Part String)} {name : String}

theorem keyPlaces_char (c : Char) (ps : List (Part String)) :
    keyPlaces (.char c :: ps) = keyPlaces ps := rfl

theorem keyPlaces_key (ps : List (Part String)) :
    keyPlaces (.slot nextKey :: ps) = keyPlaces ps + 1 := by
  rw [keyPlaces, Part.slots, List.filter_cons_of_pos (p := (· == nextKey)) (beq_self_eq_true nextKey),
    List.length_cons]
  rfl

theorem keyPlaces_other (hname : name ≠ nextKey) (ps : List (Part String)) :
    keyPlaces (.slot name :: ps) = keyPlaces ps := by
  rw [keyPlaces, Part.slots, List.filter_cons_of_neg (by simpa using hname)]
  rfl

theorem withKeys_char (c : Char) (ps : List (Part String)) :
    withKeys keys (.char c :: ps) = .char c :: withKeys keys ps := by
  rw [withKeys, List.mapIdx_cons]
  rfl

theorem withKeys_key (ps : List (Part String)) :
    withKeys keys (.slot nextKey :: ps) = .slot (nextKey, keys.head?) :: withKeys keys.tail ps := by
  rw [withKeys, List.mapIdx_cons]
  refine congrArg₂ List.cons ?_ ?_
  · rw [List.head?_eq_getElem?]
    rfl
  · simp only [withKeys, List.take_succ_cons, keyPlaces_key, List.getElem?_tail]

theorem withKeys_other (hname : name ≠ nextKey) (ps : List (Part String)) :
    withKeys keys (.slot name :: ps) = .slot (name, none) :: withKeys keys ps := by
  rw [withKeys, List.mapIdx_cons]
  refine congrArg₂ List.cons ?_ ?_
  · rw [Part.map, if_neg hname]
  · simp only [withKeys, List.take_succ_cons, keyPlaces_other hname]

theorem takeKeys_other (hname : name ≠ nextKey) (keys : List String) (ps : List (Part String)) :
    takeKeys keys (.slot name :: ps) =
      (takeKeys keys ps).map (.slot (name, none) :: ·) := by
  cases keys
  all_goals
    rw [takeKeys, if_neg hname]
    exact (Option.map_eq_bind ..).symm

/-- Parts are characters, places for keys, and other placeholders. -/
@[elab_as_elim]
theorem parts_induction {motive : List (Part String) → Prop} (nil : motive [])
    (char : ∀ c ps, motive ps → motive (.char c :: ps))
    (key : ∀ ps, motive ps → motive (.slot nextKey :: ps))
    (other : ∀ name ps, name ≠ nextKey → motive ps → motive (.slot name :: ps))
    (ps : List (Part String)) : motive ps := by
  induction ps with
  | nil => exact nil
  | cons p ps ih =>
      cases p with
      | char c => exact char c ps ih
      | slot name =>
          by_cases hname : name = nextKey
          · exact hname ▸ key ps ih
          · exact other name ps hname ih

/-- Handing out keys one after another puts each one into its place. -/
theorem takeKeys_eq (keys : List String) (ps : List (Part String)) : takeKeys keys ps =
    if keyPlaces ps ≤ keys.length then some (withKeys keys ps) else none := by
  induction ps using parts_induction generalizing keys with
  | nil => rfl
  | char c ps ih =>
      rw [takeKeys, ih, keyPlaces_char, withKeys_char]
      split <;> rfl
  | key ps ih =>
      rw [keyPlaces_key, withKeys_key]
      cases keys with
      | nil => rfl
      | cons key keys =>
          simp only [takeKeys, ↓reduceIte, ih, List.length_cons, Nat.add_le_add_iff_right]
          split <;> rfl
  | other name ps hname ih =>
      rw [takeKeys_other hname, ih, keyPlaces_other hname, withKeys_other hname]
      split <;> rfl

/-- What follows some parts gets the keys that are left. -/
theorem withKeys_append (ps qs : List (Part String)) : withKeys keys (ps ++ qs) =
    withKeys keys ps ++ withKeys (keys.drop (keyPlaces ps)) qs := by
  induction ps using parts_induction generalizing keys with
  | nil => rfl
  | char c ps ih =>
      rw [List.cons_append, withKeys_char, withKeys_char, ih, keyPlaces_char, List.cons_append]
  | key ps ih =>
      rw [List.cons_append, withKeys_key, withKeys_key, ih, keyPlaces_key, List.drop_tail,
        List.cons_append]
  | other name ps hname ih =>
      rw [List.cons_append, withKeys_other hname, withKeys_other hname, ih, keyPlaces_other hname,
        List.cons_append]

/-- With enough keys, the placeholders without a value are those that are not for keys. -/
theorem filter_slots_withKeys (h : keyPlaces ps ≤ keys.length) :
    (Part.slots (withKeys keys ps)).filter (·.2.isNone) =
      ((Part.slots ps).filter (· != nextKey)).map (·, none) := by
  induction ps using parts_induction generalizing keys with
  | nil => rfl
  | char c ps ih =>
      rw [withKeys_char]
      exact ih h
  | key ps ih =>
      rw [keyPlaces_key] at h
      cases keys with
      | nil => exact absurd h (Nat.not_succ_le_zero _)
      | cons key keys =>
          rw [withKeys_key]
          exact ih (Nat.le_of_succ_le_succ h)
  | other name ps hname ih =>
      rw [keyPlaces_other hname] at h
      rw [withKeys_other hname, Part.slots, Part.slots, List.filter_cons_of_pos (by rfl),
        List.filter_cons_of_pos (by simpa using hname), ih h]
      rfl

end Parts

/-! ## Sheets -/

variable {t : Template} {keys : List String} {strict : Bool}

theorem unbound_withKeys (h : t.slotCount ≤ keys.length) :
    unbound (withKeys keys t.parts) = t.others := by
  rw [others, placeholders, filter_foldl_addNew, unbound, filter_slots_withKeys h, List.foldl_map,
    List.filter_nil]

theorem render_withKeys (keys : List String) (t : Template) :
    render (withKeys keys t.parts) = String.ofList (Part.filled (sheet keys t.text.toList)) := by
  rw [render, Part.filled, sheet, Part.render_map]
  rfl

/-- Too few keys are refused at once. With enough of them the sheet is refused if it is strict and
has other placeholders, or by the check of its text. -/
theorem fillKeys_eq (t : Template) (keys : List String) (strict : Bool) :
    t.fillKeys keys strict =
      if keys.length < t.slotCount then .error (.notEnoughKeys t.name t.slotCount)
      else if strict && !t.others.isEmpty then .error (.unboundPlaceholders t.name t.others)
      else (check t.name (String.ofList (Part.filled (sheet keys t.text.toList)))).map fun _ =>
        ⟨String.ofList (Part.filled (sheet keys t.text.toList)), t.others.map t.blankWarning⟩ := by
  rw [fillKeys, takeKeys_eq]
  by_cases h : t.slotCount ≤ keys.length
  · rw [if_pos (show keyPlaces t.parts ≤ keys.length from h), if_neg (Nat.not_lt.2 h)]
    simp only [finish_eq, unbound_withKeys h, render_withKeys]
  · rw [if_neg (show ¬keyPlaces t.parts ≤ keys.length from h), if_pos (Nat.lt_of_not_le h)]

theorem sheet_of_read? {c : Char} {cs rest : List Char} {name : String}
    (hread : Placeholder.read? (c :: cs) = some (name, rest)) (keys : List String) :
    ∃ v, sheet keys (c :: cs) =
      .slot v :: sheet (if name = nextKey then keys.tail else keys) rest := by
  rw [sheet, Placeholder.parts_of_read? hread]
  by_cases hname : name = nextKey
  · subst hname
    rw [withKeys_key, if_pos rfl]
    exact ⟨_, rfl⟩
  · rw [withKeys_other hname, if_neg hname]
    exact ⟨_, rfl⟩

theorem covers_sheet (keys : List String) (cs : List Char) : Part.Covers (sheet keys cs) cs := by
  induction cs using Placeholder.parts.induct generalizing keys with
  | case1 =>
      rw [sheet, Placeholder.parts]
      exact .nil
  | case2 c cs name rest hread ih =>
      obtain ⟨p, hp, heq⟩ := Placeholder.isPlaceholder_of_read? hread
      obtain ⟨v, hv⟩ := sheet_of_read? hread keys
      rw [hv, heq]
      exact .slot v hp (ih _)
  | case3 c cs hread ih =>
      rw [sheet, Placeholder.parts_of_read?_eq_none hread, withKeys_char]
      exact .char c (ih keys)

theorem isPlain_nextKey : Name.IsPlain nextKey :=
  ⟨'n', ['e', 'x', 't', '_', 'k', 'e', 'y'], rfl, rfl, List.all_eq_true.1 rfl⟩

/-- A placeholder that is written out stands between what is in front of it and what follows. -/
theorem sheet_of_writes {p : List Char} {name : String} (hp : Writes p name)
    (hname : Name.IsPlain name) (keys : List String) (before after : List Char) :
    sheet keys (before ++ (p ++ after)) = sheet keys before ++
      (withKeys (keys.drop (keyPlaces (Placeholder.parts before)))
        (.slot name :: Placeholder.parts after)).map (Part.map fun p => p.2.elim [] Text.escape) := by
  rw [sheet, Placeholder.parts_of_writes hp hname, withKeys_append, List.map_append]
  rfl

theorem sheet_of_other {p : List Char} {name : String} (hp : Writes p name)
    (hname : Name.IsPlain name) (hother : name ≠ nextKey) (keys : List String)
    (before after : List Char) : sheet keys (before ++ (p ++ after)) = sheet keys before ++
      .slot [] :: sheet (keys.drop (keyPlaces (Placeholder.parts before))) after := by
  rw [sheet_of_writes hp hname, withKeys_other hother]
  rfl

/-- The text has a place for a key, with `n` others in front of it. -/
structure IsPlace (text : List Char) (n : Nat) (before p after : List Char) : Prop where
  split : text = before ++ (p ++ after)
  writes : Writes p nextKey
  index : keyPlaces (Placeholder.parts before) = n

section Places

variable {c : Char} {n : Nat} {cs before p after : List Char}

theorem keyPlaces_append (ps qs : List (Part String)) :
    keyPlaces (ps ++ qs) = keyPlaces ps + keyPlaces qs := by
  rw [keyPlaces, Part.slots_append, List.filter_append, List.length_append]
  rfl

theorem IsPlace.lt (h : IsPlace cs n before p after) : n < keyPlaces (Placeholder.parts cs) := by
  rw [h.split, Placeholder.parts_of_writes h.writes isPlain_nextKey, keyPlaces_append, keyPlaces_key,
    h.index]
  omega

/-- The place with `n` others in front of it has the key with index `n`. -/
theorem IsPlace.sheet_eq (h : IsPlace cs n before p after) (keys : List String) :
    sheet keys cs = sheet keys before ++
      .slot (keys[n]?.elim [] Text.escape) :: sheet (keys.drop (n + 1)) after := by
  rw [h.split, sheet_of_writes h.writes isPlain_nextKey, withKeys_key, h.index, List.head?_drop,
    List.tail_drop]
  rfl

theorem IsPlace.cons (h : IsPlace cs n before p after) (hread : Placeholder.read? (c :: cs) = none) :
    IsPlace (c :: cs) n (c :: before) p after where
  split := congrArg (c :: ·) h.split
  writes := h.writes
  index := by
    obtain ⟨_, _, _, -, -, -, hp⟩ := h.writes
    rw [h.split, hp] at hread
    change Placeholder.read? ((c :: before) ++ '{' :: '{' :: _) = none at hread
    rw [Placeholder.read?_append (List.cons_ne_nil c before), Option.map_eq_none_iff] at hread
    rw [Placeholder.parts_of_read?_eq_none hread, keyPlaces_char, h.index]

theorem IsPlace.append {q : List Char} {name : String} (h : IsPlace cs n before p after)
    (hq : Writes q name) (hname : Name.IsPlain name) : IsPlace (q ++ cs)
      (keyPlaces (.slot name :: Placeholder.parts before)) (q ++ before) p after where
  split := by rw [h.split, List.append_assoc]
  writes := h.writes
  index := by
    have hparts := Placeholder.parts_of_writes hq hname [] before
    rw [Placeholder.parts] at hparts
    exact congrArg keyPlaces hparts

/-- All places that are counted are written out in the text. -/
theorem exists_isPlace (h : n < keyPlaces (Placeholder.parts cs)) :
    ∃ before p after, IsPlace cs n before p after := by
  induction cs using Placeholder.parts.induct generalizing n with
  | case1 =>
      rw [Placeholder.parts] at h
      exact absurd h (Nat.not_lt_zero n)
  | case2 c cs name rest hread ih =>
      rw [Placeholder.parts_of_read? hread] at h
      obtain ⟨hname, q, hq, hcs⟩ := Placeholder.exists_writes_of_read? hread
      rw [hcs]
      by_cases hkey : name = nextKey
      · subst hkey
        rw [keyPlaces_key] at h
        cases n with
        | zero => exact ⟨[], q, rest, rfl, hq, by rw [Placeholder.parts]; rfl⟩
        | succ n =>
            obtain ⟨before, p, after, hplace⟩ := ih (Nat.lt_of_succ_lt_succ h)
            have happend := hplace.append hq hname
            rw [keyPlaces_key, hplace.index] at happend
            exact ⟨_, p, after, happend⟩
      · rw [keyPlaces_other hkey] at h
        obtain ⟨before, p, after, hplace⟩ := ih h
        have happend := hplace.append hq hname
        rw [keyPlaces_other hkey, hplace.index] at happend
        exact ⟨_, p, after, happend⟩
  | case3 c cs hread ih =>
      rw [Placeholder.parts_of_read?_eq_none hread, keyPlaces_char] at h
      obtain ⟨before, p, after, hplace⟩ := ih h
      exact ⟨_, p, after, hplace.cons hread⟩

/-- A place behind another one has more places in front of it, since it cannot begin within that. -/
theorem IsPlace.lt_of_append {n' : Nat} {x p' after' : List Char} (hx : x ≠ [])
    (h : IsPlace cs n before p after) (h' : IsPlace cs n' (before ++ x) p' after') : n < n' := by
  have hread := Placeholder.read?_of_writes h.writes isPlain_nextKey after
  have htail : p ++ after = x ++ (p' ++ after') := by
    rw [← List.append_cancel_left_eq before, ← h.split, h'.split, List.append_assoc]
  obtain ⟨_, _, _, -, -, -, hp'⟩ := h'.writes
  rw [htail, hp'] at hread
  change Placeholder.read? (x ++ '{' :: '{' :: _) = _ at hread
  rw [Placeholder.read?_append hx] at hread
  obtain ⟨⟨name, rest⟩, hx, heq⟩ := Option.map_eq_some_iff.1 hread
  cases heq
  obtain ⟨-, q, hq, rfl⟩ := Placeholder.exists_writes_of_read? hx
  rw [← h.index, ← h'.index, Placeholder.parts_of_writes hq isPlain_nextKey, keyPlaces_append,
    keyPlaces_key]
  omega

theorem IsPlace.unique {before' p' after' : List Char} (h : IsPlace cs n before p after)
    (h' : IsPlace cs n before' p' after') : before = before' ∧ p = p' ∧ after = after' := by
  have hsame : before = before' := by
    rcases List.append_eq_append_iff.1 (h.split.symm.trans h'.split) with ⟨x, rfl, -⟩ | ⟨x, rfl, -⟩
    · by_contra hne
      exact absurd (h.lt_of_append (by simpa using hne) h') (Nat.lt_irrefl n)
    · by_contra hne
      exact absurd (h'.lt_of_append (by simpa using hne) h) (Nat.lt_irrefl n)
  subst hsame
  have htail : p ++ after = p' ++ after' :=
    List.append_cancel_left (h.split.symm.trans h'.split)
  have hread := Placeholder.read?_of_writes h.writes isPlain_nextKey after
  rw [htail, Placeholder.read?_of_writes h'.writes isPlain_nextKey] at hread
  cases hread
  exact ⟨rfl, List.append_cancel_right htail, rfl⟩

/-- The places in a text are those that are counted. -/
theorem lt_keyPlaces_iff :
    n < keyPlaces (Placeholder.parts cs) ↔ ∃ before p after, IsPlace cs n before p after :=
  ⟨exists_isPlace, fun ⟨_, _, _, h⟩ => h.lt⟩

end Places

/-! ## Escaped keys -/

/-- Keys of characters that documents may hold fill the text. -/
theorem fills_sheet (hkeys : ∀ key ∈ keys, ∀ c ∈ key.toList, Xml.isChar c) (cs : List Char) :
    Part.Fills (sheet keys cs) cs := by
  refine Part.fills_iff.2 ⟨covers_sheet keys cs, fun v hv => ?_⟩
  obtain ⟨q, hq, heq⟩ := List.mem_map.1 hv
  obtain ⟨i, hi, rfl⟩ := List.mem_mapIdx.1 hq
  cases hpart : (Placeholder.parts cs)[i] with
  | char c =>
      rw [hpart] at heq
      cases heq
  | slot name =>
      rw [hpart] at heq
      cases heq
      dsimp only
      cases hkey : (if name = nextKey then
          keys[keyPlaces ((Placeholder.parts cs).take i)]? else none) with
      | none => exact ⟨[], rfl, nofun⟩
      | some key =>
          rw [Option.ite_none_right_eq_some] at hkey
          exact ⟨key.toList, rfl, hkeys key (List.mem_of_getElem? hkey.2)⟩

end Template

namespace Key

/-- The symbols of keys stand in a document as they are. -/
theorem symbol_plain {c : Char} (h : c ∈ alphabet) : Text.escapeChar c = [c] ∧ Xml.isChar c := by
  have hall : alphabet.all (fun c => decide (Text.escapeChar c = [c] ∧ Xml.isChar c)) = true := by
    decide +kernel
  exact of_decide_eq_true (List.all_eq_true.1 hall c h)

theorem IsWord.escape_eq {k : String} (h : IsWord k) : Text.escape k = k.toList := by
  have hsame : ∀ c ∈ k.toList, Text.escapeChar c = [c] := fun c hc => (symbol_plain (h.2 c hc)).1
  rw [Text.escape, List.flatMap_congr hsame]
  exact List.flatMap_singleton' _

theorem IsWord.isChar {k : String} (h : IsWord k) : ∀ c ∈ k.toList, Xml.isChar c :=
  fun c hc => (symbol_plain (h.2 c hc)).2

end Key

namespace Store

/-- As many keys are minted as are asked for, and all of them are words. -/
theorem exists_minted (s : Session) (count start : Nat) :
    ∃ minted, (nextKeys count start).exec s = (.ok minted, s) ∧ minted.length = count ∧
      ∀ key ∈ minted, Key.IsWord key := by
  obtain ⟨numbers, heq, hsmallest⟩ := unusedKeys_areSmallest s.db count start
  refine ⟨numbers.map Key.ofNat, by rw [exec_nextKeys, heq], ?_, fun key hkey => ?_⟩
  · rw [List.length_map, hsmallest.length]
  · obtain ⟨n, -, rfl⟩ := List.mem_map.1 hkey
    exact Key.isWord_ofNat n

end Store

namespace Template

/-! ## Main result -/

variable {t : Template} {keys : List String} {strict : Bool}

theorem fillKeys_eq_notEnoughKeys_iff :
    t.fillKeys keys strict = .error (.notEnoughKeys t.name t.slotCount) ↔
      keys.length < t.slotCount := by
  rw [fillKeys_eq]
  constructor
  · intro h
    by_contra hlt
    rw [if_neg hlt] at h
    split at h
    · cases h
    · unfold check at h
      split at h <;> cases h
  · exact fun h => if_pos h

theorem check_ofList_of_error {name : String} {cs : List Char} {f : Text.CharsetFault}
    (h : Xml.check cs = .error f) : check name (String.ofList cs) = .error (.charset f) := by
  rw [check, String.toList_ofList, h]

/-- Where the template is well-formed, the check of a sheet only says whether the sheet is. -/
theorem fillKeys_of_check (hraw : Xml.check t.text.toList = .ok true) : t.fillKeys keys strict =
    if keys.length < t.slotCount then .error (.notEnoughKeys t.name t.slotCount)
    else if strict && !t.others.isEmpty then .error (.unboundPlaceholders t.name t.others)
    else if Xml.isWellFormed (Part.filled (sheet keys t.text.toList)) then
      .ok ⟨String.ofList (Part.filled (sheet keys t.text.toList)), t.others.map t.blankWarning⟩
    else .error (.templateNotXml t.name) := by
  obtain ⟨isFit, hcheck⟩ := (covers_sheet keys t.text.toList).exists_check_eq_ok hraw
  rw [fillKeys_eq, Xml.isWellFormed, hcheck]
  cases isFit with
  | true =>
      rw [check_ofList_of_true hcheck]
      rfl
  | false =>
      rw [check_ofList_of_false hcheck]
      rfl

/-- With enough keys, a well-formed template is only refused if it is filled strictly and has other
placeholders, or if its sheet is not well-formed. -/
theorem refused_of_enough (hraw : Xml.check t.text.toList = .ok true)
    (henough : t.slotCount ≤ keys.length) {f : Fault} (hf : t.fillKeys keys strict = .error f) :
    f = .unboundPlaceholders t.name t.others ∧ strict = true ∧ t.others ≠ [] ∨
      f = .templateNotXml t.name ∧
        Xml.isWellFormed (Part.filled (sheet keys t.text.toList)) = false := by
  rw [fillKeys_of_check hraw, if_neg (Nat.not_lt.2 henough)] at hf
  split at hf
  · next hothers =>
      cases hf
      rw [Bool.and_eq_true, Bool.not_eq_true', List.isEmpty_eq_false_iff] at hothers
      exact .inl ⟨rfl, hothers⟩
  · split at hf
    · cases hf
    · next hill =>
        cases hf
        exact .inr ⟨rfl, Bool.eq_false_iff.2 hill⟩

/-- Places and keys match one to one. Exactly if there are fewer keys than places, a sheet is refused
for want of keys. The numbers below the count are those of places in front of a place, each of one
place only, and the place with `n` others in front of it has the key with index `n`; other
placeholders are blank. A sheet of a well-formed template is what is given back, unless it is
strict and has other placeholders or is not well-formed any more; it is well-formed where filling
spoils nothing that escaping cannot guard. As many keys as there are places can be minted in every
session, and they stand in their places as they are. -/
theorem keys_in_places (t : Template) :
    (∀ keys strict, t.fillKeys keys strict = .error (.notEnoughKeys t.name t.slotCount) ↔
      keys.length < t.slotCount) ∧
    (∀ n, n < t.slotCount ↔ ∃ before p after, IsPlace t.text.toList n before p after) ∧
    (∀ n before p after before' p' after', IsPlace t.text.toList n before p after →
      IsPlace t.text.toList n before' p' after' → before = before' ∧ p = p' ∧ after = after') ∧
    (∀ keys n before p after, IsPlace t.text.toList n before p after →
      sheet keys t.text.toList = sheet keys before ++
        .slot (keys[n]?.elim [] Text.escape) :: sheet (keys.drop (n + 1)) after) ∧
    (∀ keys name before p after, Writes p name → Name.IsPlain name → name ≠ nextKey →
      t.text.toList = before ++ (p ++ after) → sheet keys t.text.toList = sheet keys before ++
        .slot [] :: sheet (keys.drop (keyPlaces (Placeholder.parts before))) after) ∧
    (Xml.check t.text.toList = .ok true →
      (∀ keys strict, t.fillKeys keys strict =
        if keys.length < t.slotCount then .error (.notEnoughKeys t.name t.slotCount)
        else if strict && !t.others.isEmpty then .error (.unboundPlaceholders t.name t.others)
        else if Xml.isWellFormed (Part.filled (sheet keys t.text.toList)) then
          .ok ⟨String.ofList (Part.filled (sheet keys t.text.toList)),
            t.others.map t.blankWarning⟩
        else .error (.templateNotXml t.name)) ∧
      ∀ keys, (∀ key ∈ keys, ∀ c ∈ key.toList, Xml.isChar c) →
        Part.Bears t.text.toList (sheet keys t.text.toList) →
        Xml.isWellFormed (Part.filled (sheet keys t.text.toList))) ∧
    ∀ (s : Session) (start : Nat), ∃ minted,
      (Store.nextKeys t.slotCount start).exec s = (.ok minted, s) ∧ minted.length = t.slotCount ∧
      (∀ key ∈ minted, ∀ c ∈ key.toList, Xml.isChar c) ∧
      (∀ n before p after, IsPlace t.text.toList n before p after →
        ∃ key, minted[n]? = some key ∧ sheet minted t.text.toList = sheet minted before ++
          .slot key.toList :: sheet (minted.drop (n + 1)) after) ∧
      ∀ strict f, Xml.check t.text.toList = .ok true → t.fillKeys minted strict = .error f →
        f = .unboundPlaceholders t.name t.others ∧ strict = true ∧ t.others ≠ [] ∨
          f = .templateNotXml t.name ∧
            Xml.isWellFormed (Part.filled (sheet minted t.text.toList)) = false := by
  refine ⟨fun keys strict => fillKeys_eq_notEnoughKeys_iff, fun n => lt_keyPlaces_iff,
    fun n before p after before' p' after' hplace => hplace.unique,
    fun keys n before p after hplace => hplace.sheet_eq keys, ?_,
    fun hraw => ⟨fun keys strict => fillKeys_of_check hraw, ?_⟩, fun s start => ?_⟩
  · intro keys name before p after hp hname hother hsplit
    rw [hsplit, sheet_of_other hp hname hother]
  · intro keys hkeys hbears
    rw [Xml.isWellFormed, (fills_sheet hkeys t.text.toList).check hbears hraw]
  · obtain ⟨minted, hexec, hlength, hwords⟩ := Store.exists_minted s t.slotCount start
    refine ⟨minted, hexec, hlength, fun key hkey => (hwords key hkey).isChar,
      fun n before p after hplace => ?_, fun strict f hraw => refused_of_enough hraw hlength.ge⟩
    have hn : n < minted.length := hlength.symm ▸ hplace.lt
    have hverbatim := (hwords minted[n] (List.getElem_mem hn)).escape_eq
    refine ⟨minted[n], List.getElem?_eq_getElem hn, ?_⟩
    rw [hplace.sheet_eq, List.getElem?_eq_getElem hn, Option.elim_some, hverbatim]

/-- The first place has the first key, escaped, and the second place, behind another placeholder,
has the second key. -/
theorem two_keys_placed :
    let t : Template := ⟨"sheet",
      "<b>\x7b\x7bNext_Key\x7d\x7d<i>\x7b\x7bname\x7d\x7d</i>\x7b\x7b next_key \x7d\x7d</b>"⟩
    Xml.check t.text.toList = .ok true ∧ t.fillKeys ["a&b", "-", "spare"] false =
      .ok ⟨"<b>a&amp;b<i></i>-</b>", [t.blankWarning "name"]⟩ := by
  intro t
  have hraw : Xml.check t.text.toList = .ok true := by decide +kernel
  have htext : String.ofList (Part.filled (sheet ["a&b", "-", "spare"] t.text.toList)) =
      "<b>a&amp;b<i></i>-</b>" := by decide +kernel
  have hothers : t.others = ["name"] := by decide +kernel
  obtain ⟨-, -, -, -, -, hwhole, -⟩ := keys_in_places t
  refine ⟨hraw, ?_⟩
  rw [(hwhole hraw).1, if_neg (by decide +kernel), if_neg (by decide +kernel),
    if_pos (by decide +kernel), htext, hothers]
  rfl

/-- A hyphen that is minted spoils the comment at whose end a template has a place for it. Keys of
negative numbers cannot be minted, and where a template that is no document itself lets a key say in
what encoding it is, that encoding may be refused. -/
theorem minted_hyphen_spoils_comment :
    let t : Template := ⟨"sheet", "<b><!--\x7b\x7bnext_key\x7d\x7d--></b>"⟩
    let raw : Template :=
      ⟨"raw", "<?xml version=\"1.0\" encoding=\"\x7b\x7bnext_key\x7d\x7d\"?><b/>"⟩
    let s := Session.fresh Database.empty "2024-01-01 00:00:00"
    Xml.check t.text.toList = .ok true ∧
      (Store.nextKeys t.slotCount 63).exec s = (.ok ["-"], s) ∧
      t.fillKeys ["-"] true = .error (.templateNotXml "sheet") ∧
      (∃ f, (Store.nextKeys t.slotCount (-1)).exec s = (.error f, s) ∧ f.kind = .badValue) ∧
      raw.slotCount = 1 ∧
      ∃ f, raw.fillKeys ["big5"] true = .error f ∧ f.kind = .badValue := by
  intro t raw s
  have hraw : Xml.check t.text.toList = .ok true := by decide +kernel
  have hslots : t.slotCount = 1 := by decide +kernel
  refine ⟨hraw, ?_, ?_, ⟨.about (.int (-1)) (.negativeKeyNumber (-1)), ?_,
    by decide +kernel⟩,
    by decide +kernel, .charset .multibyte, ?_, rfl⟩
  · have hfree : Store.freeKeys s.db 63 1 = ["-"] := by decide +kernel
    have hkeys : Store.unusedKeys s.db 1 63 = ["-"] := by
      rw [Store.unusedKeys, if_neg (by decide)]
      change Store.freeKeys s.db 63 1 ++
        Store.unusedKeys s.db (1 - (Store.freeKeys s.db 63 1).length) 64 = _
      rw [hfree, List.length_singleton, Nat.sub_self, Store.unusedKeys, if_pos rfl]
      rfl
    have hexec := Store.exec_nextKeys s 1 63
    rwa [hkeys, ← hslots] at hexec
  · rw [fillKeys_of_check hraw, if_neg (by decide +kernel), if_neg (by decide +kernel),
      if_neg (by decide +kernel)]
  · rw [hslots]
    rfl
  · have hcheck : Xml.check (Part.filled (sheet ["big5"] raw.text.toList)) = .error .multibyte := by
      decide +kernel
    rw [fillKeys_eq, if_neg (by decide +kernel), if_neg (by decide +kernel),
      check_ofList_of_error hcheck]
    rfl

end Template

end Inventory
