import Inventory.Proofs.Content

/-!
# Filled texts in the encoding that they declare

A document is written in one encoding and may declare another, in which it is then read. In all of
them the characters below 128 are ASCII, and what stands beyond ASCII is read as characters beyond
it. So a filled text is read as the text of the template is read, filled with what is read of the
values, and filling forms a mark in the one if it does in the other.
-/

namespace Inventory

namespace Text.Charset

variable {s : Charset} {a b x y z : List Char} {c : Char}

/-! ## What a charset reads -/

theorem read?_nil (s : Charset) : s.read? [] = some [] := by
  cases s <;> rfl

theorem read?_append_eq_some : s.read? (a ++ b) = some z ↔
    ∃ x y, s.read? a = some x ∧ s.read? b = some y ∧ z = x ++ y := by
  have hmapM (f : UInt8 → Option Char) :
      ((a ++ b).flatMap String.utf8EncodeChar).mapM f = some z ↔
        ∃ x y, (a.flatMap String.utf8EncodeChar).mapM f = some x ∧
          (b.flatMap String.utf8EncodeChar).mapM f = some y ∧ z = x ++ y := by
    simp only [List.flatMap_append, List.mapM_append, Option.bind_eq_bind, Option.pure_def,
      Option.bind_eq_some_iff, Option.some.injEq]
    constructor
    · rintro ⟨x, hx, y, hy, rfl⟩
      exact ⟨x, y, hx, hy, rfl⟩
    · rintro ⟨x, y, hx, hy, rfl⟩
      exact ⟨x, hx, y, hy, rfl⟩
  cases s with
  | utf8 => simp [read?, eq_comm]
  | page upper lost => exact hmapM _
  | foreign => exact hmapM _

theorem read?_cons_eq_some : s.read? (c :: a) = some z ↔
    ∃ x y, s.read? [c] = some x ∧ s.read? a = some y ∧ z = x ++ y :=
  read?_append_eq_some (a := [c])

/-- ASCII is read as it is, and everything beyond ASCII as something beyond it. -/
structure Extends (s : Charset) : Prop where
  ascii : ∀ c x, c.toNat < 128 → s.read? [c] = some x → x = [c]
  beyond : ∀ c x, 128 ≤ c.toNat → s.read? [c] = some x →
    x ≠ [] ∧ ∀ d ∈ x, 128 ≤ d.toNat ∧ (Xml.isChar c → Xml.isChar d)

theorem utf8EncodeChar_ascii (h : c.toNat < 128) :
    String.utf8EncodeChar c = [UInt8.ofNat c.toNat] :=
  if_pos (Nat.le_of_lt_succ h)

theorem utf8EncodeChar_beyond (h : 128 ≤ c.toNat) :
    String.utf8EncodeChar c ≠ [] ∧ ∀ byte ∈ String.utf8EncodeChar c, ¬ byte < 128 := by
  have hv : ¬ c.val.toNat ≤ 127 := Nat.not_le.2 h
  unfold String.utf8EncodeChar
  simp only [if_neg hv]
  split
  · simp [UInt8.lt_iff_toNat_lt]
    omega
  · split
    · simp [UInt8.lt_iff_toNat_lt]
      omega
    · simp [UInt8.lt_iff_toNat_lt]
      omega

/-- A character of a page beyond ASCII that a document may hold. -/
def isUpper (c : Char) : Bool :=
  128 ≤ c.toNat && c.toNat ≤ 0xfffd

theorem isChar_of_isUpper (h : isUpper c) : 128 ≤ c.toNat ∧ Xml.isChar c := by
  simp only [isUpper, Bool.and_eq_true, decide_eq_true_eq] at h
  refine ⟨h.1, ?_⟩
  simp only [Xml.isChar, Bool.or_eq_true, Bool.and_eq_true, beq_iff_eq, decide_eq_true_eq]
  omega

theorem mapM_spec {α β : Type} {f : α → Option β} {l : List α} {r : List β}
    (h : l.mapM f = some r) : r.length = l.length ∧ ∀ b ∈ r, ∃ a ∈ l, f a = some b := by
  induction l generalizing r with
  | nil =>
    cases h
    simp
  | cons a l ih =>
    rw [List.mapM_cons] at h
    obtain ⟨b, hb, h⟩ := Option.bind_eq_some_iff.1 h
    obtain ⟨r, hr, h⟩ := Option.bind_eq_some_iff.1 h
    cases h
    obtain ⟨hlength, hmem⟩ := ih hr
    refine ⟨by simp [hlength], List.forall_mem_cons.2 ⟨⟨a, by simp, hb⟩, fun d hd => ?_⟩⟩
    obtain ⟨e, he, heq⟩ := hmem d hd
    exact ⟨e, by simp [he], heq⟩

theorem extends_page {upper : List Char} (lost : List Char) (hupper : ∀ c ∈ upper, isUpper c) :
    (page upper lost).Extends where
  ascii c x hc hx := by
    have hbyte : (UInt8.ofNat c.toNat).toNat = c.toNat :=
      UInt8.toNat_ofNat_of_lt (Nat.lt_of_lt_of_le hc (by decide))
    have hsmall : UInt8.ofNat c.toNat < 128 := by
      rw [UInt8.lt_iff_toNat_lt, hbyte]
      exact hc
    simp only [read?, List.flatMap_singleton, utf8EncodeChar_ascii hc, List.mapM_cons,
      List.mapM_nil, char?, if_pos hsmall, hbyte, Char.ofNat_toNat] at hx
    split at hx
    · cases hx
    · exact (Option.some.inj hx).symm
  beyond c x hc hx := by
    obtain ⟨hne, hbytes⟩ := utf8EncodeChar_beyond hc
    simp only [read?, List.flatMap_singleton] at hx
    obtain ⟨hlength, hmem⟩ := mapM_spec hx
    refine ⟨?_, fun d hd => ?_⟩
    · rintro rfl
      exact hne (List.length_eq_zero_iff.1 hlength.symm)
    · obtain ⟨byte, hbyte, hchar⟩ := hmem d hd
      rw [char?, if_neg (hbytes byte hbyte)] at hchar
      obtain ⟨hget, -⟩ := Option.filter_eq_some_iff.1 hchar
      obtain ⟨hhigh, hchar⟩ := isChar_of_isUpper (hupper d (List.mem_of_getElem? hget))
      exact ⟨hhigh, fun _ => hchar⟩

theorem extends_utf8 : utf8.Extends where
  ascii _ _ _ hx := (Option.some.inj hx).symm
  beyond c _ hc hx := by
    cases hx
    simp [hc]

theorem extends_foreign : foreign.Extends := by
  have hnone (c : Char) : foreign.read? [c] = none := by
    have hne : String.utf8EncodeChar c ≠ [] := by
      rw [← List.length_pos_iff, String.length_utf8EncodeChar]
      exact c.utf8Size_pos
    obtain ⟨byte, bytes, hbytes⟩ := List.exists_cons_of_ne_nil hne
    simp [read?, hbytes, char?]
  constructor
  · intro c x _ hx
    rw [hnone] at hx
    cases hx
  · intro c x _ hx
    rw [hnone] at hx
    cases hx

/-- A text whose characters are of a page beyond ASCII. The kernel takes its literal apart once. -/
theorem all_of_eq_ofList {t : String} (cs : List Char) (ht : t = String.ofList cs)
    (h : cs.all isUpper) : ∀ c ∈ t.toList, isUpper c := by
  rw [ht, String.toList_ofList]
  exact List.all_eq_true.1 h

set_option maxRecDepth 4096 in
theorem isUpper_of_mem_codePages : ∀ p ∈ codePages, ∀ t ∈ p.upper, ∀ c ∈ t.toList, isUpper c := by
  unfold codePages
  simp only [List.forall_mem_cons, List.not_mem_nil, false_imp_iff, implies_true, and_true]
  repeat' apply And.intro
  all_goals exact all_of_eq_ofList _ rfl (by decide +kernel)

theorem named_extends {name : String} (h : named name = .ok s) : s.Extends := by
  unfold named at h
  dsimp only at h
  split at h
  · next p hp =>
    cases h
    refine extends_page [] fun c hc => ?_
    obtain ⟨t, ht, hc⟩ := List.mem_flatMap.1 hc
    exact isUpper_of_mem_codePages p (List.mem_of_find?_eq_some hp) t ht c hc
  · repeat' split at h
    · cases h
      exact extends_page [] (by simp)
    · cases h
      exact extends_page _ (by simp)
    · cases h
      exact extends_foreign
    all_goals cases h

/-- Whatever encoding a document declares, ASCII is read as it is. -/
theorem charsetOf_extends {name : List Char} (h : Xml.charsetOf name = .ok s) : s.Extends := by
  unfold Xml.charsetOf at h
  split at h
  · cases h
    exact extends_utf8
  · cases h
    exact extends_page [] (by simp)
  · cases h
    exact extends_page [] (by decide +kernel)
  · cases h
    exact extends_foreign
  · cases h
    exact extends_foreign
  · cases h
    exact extends_foreign
  · exact named_extends h

/-! ## Escaped texts and placeholders -/

theorem read?_ascii (hs : s.Extends) (ha : ∀ c ∈ a, c.toNat < 128) (h : s.read? a = some x) :
    x = a := by
  induction a generalizing x with
  | nil =>
    rw [read?_nil] at h
    cases h
    rfl
  | cons c a ih =>
    obtain ⟨y, z, hy, hz, rfl⟩ := read?_cons_eq_some.1 h
    rw [hs.ascii c y (ha c (by simp)) hy, ih (fun d hd => ha d (by simp [hd])) hz]
    rfl

/-- Escaping keeps ASCII within ASCII, and leaves what is beyond it as it is. -/
theorem escapeChar_ascii (h : c.toNat < 128) : ∀ d ∈ escapeChar c, d.toNat < 128 := by
  unfold escapeChar
  split
  · decide
  · decide
  · decide
  · decide
  · decide
  · simpa using h

theorem escapeChar_beyond (h : 128 ≤ c.toNat) : escapeChar c = [c] := by
  unfold escapeChar
  split
  · exact absurd h (by decide)
  · exact absurd h (by decide)
  · exact absurd h (by decide)
  · exact absurd h (by decide)
  · exact absurd h (by decide)
  · rfl

/-- An escaped text is read as one. -/
theorem isEscaped_of_read? {v w : List Char} (hs : s.Extends) (hv : IsEscaped v)
    (h : s.read? v = some w) : IsEscaped w := by
  obtain ⟨t, rfl, ht⟩ := hv
  induction t generalizing w with
  | nil =>
    rw [List.flatMap_nil, read?_nil] at h
    cases h
    exact ⟨[], rfl, by simp⟩
  | cons c t ih =>
    rw [List.flatMap_cons] at h
    obtain ⟨x, y, hx, hy, rfl⟩ := read?_append_eq_some.1 h
    obtain ⟨u, rfl, hu⟩ := ih (fun d hd => ht d (by simp [hd])) hy
    obtain hc | hc := Nat.lt_or_ge c.toNat 128
    · rw [read?_ascii hs (escapeChar_ascii hc) hx]
      exact ⟨c :: u, rfl, List.forall_mem_cons.2 ⟨ht c (by simp), hu⟩⟩
    · rw [escapeChar_beyond hc] at hx
      obtain ⟨-, hbeyond⟩ := hs.beyond c x hc hx
      have hsame : x.flatMap escapeChar = x := by
        rw [List.flatMap_congr fun d hd => escapeChar_beyond (hbeyond d hd).1]
        exact List.flatMap_singleton' x
      refine ⟨x ++ u, by rw [List.flatMap_append, hsame], ?_⟩
      exact List.forall_mem_append.2 ⟨fun d hd => (hbeyond d hd).2 (ht c (by simp)), hu⟩

/-- A placeholder is read as one. -/
theorem isPlaceholder_of_read? {p q : List Char} (hs : s.Extends)
    (hp : Placeholder.IsPlaceholder p) (h : s.read? p = some q) : Placeholder.IsPlaceholder q := by
  obtain ⟨inside, rfl, hinside⟩ := hp
  obtain ⟨x, rest, hx, hrest, rfl⟩ := read?_append_eq_some (a := ['{', '{']).1 h
  obtain ⟨y, z, hy, hz, rfl⟩ := read?_append_eq_some.1 hrest
  rw [read?_ascii hs (by decide) hx, read?_ascii hs (by decide) hz]
  refine ⟨y, rfl, ?_⟩
  clear h hrest hx hz
  induction inside generalizing y with
  | nil =>
    rw [read?_nil] at hy
    cases hy
    simp
  | cons c inside ih =>
    obtain ⟨u, v, hu, hv, rfl⟩ := read?_cons_eq_some.1 hy
    refine List.forall_mem_append.2 ⟨fun d hd => ?_, ih (fun e he => hinside e (by simp [he])) v hv⟩
    obtain hc | hc := Nat.lt_or_ge c.toNat 128
    · rw [hs.ascii c u hc hu, List.mem_singleton] at hd
      exact hd ▸ hinside c (by simp)
    · simp [Placeholder.mayHold, ((hs.beyond c u hc hu).2 d hd).1]

end Text.Charset

/-! ## Parts as they are read -/

namespace Part

open Text

variable {s : Charset} {ps qs x y : List (Part (List Char))} {m cs z : List Char}

/-- The parts `qs` are what is read of the parts `ps`. -/
inductive ReadAs (s : Charset) : List (Part (List Char)) → List (Part (List Char)) → Prop
  | nil : ReadAs s [] []
  | char {c : Char} {x : List Char} {ps qs : List (Part (List Char))} (hx : s.read? [c] = some x)
      (h : ReadAs s ps qs) : ReadAs s (.char c :: ps) (literal x ++ qs)
  | slot {v w : List Char} {ps qs : List (Part (List Char))} (hw : s.read? v = some w)
      (h : ReadAs s ps qs) : ReadAs s (.slot v :: ps) (.slot w :: qs)

theorem ReadAs.filled (h : ReadAs s ps qs) : s.read? (filled ps) = some (filled qs) := by
  induction h with
  | nil => exact s.read?_nil
  | char hx _ ih =>
    rw [filled_append, filled_literal]
    exact Charset.read?_cons_eq_some.2 ⟨_, _, hx, ih, rfl⟩
  | slot hw _ ih => exact Charset.read?_append_eq_some.2 ⟨_, _, hw, ih, rfl⟩

theorem exists_readAs (h : s.read? (filled ps) = some z) : ∃ qs, ReadAs s ps qs ∧ filled qs = z := by
  induction ps generalizing z with
  | nil =>
    rw [filled_nil, Charset.read?_nil] at h
    cases h
    exact ⟨[], .nil, rfl⟩
  | cons p ps ih =>
    cases p with
    | char c =>
      obtain ⟨x, y, hx, hy, rfl⟩ := Charset.read?_cons_eq_some.1 h
      obtain ⟨qs, hqs, rfl⟩ := ih hy
      exact ⟨literal x ++ qs, hqs.char hx, by simp⟩
    | slot v =>
      obtain ⟨x, y, hx, hy, rfl⟩ := Charset.read?_append_eq_some.1 h
      obtain ⟨qs, hqs, rfl⟩ := ih hy
      exact ⟨.slot x :: qs, hqs.slot hx, by simp⟩

theorem literal_append (a b : List Char) : literal (a ++ b) = literal a ++ literal b :=
  List.map_append

theorem readAs_literal (h : s.read? cs = some z) : ReadAs s (literal cs) (literal z) := by
  induction cs generalizing z with
  | nil =>
    rw [Charset.read?_nil] at h
    cases h
    exact .nil
  | cons c cs ih =>
    obtain ⟨x, y, hx, hy, rfl⟩ := Charset.read?_cons_eq_some.1 h
    rw [literal_append]
    exact (ih hy).char hx

theorem ReadAs.append {ps' qs' : List (Part (List Char))} (h : ReadAs s ps qs)
    (h' : ReadAs s ps' qs') : ReadAs s (ps ++ ps') (qs ++ qs') := by
  induction h with
  | nil => exact h'
  | char hx _ ih => exact List.append_assoc .. ▸ ih.char hx
  | slot hw _ ih => exact ih.slot hw

theorem ReadAs.exists_of_append {ps' : List (Part (List Char))} (h : ReadAs s (ps ++ ps') qs) :
    ∃ x y, qs = x ++ y ∧ ReadAs s ps x ∧ ReadAs s ps' y := by
  induction ps generalizing qs with
  | nil => exact ⟨[], qs, rfl, .nil, h⟩
  | cons p ps ih =>
    cases h with
    | char hx h =>
      obtain ⟨x, y, rfl, hps, hps'⟩ := ih h
      exact ⟨_, y, (List.append_assoc ..).symm, hps.char hx, hps'⟩
    | slot hw h =>
      obtain ⟨x, y, rfl, hps, hps'⟩ := ih h
      exact ⟨.slot _ :: x, y, rfl, hps.slot hw, hps'⟩

/-- What fills a text fills what is read of it. -/
theorem Fills.readAs (hs : s.Extends) (h : Fills ps cs) (hcs : s.read? cs = some z)
    (hps : ReadAs s ps qs) : Fills qs z := by
  induction h generalizing qs z with
  | nil =>
    cases hps
    rw [Charset.read?_nil] at hcs
    cases hcs
    exact .nil
  | char c _ ih =>
    cases hps with
    | char hx hps =>
      obtain ⟨x, y, hx', hy, rfl⟩ := Charset.read?_cons_eq_some.1 hcs
      rw [hx, Option.some.injEq] at hx'
      subst hx'
      exact (fills_literal _).append (ih hy hps)
  | slot hv hp _ ih =>
    cases hps with
    | slot hw hps =>
      obtain ⟨x, y, hx, hy, rfl⟩ := Charset.read?_append_eq_some.1 hcs
      exact (ih hy hps).slot (Charset.isEscaped_of_read? hs hv hw)
        (Charset.isPlaceholder_of_read? hs hp hx)

/-- Where parts that are read hold a character of ASCII, the parts before hold it. -/
theorem ReadAs.exists_split {c : Char} (hs : s.Extends) (hc : c.toNat < 128)
    (h : ReadAs s ps (x ++ .char c :: y)) :
    ∃ px py, ps = px ++ .char c :: py ∧ ReadAs s px x ∧ s.read? [c] = some [c] ∧ ReadAs s py y := by
  generalize hqs : x ++ .char c :: y = qs at h
  induction h generalizing x with
  | nil => simp at hqs
  | @char d z ps qs hz h ih =>
    obtain ⟨t, hz', ht⟩ | ⟨t, rfl, ht⟩ := List.append_eq_append_iff.1 hqs
    · cases t with
      | nil =>
        obtain ⟨px, py, rfl, hpx, hread, hpy⟩ := ih (x := []) ht
        exact ⟨.char d :: px, py, rfl, by simpa [hz'] using hpx.char hz, hread, hpy⟩
      | cons p t =>
        -- the character stands in what is read of one character, which is then the same
        obtain ⟨rfl, rfl⟩ := List.cons.inj ht
        obtain ⟨u, v, rfl, rfl, hv⟩ := List.map_eq_append_iff.1 hz'
        obtain ⟨e, v, rfl, he, rfl⟩ := List.map_eq_cons_iff.1 hv
        cases he
        obtain hd | hd := Nat.lt_or_ge d.toNat 128
        · obtain ⟨rfl, hv⟩ := List.append_eq_singleton_iff.1 (hs.ascii d _ hd hz) |>.resolve_right (by simp)
          cases hv
          exact ⟨[], ps, rfl, .nil, hz, h⟩
        · have hhigh := ((hs.beyond d _ hd hz).2 c (by simp)).1
          omega
    · obtain ⟨px, py, rfl, hpx, hread, hpy⟩ := ih ht.symm
      exact ⟨.char d :: px, py, rfl, hpx.char hz, hread, hpy⟩
  | slot hw h ih =>
    cases x with
    | nil => cases hqs
    | cons p x =>
      cases hqs
      obtain ⟨px, py, rfl, hpx, hread, hpy⟩ := ih rfl
      exact ⟨.slot _ :: px, py, rfl, hpx.slot hw, hread, hpy⟩

theorem ReadAs.eq_nil (hs : s.Extends) (h : ReadAs s ps []) : ps = [] := by
  generalize hqs : ([] : List (Part (List Char))) = qs at h
  cases h with
  | nil => rfl
  | @char c x _ _ hx =>
    have hx' : x = [] := by
      cases x with
      | nil => rfl
      | cons => cases hqs
    subst hx'
    obtain hc | hc := Nat.lt_or_ge c.toNat 128
    · cases hs.ascii c [] hc hx
    · exact absurd rfl (hs.beyond c [] hc hx).1
  | slot => cases hqs

theorem ReadAs.exists_split_literal (hs : s.Extends) (hm : ∀ c ∈ m, c.toNat < 128) (hne : m ≠ [])
    (h : ReadAs s ps (x ++ (literal m ++ y))) : ∃ px py, ps = px ++ (literal m ++ py) ∧
      ReadAs s px x ∧ s.read? m = some m ∧ ReadAs s py y := by
  induction m generalizing ps x with
  | nil => exact absurd rfl hne
  | cons c m ih =>
    obtain ⟨px, py, rfl, hpx, hread, hpy⟩ := h.exists_split hs (hm c (by simp))
    by_cases hnil : m = []
    · subst hnil
      exact ⟨px, py, rfl, hpx, hread, hpy⟩
    · obtain ⟨pn, py, rfl, hpn, hread', hpy⟩ :=
        ih (fun d hd => hm d (by simp [hd])) hnil (x := []) hpy
      rw [hpn.eq_nil hs]
      exact ⟨px, py, rfl, hpx, Charset.read?_cons_eq_some.2 ⟨_, _, hread, hread', rfl⟩, hpy⟩

theorem ReadAs.eq_literal (hs : s.Extends) (hm : ∀ c ∈ m, c.toNat < 128)
    (h : ReadAs s (literal m) qs) : qs = literal m := by
  induction m generalizing qs with
  | nil =>
    cases h
    rfl
  | cons c m ih =>
    cases h with
    | char hx h =>
      rw [hs.ascii c _ (hm c (by simp)) hx, ih (fun d hd => hm d (by simp [hd])) h]
      rfl

/-! ## Marks in what is read -/

section Marks

variable (hs : s.Extends) (hm : ∀ c ∈ m, c.toNat < 128) (hne : m ≠ [])

include hs hm

theorem ReadAs.literal_infix (h : ReadAs s ps qs) (hin : literal m <:+: ps) : literal m <:+: qs := by
  obtain ⟨u, t, rfl⟩ := hin
  obtain ⟨x, y, rfl, hx, -⟩ := h.exists_of_append
  obtain ⟨u', m', rfl, -, hm'⟩ := hx.exists_of_append
  rw [hm'.eq_literal hs hm]
  exact ⟨u', y, rfl⟩

theorem ReadAs.literal_suffix (h : ReadAs s ps qs) (hend : literal m <:+ ps) : literal m <:+ qs := by
  obtain ⟨u, rfl⟩ := hend
  obtain ⟨u', m', rfl, -, hm'⟩ := h.exists_of_append
  rw [hm'.eq_literal hs hm]
  exact ⟨u', rfl⟩

include hne

/-- A mark is in a text if it is in what is read of it. -/
theorem infix_of_read? (h : s.read? cs = some z) (hin : m <:+: z) : m <:+: cs := by
  obtain ⟨u, t, hz⟩ := hin.map Part.char
  have hread := readAs_literal h
  rw [show literal z = u ++ (literal m ++ t) from hz.symm.trans (List.append_assoc ..)] at hread
  obtain ⟨pu, pt, heq, -⟩ := hread.exists_split_literal hs hm hne
  exact (fills_literal cs).infix_of_literal ⟨pu, pt, by rw [heq, List.append_assoc]⟩

theorem suffix_of_read? (h : s.read? cs = some z) (hend : m <:+ z) : m <:+ cs := by
  obtain ⟨u, rfl⟩ := hend
  have hread : ReadAs s (literal cs) (literal u ++ (literal m ++ [])) := by
    rw [List.append_nil, ← literal_append]
    exact readAs_literal h
  obtain ⟨pu, pt, heq, -, -, hpt⟩ := hread.exists_split_literal hs hm hne
  rw [hpt.eq_nil hs, List.append_nil] at heq
  refine ⟨filled pu, ?_⟩
  rw [← filled_literal cs, heq, filled_append, filled_literal]

end Marks

/-- What stands between two marks in the parts that are read is read of what stands between them. -/
theorem ReadAs.exists_between {m' : List Char} {inside : List (Part (List Char))} (hs : s.Extends)
    (hm : m ≠ [] ∧ ∀ c ∈ m, c.toNat < 128) (hm' : m' ≠ [] ∧ ∀ c ∈ m', c.toNat < 128)
    (h : ReadAs s ps qs) (hin : literal m ++ inside ++ literal m' <:+: qs) :
    ∃ pi, literal m ++ pi ++ literal m' <:+: ps ∧ ReadAs s pi inside ∧ s.read? m' = some m' := by
  obtain ⟨u, t, rfl⟩ := hin
  simp only [List.append_assoc] at h
  obtain ⟨pu, p₁, rfl, -, -, h₁⟩ := h.exists_split_literal hs hm.2 hm.1
  obtain ⟨pi, pt, rfl, hpi, hread, -⟩ := h₁.exists_split_literal hs hm'.2 hm'.1
  exact ⟨pi, ⟨pu, pt, by simp⟩, hpi, hread⟩

/-- Filling forms no marks in what is read if it forms none. -/
theorem Kept.readAs (hs : s.Extends) (hk : Kept ps) (h : ReadAs s ps qs) : Kept qs where
  comments inside hin hnone := by
    obtain ⟨pi, hpi, hinside, hclose⟩ := h.exists_between hs (by decide) (by decide) hin
    obtain ⟨x, y, hx, -⟩ := Charset.read?_cons_eq_some.1 hclose
    have hhyphen : s.read? ['-'] = some ['-'] := hs.ascii '-' x (by decide) hx ▸ hx
    have hread := hinside.append (readAs_literal hhyphen)
    have hfilled := hread.filled
    rw [filled_append, filled_append, filled_literal] at hfilled
    have hkept := hk.comments pi hpi fun hin' => hnone (hread.literal_infix hs (by decide) hin')
    exact fun hin' => hkept (infix_of_read? hs (by decide) (by decide) hfilled hin')
  instructions inside hin hnone := by
    obtain ⟨pi, hpi, hinside, -⟩ := h.exists_between hs (by decide) (by decide) hin
    have hkept := hk.instructions pi hpi fun hin' => hnone (hinside.literal_infix hs (by decide) hin')
    exact fun hin' => hkept (infix_of_read? hs (by decide) (by decide) hinside.filled hin')
  ends inside hin hend := by
    obtain ⟨u, t, rfl⟩ := hin
    have h' : ReadAs s ps (u ++ inside ++ .char '>' :: t) := by simpa using h
    obtain ⟨px, py, rfl, hpx, -⟩ := h'.exists_split hs (by decide)
    have hends : "]]".toList <:+ filled px := by
      refine suffix_of_read? hs (by decide) (by decide) hpx.filled ?_
      rw [filled_append]
      exact hend.trans (List.suffix_append _ _)
    have hliteral := hpx.literal_suffix hs (by decide)
      (hk.ends px ⟨[], py, by simp⟩ hends)
    refine List.suffix_of_suffix_length_le hliteral (List.suffix_append _ _) ?_
    match inside, hend with
    | [], hend => exact absurd hend.length_le (by decide)
    | [p], hend =>
      obtain ⟨q, hq⟩ := hliteral
      have hp : p = .char ']' := by
        have hlast := congrArg List.getLast? hq
        simpa [literal] using hlast.symm
      rw [hp] at hend
      exact absurd hend.length_le (by decide)
    | _ :: _ :: _, _ => simp [literal]

end Part

end Inventory
