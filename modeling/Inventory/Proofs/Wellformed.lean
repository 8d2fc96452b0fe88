import Inventory.Proofs.Document
import Inventory.Proofs.Encoding

/-!
# Filled documents are well-formed

The whole check of a document, on a text and on what it is filled to. What filling may break is
named: marks that it forms, values that the declared encoding does not hold, a declaration of a type
with placeholders in it, and growth by entities.
-/

namespace Inventory

open Xml

namespace Xml

/-- A document in the encoding that it declares, without its declaration. -/
structure Decoded where
  /-- The document stands alone. -/
  isAlone : Bool
  charset : Text.Charset
  /-- The size of what stands in front of the body. -/
  read : Nat
  body : List Char

/-- A document as it is read before anything but its declaration is looked at. -/
def decoded? (text : List Char) : Option Decoded := do
  let (header, rest) ← readHeader ((strip? ['\ufeff'] text).getD text)
  let charset ← (header.encoding.elim (.ok .utf8) charsetOf).toOption
  let body ← charset.read? rest
  return ⟨header.isAlone, charset,
    sizeBy Char.utf8Size (text.take (text.length - rest.length)), body⟩

/-- A text is a well-formed document if it can be decoded, holds no other characters than documents
may, and is read to its end. -/
theorem check_eq_ok_true {text : List Char} : check text = .ok true ↔
    ∃ x, decoded? text = some x ∧ (∀ c ∈ x.body, isChar c) ∧
      skipDocument x.isAlone x.charset.size x.read x.body = some [] := by
  unfold check decoded?
  cases readHeader ((strip? ['\ufeff'] text).getD text) with
  | none => simp
  | some p =>
    obtain ⟨header, rest⟩ := p
    simp only [Option.bind_eq_bind, Option.bind_some, Option.pure_def]
    generalize header.encoding.elim (.ok Text.Charset.utf8) charsetOf = charset
    cases charset with
    | error f => simp [Except.toOption, bind, Except.bind]
    | ok charset =>
      simp only [Except.toOption, bind, Except.bind, Option.bind_some]
      cases charset.read? rest with
      | none => simp [pure, Except.pure]
      | some body => simp [pure, Except.pure]

/-- What a decoded document was decoded from. -/
theorem exists_of_decoded? {text : List Char} {x : Decoded} (h : decoded? text = some x) :
    ∃ header rest, readHeader ((strip? ['\ufeff'] text).getD text) = some (header, rest) ∧
      header.encoding.elim (.ok .utf8) charsetOf = .ok x.charset ∧
      x.charset.read? rest = some x.body ∧ header.isAlone = x.isAlone := by
  obtain ⟨⟨header, rest⟩, hheader, h⟩ := Option.bind_eq_some_iff.1 h
  obtain ⟨charset, hcharset, h⟩ := Option.bind_eq_some_iff.1 h
  obtain ⟨body, hbody, h⟩ := Option.bind_eq_some_iff.1 h
  cases h
  refine ⟨header, rest, hheader, ?_, hbody, rfl⟩
  dsimp only at hcharset ⊢
  cases hencoding : header.encoding.elim (.ok .utf8) charsetOf with
  | error f =>
    rw [hencoding] at hcharset
    cases hcharset
  | ok s =>
    rw [hencoding] at hcharset
    exact congrArg Except.ok (Option.some.inj hcharset)

end Xml

namespace Part

variable {ps cells : List (Part (List Char))} {cs text rest z : List Char}

/-! ## Decoding what is filled -/

/-- What fills a text can be read if the text and all that was put into it can. -/
theorem Fills.exists_readAs {s : Text.Charset} (h : Fills ps cs) (hcs : s.read? cs = some z)
    (hvalues : ∀ v, .slot v ∈ ps → (s.read? v).isSome) : ∃ qs, ReadAs s ps qs := by
  induction h generalizing z with
  | nil => exact ⟨[], .nil⟩
  | char c _ ih =>
    obtain ⟨x, y, hx, hy, rfl⟩ := Text.Charset.read?_cons_eq_some.1 hcs
    obtain ⟨qs, hqs⟩ := ih hy fun v hv => hvalues v (by simp [hv])
    exact ⟨_, hqs.char hx⟩
  | @slot v _ _ _ hv hp _ ih =>
    obtain ⟨x, y, -, hy, rfl⟩ := Text.Charset.read?_append_eq_some.1 hcs
    obtain ⟨qs, hqs⟩ := ih hy fun v hv => hvalues v (by simp [hv])
    obtain ⟨w, hw⟩ := Option.isSome_iff_exists.1 (hvalues v (by simp))
    exact ⟨_, hqs.slot hw⟩

/-- A byte order mark in front is none of what is filled. -/
theorem Covers.dropMark (h : Covers ps cs) (hhead : cs.head? ≠ some '{') : ∃ ps', ps' <:+ ps ∧
    Covers ps' ((strip? ['\ufeff'] cs).getD cs) ∧
      (strip? ['\ufeff'] (filled ps)).getD (filled ps) = filled ps' := by
  cases cs with
  | nil =>
    rw [h.eq_nil]
    exact ⟨[], List.suffix_rfl, .nil, rfl⟩
  | cons c cs =>
    obtain ⟨ps₁, rfl, h₁⟩ := h.exists_cons fun hc => hhead (by rw [hc]; rfl)
    by_cases hc : c = '\ufeff'
    · subst hc
      have hstrip (cs : List Char) : strip? ['\ufeff'] ('\ufeff' :: cs) = some cs :=
        strip?_eq_some.2 rfl
      rw [filled_char, hstrip, hstrip]
      exact ⟨ps₁, List.suffix_cons _ _, h₁, rfl⟩
    · have hstrip (cs : List Char) : strip? ['\ufeff'] (c :: cs) = none := by
        simp [strip?, Ne.symm hc]
      rw [filled_char, hstrip, hstrip]
      exact ⟨_, List.suffix_rfl, h, rfl⟩

/-- Without a declared encoding the body is what was written, and it begins as documents do. -/
theorem beginsWell_of_encoding_eq_none {header : Header} {charset : Text.Charset} {isAlone : Bool}
    {size : Char → Nat} {read : Nat} {body : List Char}
    (hcharset : header.encoding.elim (.ok .utf8) charsetOf = .ok charset)
    (hbody : charset.read? rest = some body)
    (hdocument : Xml.skipDocument isAlone size read body = some [])
    (hnone : header.encoding = none) : BeginsWell rest := by
  rw [hnone] at hcharset
  cases hcharset
  cases hbody
  exact beginsWell_of_skipDocument hdocument

/-- What covers a document covers its declaration literally, and the rest with what is left. -/
theorem Covers.readHeader_dropMark {header : Header} (h : Covers cells text)
    (hheader : Xml.readHeader ((strip? ['\ufeff'] text).getD text) = some (header, rest))
    (hbegins : header.encoding = none → BeginsWell rest) :
    ∃ ps, ps <:+ cells ∧ Covers ps rest ∧
      Xml.readHeader ((strip? ['\ufeff'] (filled cells)).getD (filled cells)) =
        some (header, filled ps) := by
  have hhead : text.head? ≠ some '{' := by
    intro hbrace
    obtain ⟨tail, rfl⟩ := List.head?_eq_some_iff.1 hbrace
    have hplain : Xml.readHeader ((strip? ['\ufeff'] ('{' :: tail)).getD ('{' :: tail)) =
        some (⟨none, false⟩, '{' :: tail) := rfl
    rw [hplain] at hheader
    cases hheader
    exact (hbegins rfl).1 rfl
  obtain ⟨ps₁, hsuffix₁, h₁, hmark⟩ := h.dropMark hhead
  obtain ⟨ps₂, hsuffix₂, h₂, hheader'⟩ := h₁.readHeader hheader hbegins
  exact ⟨ps₂, hsuffix₂.trans hsuffix₁, h₂, hmark ▸ hheader'⟩

/-- A document that can be decoded can be decoded when it is filled, and then its parts are what is
read of the parts. -/
theorem Fills.decoded {x : Decoded} (hk : Kept cells) (h : Fills cells text)
    (hx : decoded? text = some x)
    (hdocument : Xml.skipDocument x.isAlone x.charset.size x.read x.body = some [])
    (hvalues : ∀ v, .slot v ∈ cells → (x.charset.read? v).isSome) :
    ∃ read qs, Kept qs ∧ Fills qs x.body ∧
      decoded? (filled cells) = some { x with read, body := filled qs } := by
  obtain ⟨header, rest, hheader, hcharset, hbody, halone⟩ := exists_of_decoded? hx
  have hextends : x.charset.Extends := by
    cases hencoding : header.encoding with
    | none =>
      rw [hencoding, Option.elim_none] at hcharset
      exact Except.ok.inj hcharset ▸ Text.Charset.extends_utf8
    | some name =>
      rw [hencoding, Option.elim_some] at hcharset
      exact Text.Charset.charsetOf_extends hcharset
  obtain ⟨ps, hsuffix, hcovers, hheader'⟩ := h.covers.readHeader_dropMark hheader
    (beginsWell_of_encoding_eq_none hcharset hbody hdocument)
  have hrest := h.of_suffix hsuffix hcovers
  obtain ⟨qs, hqs⟩ := hrest.exists_readAs hbody fun v hv => hvalues v (hsuffix.subset hv)
  refine ⟨sizeBy Char.utf8Size ((filled cells).take ((filled cells).length - (filled ps).length)), qs,
    (hk.of_suffix hsuffix).readAs hextends hqs, hrest.readAs hextends hbody hqs, ?_⟩
  simp only [decoded?, hheader', hcharset, hqs.filled, halone, Except.toOption, Option.bind_eq_bind,
    Option.bind_some, Option.pure_def]

/-- The encoding that a well-formed document declares stays declared, so that the check of what
covers it can only say whether that is well-formed. -/
theorem Covers.exists_check_eq_ok (h : Covers cells text) (hraw : Xml.check text = .ok true) :
    ∃ isFit, Xml.check (filled cells) = .ok isFit := by
  obtain ⟨x, hx, -, hdocument⟩ := check_eq_ok_true.1 hraw
  obtain ⟨header, rest, hheader, hcharset, hbody, -⟩ := exists_of_decoded? hx
  obtain ⟨ps, -, -, hheader'⟩ := h.readHeader_dropMark hheader
    (beginsWell_of_encoding_eq_none hcharset hbody hdocument)
  simp only [Xml.check, hheader', hcharset, bind, Except.bind]
  cases x.charset.read? (filled ps) with
  | none => exact ⟨false, rfl⟩
  | some body => exact ⟨_, rfl⟩

/-- What must not happen when a text is filled. -/
structure Bears (text : List Char) (cells : List (Part (List Char))) : Prop where
  marks : Kept cells
  values : ∀ x, decoded? text = some x → ∀ v, .slot v ∈ cells → (x.charset.read? v).isSome
  type : ∀ x o, decoded? text = some x → opening? x.isAlone x.body = some o →
    ¬ ['{', '{'] <:+: o.typeText
  growth : ∀ x o, decoded? (filled cells) = some x → opening? x.isAlone x.body = some o →
    o.doctype.isGrowthBorne x.charset.size
      (x.read + sizeBy x.charset.size (x.body.take (x.body.length - o.root.length))) o.root

/-- A well-formed document stays one when it is filled. -/
theorem Fills.check (h : Fills cells text) (hb : Bears text cells) (hraw : check text = .ok true) :
    Xml.check (filled cells) = .ok true := by
  obtain ⟨x, hx, hchars, hdocument⟩ := check_eq_ok_true.1 hraw
  obtain ⟨read, qs, hk, hqs, hx'⟩ := h.decoded hb.marks hx hdocument (hb.values x hx)
  refine check_eq_ok_true.2 ⟨_, hx', hqs.isChar_filled hchars, ?_⟩
  exact hqs.skipDocument hk hdocument (hb.type x · hx) fun o ho => hb.growth _ o hx' ho

/-! ## Plain documents -/

/-- Where no type is declared, there are no entities. -/
theorem doctype_of_typeText_eq_nil {isAlone : Bool} {o : Opening} (ho : opening? isAlone cs = some o)
    (htype : o.typeText = []) : o.doctype = .bare isAlone := by
  obtain ⟨body, -, ho⟩ := Option.bind_eq_some_iff.1 ho
  obtain ⟨⟨d, behind⟩, hread, ho⟩ := Option.bind_eq_some_iff.1 ho
  obtain ⟨root, -, ho⟩ := Option.bind_eq_some_iff.1 ho
  cases ho
  dsimp only at htype ⊢
  cases hstrip : strip? "<!DOCTYPE".toList body with
  | none =>
    rw [Doctype.read, hstrip] at hread
    cases hread
    rfl
  | some tail =>
    obtain ⟨a, rfl, hlast, -⟩ := Doctype.read_takes hstrip hread
    rw [take_length_sub] at htype
    rw [htype] at hlast
    cases hlast

/-- In what a document is written, and how its type is declared. -/
def manner? (text : List Char) : Option (Text.Charset × List Char) := do
  let x ← decoded? text
  let o ← opening? x.isAlone x.body
  return (x.charset, o.typeText)

/-- Only marks matter in a document that declares neither another encoding nor a type. -/
theorem Fills.bears_of_plain (h : Fills cells text) (hraw : Xml.check text = .ok true)
    (hk : Kept cells) (hplain : manner? text = some (.utf8, [])) : Bears text cells := by
  obtain ⟨x, hx, -, hdocument⟩ := check_eq_ok_true.1 hraw
  obtain ⟨y, hy, hplain⟩ := Option.bind_eq_some_iff.1 hplain
  cases hx.symm.trans hy
  obtain ⟨o, ho, hplain⟩ := Option.bind_eq_some_iff.1 hplain
  obtain ⟨hcharset, htype⟩ := Prod.mk.inj (Option.some.inj hplain)
  have hread := hdocument
  rw [skipDocument_eq, ho, Option.bind_some] at hread
  have hvalues : ∀ v, .slot v ∈ cells → (x.charset.read? v).isSome := by
    intro v _
    rw [hcharset]
    rfl
  have hbrace : ¬ ['{', '{'] <:+: o.typeText := by
    rw [htype]
    decide
  obtain ⟨read, qs, hkept, hqs, hx'⟩ := h.decoded hk hx hdocument hvalues
  split at hread
  · obtain ⟨behind, hroot, -⟩ := Option.bind_eq_some_iff.1 hread
    obtain ⟨ps', -, -, ho'⟩ := hqs.opening hkept List.suffix_rfl ho hbrace hroot
    refine ⟨hk, fun y hy => ?_, fun y p hy hp => ?_, fun y p hy hp => ?_⟩
    · cases hx.symm.trans hy
      exact hvalues
    · cases hx.symm.trans hy
      cases ho.symm.trans hp
      exact hbrace
    · cases hx'.symm.trans hy
      cases ho'.symm.trans hp
      rw [Doctype.isGrowthBorne, doctype_of_typeText_eq_nil ho htype]
      rfl
  · cases hread

end Part

end Inventory
