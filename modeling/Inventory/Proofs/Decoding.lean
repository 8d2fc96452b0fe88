import Inventory.Json
import Inventory.Proofs.Mapping
import Inventory.Proofs.Writing

/-!
# Decoded documents

Digits in a document are read as the number that they write. Whatever a document holds, every whole
number in it can be written again: a longer one would not have been read.
-/

namespace Inventory

/-- What is read as a whole number can be written. -/
theorem Numeral.isWritable_of_read {s : String} {n : Int} (h : read s = .ok n) : isWritable n := by
  unfold read at h
  split at h
  · cases h
  · next negative body heq =>
    dsimp only at h
    split at h
    · cases h
    · next hdigits =>
      split at h
      · cases h
      · next hshort =>
        have hall : (body.filter (· != '_')).all Char.isDigit := by
          by_contra hnot
          exact hdigits (by simp [hnot])
        have hlt := (ofDigits_lt (List.all_eq_true.1 hall)).trans_le
          (Nat.pow_le_pow_right (by decide) (Nat.not_lt.1 hshort))
        cases h
        rw [isWritable_iff]
        split
        · rwa [Int.natAbs_neg, Int.natAbs_natCast]
        · rwa [Int.natAbs_natCast]

namespace Value

theorem allWritable_iff (vs : List Value) : allWritable vs ↔ ∀ v ∈ vs, v.isWritable := by
  induction vs with
  | nil => simp [allWritable]
  | cons v rest ih => simp [allWritable, ih]

theorem pairsWritable_iff (ps : Mapping Value) : pairsWritable ps ↔ ∀ p ∈ ps, p.2.isWritable := by
  induction ps with
  | nil => simp [pairsWritable]
  | cons p rest ih => simp [pairsWritable, ih]

end Value

namespace Json

variable {cs rest : List Char} {v : Value}

/-- Digits that nothing of a number follows are a whole number. -/
theorem number?_digits {d : Char} {ds : List Char} (hd : d.isDigit) (hzero : d ≠ '0')
    (hds : ∀ c ∈ ds, c.isDigit) (hshort : (d :: ds).length ≤ Numeral.digitLimit)
    (hrest : ∀ c, rest.head? = some c → c.isDigit = false ∧ c ∉ ['.', 'e', 'E']) :
    number? (d :: (ds ++ rest)) = some (.int (Numeral.ofDigits (d :: ds)), rest) := by
  have hdigits : ∀ c ∈ d :: ds, c.isDigit := List.forall_mem_cons.2 ⟨hd, hds⟩
  have hstops : Xml.Stops Char.isDigit rest := fun c hc => (hrest c hc).1
  have hminus : d ≠ '-' := (Numeral.apart_of_isDigit hd).2.1
  have hwhole : wholePart? (d :: (ds ++ rest)) = some (d :: ds, rest) := by
    have htake := hstops.takeWhile_append hdigits
    have hdrop := hstops.dropWhile_append hdigits
    rw [List.cons_append] at htake hdrop
    unfold wholePart?
    split
    · next heq => exact absurd (List.cons.inj heq).1 hzero
    · rw [htake, hdrop]
      rfl
  have hfraction : fraction rest = ([], rest) := by
    unfold fraction
    split
    · exact absurd (hrest '.' rfl).2 (by decide)
    · rfl
  have hexponent : exponent rest = ([], rest) := by
    unfold exponent
    split
    · next e more =>
      have he := (hrest e rfl).2
      rw [if_neg]
      rintro (rfl | rfl) <;> exact he (by decide)
    · rfl
  have hread := Numeral.read_signed hdigits (List.cons_ne_nil d ds) hshort false
  simp only [Bool.false_eq_true, if_false, List.nil_append] at hread
  unfold number?
  split
  next sign tail hsign =>
  split at hsign
  · next heq => exact absurd (List.cons.inj heq).1 hminus
  · cases hsign
    simp only [hwhole, hfraction, hexponent, Option.bind_eq_bind, Option.bind_some,
      List.nil_append, List.append_nil, List.isEmpty_nil, Bool.and_self, if_true, hread]

theorem isWritable_number? (h : number? cs = some (v, rest)) : v.isWritable := by
  simp only [number?, Option.bind_eq_bind, Option.bind_eq_some_iff] at h
  obtain ⟨⟨whole, afterWhole⟩, -, h⟩ := h
  dsimp only at h
  split at h
  · split at h
    · next n hread =>
      cases h
      exact Numeral.isWritable_of_read hread
    · cases h
  · obtain ⟨x, -, hx⟩ := Option.map_eq_some_iff.1 h
    cases hx
    rfl

theorem isWritable_word? (h : word? cs = some (v, rest)) : v.isWritable := by
  obtain ⟨p, hp, hv⟩ := List.exists_of_findSome?_eq_some h
  obtain ⟨tail, -, heq⟩ := Option.map_eq_some_iff.1 hv
  cases heq
  exact List.all_eq_true.1 (show words.all (·.2.isWritable) from rfl) p hp

theorem mem_ofPairs {ps : List (String × Value)} {p : String × Value}
    (h : p ∈ Mapping.ofPairs ps) : p ∈ ps :=
  (Mapping.mem_update ps [] h).resolve_left (by simp)

section Steps

variable {fuel : Nat} {vs : List Value} {ps : List (String × Value)}

theorem isWritable_value?
    (hitems : ∀ cs vs rest, items? fuel cs = some (vs, rest) → ∀ v ∈ vs, v.isWritable)
    (hpairs : ∀ cs ps rest, pairs? fuel cs = some (ps, rest) → ∀ p ∈ ps, p.2.isWritable)
    (h : value? (fuel + 1) cs = some (v, rest)) : v.isWritable := by
  unfold value? at h
  split at h
  · obtain ⟨x, -, hx⟩ := Option.map_eq_some_iff.1 h
    cases hx
    rfl
  · split at h
    · cases h
      rfl
    · obtain ⟨x, hx, heq⟩ := Option.map_eq_some_iff.1 h
      cases heq
      exact (Value.allWritable_iff _).2 (hitems _ _ _ hx)
  · split at h
    · cases h
      rfl
    · obtain ⟨x, hx, heq⟩ := Option.map_eq_some_iff.1 h
      cases heq
      exact (Value.pairsWritable_iff _).2 fun p hp => hpairs _ _ _ hx p (mem_ofPairs hp)
  · cases hword : word? cs with
    | none =>
        rw [hword] at h
        exact isWritable_number? h
    | some p =>
        rw [hword] at h
        cases h
        exact isWritable_word? hword

theorem isWritable_items?
    (hvalue : ∀ cs v rest, value? fuel cs = some (v, rest) → v.isWritable)
    (hitems : ∀ cs vs rest, items? fuel cs = some (vs, rest) → ∀ v ∈ vs, v.isWritable)
    (h : items? (fuel + 1) cs = some (vs, rest)) : ∀ v ∈ vs, v.isWritable := by
  unfold items? at h
  obtain ⟨⟨v, tail⟩, hfirst, h⟩ := Option.bind_eq_some_iff.1 h
  have hv := hvalue _ _ _ hfirst
  dsimp only at h
  split at h
  · cases h
    exact List.forall_mem_singleton.2 hv
  · obtain ⟨⟨others, tail⟩, hothers, heq⟩ := Option.bind_eq_some_iff.1 h
    cases heq
    exact List.forall_mem_cons.2 ⟨hv, hitems _ _ _ hothers⟩
  · cases h

theorem isWritable_pairs?
    (hvalue : ∀ cs v rest, value? fuel cs = some (v, rest) → v.isWritable)
    (hpairs : ∀ cs ps rest, pairs? fuel cs = some (ps, rest) → ∀ p ∈ ps, p.2.isWritable)
    (h : pairs? (fuel + 1) cs = some (ps, rest)) : ∀ p ∈ ps, p.2.isWritable := by
  unfold pairs? at h
  split at h
  · obtain ⟨⟨name, tail⟩, -, h⟩ := Option.bind_eq_some_iff.1 h
    dsimp only at h
    split at h
    · obtain ⟨⟨v, tail⟩, hfirst, h⟩ := Option.bind_eq_some_iff.1 h
      have hv := hvalue _ _ _ hfirst
      dsimp only at h
      split at h
      · cases h
        exact List.forall_mem_singleton.2 hv
      · obtain ⟨⟨others, tail⟩, hothers, heq⟩ := Option.bind_eq_some_iff.1 h
        cases heq
        exact List.forall_mem_cons.2 ⟨hv, hpairs _ _ _ hothers⟩
      · cases h
    · cases h
  · cases h

end Steps

/-- Reading calls itself for the parts of a list or a mapping, and with less fuel each time. -/
theorem isWritable_of_fuel (fuel : Nat) :
    (∀ cs v rest, value? fuel cs = some (v, rest) → v.isWritable) ∧
      (∀ cs vs rest, items? fuel cs = some (vs, rest) → ∀ v ∈ vs, v.isWritable) ∧
      (∀ cs ps rest, pairs? fuel cs = some (ps, rest) → ∀ p ∈ ps, p.2.isWritable) := by
  induction fuel with
  | zero =>
      refine ⟨fun cs v rest h => ?_, fun cs vs rest h => ?_, fun cs ps rest h => ?_⟩
      · simp [value?] at h
      · simp [items?] at h
      · simp [pairs?] at h
  | succ fuel ih =>
      obtain ⟨hvalue, hitems, hpairs⟩ := ih
      exact ⟨fun _ _ _ => isWritable_value? hitems hpairs,
        fun _ _ _ => isWritable_items? hvalue hitems,
        fun _ _ _ => isWritable_pairs? hvalue hpairs⟩

/-- What is read of a text can be written. -/
theorem isWritable_read? {s : String} (h : read? s = some v) : v.isWritable := by
  unfold read? at h
  dsimp only at h
  split at h
  · next w rest hvalue =>
    split at h
    · cases h
      exact (isWritable_of_fuel _).1 _ _ _ hvalue
    · cases h
  · cases h

end Json

end Inventory
