import Inventory.Proofs.Reading
import Inventory.Proofs.Rounding

/-!
# Written numbers are read back

A whole number is written in its digits, and a real number as a decimal that is nearest to it. To
read such a text gives the number again: zeros at the end of a decimal may be left out, and where
its point stands does not matter as long as the power of ten makes up for it.
-/

namespace Inventory

variable {c : Char}

/-! ## Digits -/

namespace Numeral

theorem ofDigits_toDigits (n : Nat) : ofDigits (Nat.toDigits 10 n) = n :=
  Nat.ofDigitChars_toDigits (by decide) (by decide)

theorem isDigit_of_mem_toDigits {n : Nat} : ∀ c ∈ Nat.toDigits 10 n, c.isDigit :=
  fun _ => Nat.isDigit_of_mem_toDigits (by decide) (by decide)

theorem isDigit_of_mem_zeros (n : Nat) : ∀ c ∈ List.replicate n '0', c.isDigit := by
  intro c hc
  rw [(List.mem_replicate.1 hc).2]
  rfl

theorem ofDigits_append (a b : List Char) :
    ofDigits (a ++ b) = ofDigits a * 10 ^ b.length + ofDigits b := by
  have happend : ofDigits (a ++ b) = Nat.ofDigitChars 10 b (ofDigits a) := Nat.ofDigitChars_append 0
  rw [happend, Nat.ofDigitChars_eq_ofDigitChars_zero, Nat.mul_comm]
  rfl

theorem ofDigits_zeros (n : Nat) : ofDigits (List.replicate n '0') = 0 := by
  induction n with
  | zero => rfl
  | succ n ih =>
      rw [List.replicate_succ', ofDigits_append, ih, Nat.zero_mul]
      rfl

theorem ofDigits_append_zeros (ds : List Char) (n : Nat) :
    ofDigits (ds ++ List.replicate n '0') = ofDigits ds * 10 ^ n := by
  rw [ofDigits_append, ofDigits_zeros, List.length_replicate, Nat.add_zero]

theorem ofDigits_zeros_append (ds : List Char) (n : Nat) :
    ofDigits (List.replicate n '0' ++ ds) = ofDigits ds := by
  rw [ofDigits_append, ofDigits_zeros, Nat.zero_mul, Nat.zero_add]

end Numeral

/-! ## Decimals of the same value -/

namespace Decimal

theorem digitCount_le_iff {n k : Nat} (hk : 0 < k) : digitCount n ≤ k ↔ n < 10 ^ k :=
  Nat.length_toDigits_le_iff (by decide) hk

theorem digitCount_pos (n : Nat) : 0 < digitCount n :=
  List.length_pos_iff.2 Nat.toDigits_ne_nil

theorem lt_pow_digitCount (n : Nat) : n < 10 ^ digitCount n :=
  (digitCount_le_iff (digitCount_pos n)).1 (Nat.le_refl _)

theorem digitCount_mul_pow {n : Nat} (hn : n ≠ 0) (k : Nat) :
    digitCount (n * 10 ^ k) = digitCount n + k := by
  have hpow : 0 < 10 ^ k := Nat.pow_pos (by decide)
  apply Nat.le_antisymm
  · rw [digitCount_le_iff (Nat.add_pos_left (digitCount_pos n) k), Nat.pow_add]
    exact Nat.mul_lt_mul_of_pos_right (lt_pow_digitCount n) hpow
  · have hlt := lt_pow_digitCount (n * 10 ^ k)
    have hlong : k < digitCount (n * 10 ^ k) :=
      (Nat.pow_lt_pow_iff_right (by decide)).1
        ((Nat.le_mul_of_pos_left _ (Nat.pos_of_ne_zero hn)).trans_lt hlt)
    obtain ⟨j, hj⟩ := Nat.exists_eq_add_of_lt hlong
    rw [hj, show k + j + 1 = j + 1 + k by omega, Nat.pow_add] at hlt
    have hle := (digitCount_le_iff (Nat.succ_pos j)).2 (Nat.lt_of_mul_lt_mul_right hlt)
    omega

/-- The place of a decimal between the first two cases, over any power of ten that is enough. -/
theorem nearest_over (n : Nat) (e : Int) (s : Nat) (hs : 0 ≤ e + s) :
    (if 0 ≤ e then Binary64.nearest (n * Nat.pow 10 e.toNat) 1
      else Binary64.nearest n (Nat.pow 10 (-e).toNat)) =
        Binary64.nearest (n * 10 ^ (e + s).toNat) (10 ^ s) := by
  have hpow (k : Nat) : 0 < 10 ^ k := Nat.pow_pos (by decide)
  split
  · next he =>
    have hsum : (e + s).toNat = e.toNat + s := by omega
    have hscale := Binary64.nearest_mul_right (n * 10 ^ e.toNat) Nat.one_pos (hpow s)
    rw [Nat.one_mul, Nat.mul_assoc, ← Nat.pow_add, ← hsum] at hscale
    exact hscale.symm
  · next he =>
    have hsum : s = (-e).toNat + (e + s).toNat := by omega
    have hscale := Binary64.nearest_mul_right n (hpow (-e).toNat) (hpow (e + s).toNat)
    rw [← Nat.pow_add, ← hsum] at hscale
    exact hscale.symm

/-- Zeros at the end of a decimal can be put into its power of ten. -/
theorem nearest_mul_pow (n k : Nat) (e : Int) : nearest ⟨n * 10 ^ k, e⟩ = nearest ⟨n, e + k⟩ := by
  rcases Nat.eq_zero_or_pos n with rfl | hn
  · rw [Nat.zero_mul]
    rfl
  have hne : n * 10 ^ k ≠ 0 := Nat.mul_ne_zero hn.ne' (Nat.pow_pos (by decide)).ne'
  have hplaces : e + digitCount (n * 10 ^ k) = e + k + digitCount n := by
    rw [digitCount_mul_pow hn.ne']
    omega
  have hsum : (e + k + (-e).toNat).toNat = k + (e + (-e).toNat).toNat := by omega
  simp only [nearest, if_neg hne, if_neg hn.ne', hplaces]
  rw [nearest_over _ e (-e).toNat (by omega), nearest_over n (e + k) (-e).toNat (by omega), hsum,
    Nat.pow_add, Nat.mul_assoc]

end Decimal

/-! ## The decimal of a number -/

namespace Binary64

theorem ratio_den (magnitude : Nat) : ∃ k ≤ 1074, (ratio magnitude).2 = 2 ^ k := by
  unfold ratio
  dsimp only
  split
  · exact ⟨1074 - (parts magnitude).2, Nat.sub_le .., rfl⟩
  · exact ⟨0, Nat.zero_le _, rfl⟩

/-- Finite numbers are less than `2 ^ 1024`. -/
theorem ratio_num_lt {magnitude : Nat} (h : magnitude < finiteCount) :
    (ratio magnitude).1 < 2 ^ 1024 * (ratio magnitude).2 := by
  obtain ⟨hplace, hdigits, hnormal⟩ := parts_spec magnitude
  have hcount : finiteCount = 2047 * 2 ^ 52 := rfl
  have hpower : (parts magnitude).2 ≤ 2045 := by omega
  unfold ratio
  dsimp only
  -- the power stays closed: nothing needs its digits
  generalize htop : 1024 = top
  split
  · calc (parts magnitude).1 < 2 ^ top :=
          hdigits.trans_le (Nat.pow_le_pow_right two_pos (by omega))
      _ ≤ 2 ^ top * Nat.pow 2 (1074 - (parts magnitude).2) :=
          Nat.le_mul_of_pos_right _ (Nat.two_pow_pos _)
  · calc (parts magnitude).1 * 2 ^ ((parts magnitude).2 - 1074)
        < 2 ^ 53 * 2 ^ ((parts magnitude).2 - 1074) :=
          Nat.mul_lt_mul_of_pos_right hdigits (Nat.two_pow_pos _)
      _ = 2 ^ (53 + ((parts magnitude).2 - 1074)) := (Nat.pow_add ..).symm
      _ ≤ 2 ^ top * 1 := by
          rw [Nat.mul_one]
          exact Nat.pow_le_pow_right two_pos (by omega)

theorem nearest_exactDecimal {magnitude : Nat} (h : magnitude < finiteCount)
    (hne : magnitude ≠ 0) : (exactDecimal magnitude).nearest = magnitude := by
  obtain ⟨k, hk, hden⟩ := ratio_den magnitude
  have hnum := ratio_num_pos hne
  have hlt := ratio_num_lt h
  have hlog : (ratio magnitude).2.log2 = k := by rw [hden, Nat.log2_two_pow]
  have hdigits : 0 < (ratio magnitude).1 * 5 ^ k := Nat.mul_pos hnum (Nat.pow_pos (by decide))
  have hten : (10 : Nat) ^ k = 2 ^ k * 5 ^ k := by rw [← Nat.mul_pow]
  have hpositive (j : Nat) : 0 < 10 ^ j := Nat.pow_pos (by decide)
  -- a finite number is neither so large nor so small that a power of ten decides
  have hlarge : Decimal.digitCount ((ratio magnitude).1 * 5 ^ k) ≤ 309 + k := by
    rw [Decimal.digitCount_le_iff (by omega)]
    calc (ratio magnitude).1 * 5 ^ k < 2 ^ 1024 * (ratio magnitude).2 * 5 ^ k :=
          Nat.mul_lt_mul_of_pos_right hlt (Nat.pow_pos (by decide))
      _ = 2 ^ 1024 * 10 ^ k := by rw [hden, hten, Nat.mul_assoc]
      _ ≤ 10 ^ 309 * 10 ^ k := Nat.mul_le_mul_right _ (by decide +kernel)
      _ = 10 ^ (309 + k) := by rw [Nat.pow_add]
  have hsmall : k < Decimal.digitCount ((ratio magnitude).1 * 5 ^ k) + 330 := by
    rw [← Nat.pow_lt_pow_iff_right (show 1 < 10 by decide)]
    calc (10 : Nat) ^ k = 5 ^ k * 2 ^ k := by rw [hten, Nat.mul_comm]
      _ ≤ (ratio magnitude).1 * 5 ^ k * 10 ^ 330 := by
          refine Nat.mul_le_mul (Nat.le_mul_of_pos_left _ hnum) ?_
          calc 2 ^ k ≤ 2 ^ 1074 := Nat.pow_le_pow_right two_pos hk
            _ ≤ 10 ^ 330 := by decide +kernel
      _ < 10 ^ Decimal.digitCount ((ratio magnitude).1 * 5 ^ k) * 10 ^ 330 :=
          Nat.mul_lt_mul_of_pos_right (Decimal.lt_pow_digitCount _) (hpositive 330)
      _ = 10 ^ (Decimal.digitCount ((ratio magnitude).1 * 5 ^ k) + 330) := by rw [Nat.pow_add]
  have hexact : exactDecimal magnitude = ⟨(ratio magnitude).1 * 5 ^ k, -(k : Int)⟩ := by
    simp only [exactDecimal, hlog, Nat.pow_eq]
  have hfinite : ¬310 < -(k : Int) + Decimal.digitCount ((ratio magnitude).1 * 5 ^ k) := by omega
  have hnormal : ¬-(k : Int) + Decimal.digitCount ((ratio magnitude).1 * 5 ^ k) < -330 := by omega
  have hpower : (-(k : Int) + k).toNat = 0 := by omega
  simp only [hexact, Decimal.nearest, if_neg hdigits.ne', if_neg hfinite, if_neg hnormal]
  rw [Decimal.nearest_over _ _ k (by omega), hpower, Nat.pow_zero, Nat.mul_one, hten,
    nearest_mul_right _ (Nat.two_pow_pos k) (Nat.pow_pos (by decide)), ← hden, nearest_ratio]

theorem nearest_of_shortestFrom {magnitude num den fuel : Nat} {exponent : Int} {d : Decimal}
    (h : shortestFrom magnitude num den exponent fuel = some d) : d.nearest = magnitude := by
  induction fuel generalizing exponent with
  | zero => cases h
  | succ fuel ih =>
      rw [shortestFrom] at h
      cases hfind : (decimalNeighbours num den exponent).find? (·.nearest = magnitude) with
      | none =>
          rw [hfind] at h
          exact ih h
      | some e =>
          rw [hfind] at h
          cases h
          simpa using List.find?_some hfind

/-- The decimal in which a number is written reads back. -/
theorem nearest_shortest {magnitude : Nat} (h : magnitude < finiteCount) (hne : magnitude ≠ 0) :
    (shortest magnitude).nearest = magnitude := by
  unfold shortest
  dsimp only
  cases hfrom : shortestFrom magnitude (ratio magnitude).1 (ratio magnitude).2
      (decimalExponent (ratio magnitude).1 (ratio magnitude).2) 17 with
  | none => exact nearest_exactDecimal h hne
  | some d => exact nearest_of_shortestFrom hfrom

/-- Only zeros are left out at the end of the digits. -/
theorem toDigits_eq_significantDigits (d : Decimal) :
    ∃ k, Nat.toDigits 10 d.digits = significantDigits d ++ List.replicate k '0' := by
  have hsplit := List.takeWhile_append_dropWhile (p := (· == '0'))
    (l := (Nat.toDigits 10 d.digits).reverse)
  have hzeros : (Nat.toDigits 10 d.digits).reverse.takeWhile (· == '0') =
      List.replicate ((Nat.toDigits 10 d.digits).reverse.takeWhile (· == '0')).length '0' := by
    refine List.eq_replicate_iff.2 ⟨rfl, fun c hc => ?_⟩
    simpa using List.mem_takeWhile_imp hc
  refine ⟨((Nat.toDigits 10 d.digits).reverse.takeWhile (· == '0')).length, ?_⟩
  rw [significantDigits, ← List.reverse_replicate, ← hzeros, ← List.reverse_append, hsplit,
    List.reverse_reverse]

theorem isDigit_significantDigits {d : Decimal} : ∀ c ∈ significantDigits d, c.isDigit := by
  obtain ⟨k, hk⟩ := toDigits_eq_significantDigits d
  exact fun c hc => Numeral.isDigit_of_mem_toDigits c (hk ▸ List.mem_append_left _ hc)

theorem significantDigits_ne_nil {d : Decimal} (hd : d.digits ≠ 0) : significantDigits d ≠ [] := by
  intro hnil
  obtain ⟨k, hk⟩ := toDigits_eq_significantDigits d
  rw [hnil, List.nil_append] at hk
  exact hd (by rw [← Numeral.ofDigits_toDigits d.digits, hk, Numeral.ofDigits_zeros])

/-- The digits that are written, at the places where they are written. -/
theorem nearest_significantDigits (d : Decimal) :
    Decimal.nearest ⟨Numeral.ofDigits (significantDigits d),
      d.exponent + Decimal.digitCount d.digits - (significantDigits d).length⟩ = d.nearest := by
  obtain ⟨k, hk⟩ := toDigits_eq_significantDigits d
  have hdigits : d.digits = Numeral.ofDigits (significantDigits d) * 10 ^ k := by
    rw [← Numeral.ofDigits_append_zeros, ← hk, Numeral.ofDigits_toDigits]
  have hlength : Decimal.digitCount d.digits = (significantDigits d).length + k := by
    rw [Decimal.digitCount, hk, List.length_append, List.length_replicate]
  have hexponent : d.exponent + Decimal.digitCount d.digits - (significantDigits d).length =
      d.exponent + k := by omega
  rw [hexponent, ← Decimal.nearest_mul_pow, ← hdigits]

end Binary64

/-! ## The characters of numbers -/

namespace Binary64

/-- Characters in which numbers are written. -/
def isWriting (c : Char) : Bool :=
  c.isDigit || c == '.' || c == 'e' || c == '-' || c == '+'

theorem isWriting_of_isDigit (h : c.isDigit) : isWriting c := by
  simp [isWriting, h]

theorem isWriting_toDigits {n : Nat} (hc : c ∈ Nat.toDigits 10 n) : isWriting c :=
  isWriting_of_isDigit (Numeral.isDigit_of_mem_toDigits c hc)

theorem isWriting_zeros (n : Nat) : ∀ c ∈ List.replicate n '0', isWriting c :=
  fun c hc => isWriting_of_isDigit (Numeral.isDigit_of_mem_zeros n c hc)

theorem isWriting_positional {digits : List Char} (hdigits : ∀ c ∈ digits, isWriting c)
    (point : Int) : ∀ c ∈ positional digits point, isWriting c := by
  unfold positional
  split
  · exact List.forall_mem_cons.2 ⟨rfl, List.forall_mem_cons.2
      ⟨rfl, List.forall_mem_append.2 ⟨isWriting_zeros _, hdigits⟩⟩⟩
  · split
    · exact List.forall_mem_append.2 ⟨List.forall_mem_append.2 ⟨hdigits, isWriting_zeros _⟩,
        List.all_eq_true.1 rfl⟩
    · refine List.forall_mem_append.2 ⟨fun c hc => hdigits c (List.mem_of_mem_take hc), ?_⟩
      exact List.forall_mem_cons.2 ⟨rfl, fun c hc => hdigits c (List.mem_of_mem_drop hc)⟩

theorem isWriting_scientific {digits : List Char} (hdigits : ∀ c ∈ digits, isWriting c)
    (exponent : Int) : ∀ c ∈ scientific digits exponent, isWriting c := by
  have hpower : ∀ c ∈ Nat.toDigits 10 exponent.natAbs, isWriting c := fun _ => isWriting_toDigits
  have hsign : isWriting (if exponent < 0 then '-' else '+') := by
    split <;> rfl
  unfold scientific
  refine List.forall_mem_append.2 ⟨?_, List.forall_mem_cons.2 ⟨rfl, List.forall_mem_cons.2
    ⟨hsign, List.forall_mem_append.2 ⟨isWriting_zeros _, hpower⟩⟩⟩⟩
  split
  · next d e rest =>
    obtain ⟨hd, he⟩ := List.forall_mem_cons.1 hdigits
    exact List.forall_mem_cons.2 ⟨hd, List.forall_mem_cons.2 ⟨rfl, he⟩⟩
  · exact hdigits

theorem isWriting_displayMagnitude (magnitude : Nat) :
    ∀ c ∈ displayMagnitude magnitude, isWriting c := by
  have hdigits (d : Decimal) : ∀ c ∈ significantDigits d, isWriting c :=
    fun c hc => isWriting_of_isDigit (isDigit_significantDigits c hc)
  unfold displayMagnitude
  split
  · exact List.all_eq_true.1 rfl
  · dsimp only
    split
    · exact isWriting_positional (hdigits _) _
    · exact isWriting_scientific (hdigits _) _

/-- Nothing of a written number is trimmed, skipped or exchanged when it is read. -/
theorem apart_of_isWriting (h : isWriting c) :
    c.toNat < 127 ∧ Text.isBlank c = false ∧ Text.isAsciiBlank c = false ∧ c ≠ '_' := by
  simp only [isWriting, Bool.or_eq_true, beq_iff_eq] at h
  obtain (((hdigit | rfl) | rfl) | rfl) | rfl := h
  · obtain ⟨hblank, -, -, hunderscore⟩ := Numeral.apart_of_isDigit hdigit
    obtain ⟨hlow, hhigh⟩ := Numeral.isDigit_iff.1 hdigit
    refine ⟨by omega, ?_, hblank, hunderscore⟩
    simp only [Text.isBlank, Bool.or_eq_false_iff, Bool.and_eq_false_iff, decide_eq_false_iff_not,
      beq_eq_false_iff_ne]
    omega
  · decide
  · decide
  · decide
  · decide

variable {cs : List Char}

theorem trim_of_isWriting (h : ∀ c ∈ cs, isWriting c) :
    Text.trim (String.ofList cs) = String.ofList cs := by
  rw [Text.trim, String.toList_ofList,
    Text.trimBy_of_none fun c hc => (apart_of_isWriting (h c hc)).2.1]

theorem plainText?_of_isWriting (h : ∀ c ∈ cs, isWriting c) :
    Numeral.plainText? (String.ofList cs) = some cs := by
  have hplain : ∀ cs : List Char, (∀ c ∈ cs, isWriting c) → cs.mapM Numeral.plain? = some cs := by
    intro cs
    induction cs with
    | nil => exact fun _ => rfl
    | cons c rest ih =>
        intro h
        obtain ⟨hc, hrest⟩ := List.forall_mem_cons.1 h
        have hsame : Numeral.plain? c = some c := if_pos (apart_of_isWriting hc).1
        simp [List.mapM_cons, hsame, ih hrest]
  rw [Numeral.plainText?, String.toList_ofList, hplain cs h, Option.map_some,
    Text.trimBy_of_none fun c hc => (apart_of_isWriting (h c hc)).2.2.1]

theorem filter_of_isWriting (h : ∀ c ∈ cs, isWriting c) : cs.filter (· != '_') = cs :=
  List.filter_eq_self.2 fun c hc => by simpa using (apart_of_isWriting (h c hc)).2.2.2

theorem underscoresFit_of_isWriting (h : ∀ c ∈ cs, isWriting c) :
    Numeral.underscoresFit none cs :=
  Numeral.underscoresFit_of_ne (fun c hc => (apart_of_isWriting (h c hc)).2.2.2) none

theorem isWriting_signed (negative : Bool) (h : ∀ c ∈ cs, isWriting c) :
    ∀ c ∈ (if negative then ['-'] else []) ++ cs, isWriting c := by
  refine List.forall_mem_append.2 ⟨?_, h⟩
  cases negative <;> exact List.all_eq_true.1 rfl

theorem signOf_signed {d : Char} (hd : d.isDigit) (rest : List Char) (negative : Bool) :
    Numeral.signOf ((if negative then ['-'] else []) ++ d :: rest) = (negative, d :: rest) := by
  cases negative with
  | true => rfl
  | false => exact Numeral.signOf_of_isDigit hd rest

end Binary64

/-! ## Whole numbers -/

namespace Numeral

/-- A number is written in its digits after a sign, if it is below zero. -/
theorem toString_eq (n : Int) : toString n =
    String.ofList ((if n < 0 then ['-'] else []) ++ Nat.toDigits 10 n.natAbs) := by
  cases n with
  | ofNat m => rfl
  | negSucc m =>
      have hsign : "-" ++ m.succ.repr = String.ofList (['-'] ++ Nat.toDigits 10 m.succ) := by
        rw [String.ofList_append]
        rfl
      rw [if_pos (Int.negSucc_lt_zero m)]
      exact hsign

theorem isWriting_toString (n : Int) : ∀ c ∈ (toString n).toList, Binary64.isWriting c := by
  rw [toString_eq, String.toList_ofList]
  simpa using Binary64.isWriting_signed (decide (n < 0)) fun _ => Binary64.isWriting_toDigits

theorem exists_cons_toDigits (n : Nat) :
    ∃ d rest, Nat.toDigits 10 n = d :: rest ∧ d.isDigit := by
  obtain ⟨d, rest, hcons⟩ := List.exists_cons_of_ne_nil (Nat.toDigits_ne_nil (n := n) (b := 10))
  exact ⟨d, rest, hcons, isDigit_of_mem_toDigits d (hcons ▸ List.mem_cons_self ..)⟩

theorem signOf_toString (n : Int) :
    signOf (toString n).toList = (decide (n < 0), Nat.toDigits 10 n.natAbs) := by
  obtain ⟨d, rest, hcons, hd⟩ := exists_cons_toDigits n.natAbs
  rw [toString_eq, String.toList_ofList, hcons]
  simpa using Binary64.signOf_signed hd rest (decide (n < 0))

/-- Digits are read as the number that they write. -/
theorem read_signed {ds : List Char} (hdigits : ∀ c ∈ ds, c.isDigit) (hne : ds ≠ [])
    (hshort : ds.length ≤ digitLimit) (negative : Bool) :
    read (String.ofList ((if negative then ['-'] else []) ++ ds)) =
      .ok (if negative then -(ofDigits ds : Int) else ofDigits ds) := by
  have hwriting : ∀ c ∈ ds, Binary64.isWriting c :=
    fun c hc => Binary64.isWriting_of_isDigit (hdigits c hc)
  have hplain := Binary64.plainText?_of_isWriting (Binary64.isWriting_signed negative hwriting)
  have hsign : signOf ((if negative then ['-'] else []) ++ ds) = (negative, ds) := by
    obtain ⟨d, rest, rfl⟩ := List.exists_cons_of_ne_nil hne
    exact Binary64.signOf_signed (hdigits d (List.mem_cons_self ..)) rest negative
  simp only [read, hplain, Option.map_some, hsign, Binary64.filter_of_isWriting hwriting,
    Binary64.underscoresFit_of_isWriting hwriting, List.isEmpty_eq_false_iff.2 hne,
    List.all_eq_true.2 hdigits, if_neg (Nat.not_lt.2 hshort)]
  rfl

/-- A written number is read as itself. -/
theorem read_toString {n : Int} (hn : isWritable n) : read (toString n) = .ok n := by
  have hcount : Decimal.digitCount n.natAbs ≤ digitLimit :=
    (Decimal.digitCount_le_iff (show 0 < digitLimit by decide)).2 (isWritable_iff.1 hn)
  have hread := read_signed isDigit_of_mem_toDigits Nat.toDigits_ne_nil hcount (decide (n < 0))
  simp only [decide_eq_true_eq, ofDigits_toDigits] at hread
  rw [toString_eq, hread, Except.ok.injEq]
  split <;> omega

theorem isIntegerText_toString (n : Int) : FieldType.isIntegerText (toString n) := by
  have hascii : ∀ c : Char, c.isDigit → Text.isDigit c := by
    intro c hc
    obtain ⟨hlow, hhigh⟩ := isDigit_iff.1 hc
    rw [Text.isDigit, Text.digitValue?, Option.isSome_map, List.find?_isSome]
    refine ⟨48, List.mem_cons_self .., ?_⟩
    simp only [Bool.and_eq_true, decide_eq_true_eq]
    omega
  simp only [FieldType.isIntegerText, signOf_toString, Bool.and_eq_true, Bool.not_eq_true',
    List.isEmpty_eq_false_iff, List.all_eq_true]
  exact ⟨Nat.toDigits_ne_nil, fun c hc => hascii c (isDigit_of_mem_toDigits c hc)⟩

end Numeral

/-! ## Real numbers -/

namespace Decimal

open Numeral (ofDigits isDigit_of_mem_zeros)

variable {w f rest digits : List Char}

theorem mantissa?_point (hw : ∀ c ∈ w, c.isDigit) (hf : ∀ c ∈ f, c.isDigit)
    (hrest : Xml.Stops Char.isDigit rest) (hne : w ++ f ≠ []) :
    mantissa? (w ++ '.' :: (f ++ rest)) = some (⟨ofDigits (w ++ f), -f.length⟩, rest) := by
  have hpoint : Xml.Stops Char.isDigit ('.' :: (f ++ rest)) := by
    rintro c ⟨⟩
    rfl
  have hsome : (w.isEmpty && f.isEmpty) = false := by
    rw [Bool.and_eq_false_iff, List.isEmpty_eq_false_iff, List.isEmpty_eq_false_iff]
    exact not_and_or.1 fun h => hne (List.append_eq_nil_iff.2 h)
  simp [mantissa?, hpoint.takeWhile_append hw, hpoint.dropWhile_append hw,
    hrest.takeWhile_append hf, hrest.dropWhile_append hf, hsome]

theorem mantissa?_whole (hw : ∀ c ∈ w, c.isDigit) (hne : w ≠ [])
    (hrest : Xml.Stops Char.isDigit rest) (hpoint : rest.head? ≠ some '.') :
    mantissa? (w ++ rest) = some (⟨ofDigits w, 0⟩, rest) := by
  rw [mantissa?, hrest.takeWhile_append hw, hrest.dropWhile_append hw]
  dsimp only
  split
  · exact absurd rfl hpoint
  · simp [hne]

/-- A power of ten is read as it is written. -/
theorem power?_written (e : Int) (zeros : Nat) :
    power? ('e' :: (if e < 0 then '-' else '+') ::
      (List.replicate zeros '0' ++ Nat.toDigits 10 e.natAbs)) = some e := by
  have hdigits : ∀ c ∈ List.replicate zeros '0' ++ Nat.toDigits 10 e.natAbs, c.isDigit := by
    exact List.forall_mem_append.2
      ⟨Numeral.isDigit_of_mem_zeros zeros, Numeral.isDigit_of_mem_toDigits⟩
  have hne : List.replicate zeros '0' ++ Nat.toDigits 10 e.natAbs ≠ [] :=
    List.append_ne_nil_of_right_ne_nil _ Nat.toDigits_ne_nil
  have hsign : Numeral.signOf ((if e < 0 then '-' else '+') ::
      (List.replicate zeros '0' ++ Nat.toDigits 10 e.natAbs)) =
        (decide (e < 0), List.replicate zeros '0' ++ Nat.toDigits 10 e.natAbs) := by
    split
    · next h => simp [Numeral.signOf, h]
    · next h => simp [Numeral.signOf, h]
  rw [power?, hsign]
  simp only [beq_self_eq_true, Bool.true_or, Bool.true_and, List.isEmpty_eq_false_iff.2 hne,
    Bool.not_false, List.all_eq_true.2 hdigits, if_true, Numeral.ofDigits_zeros_append,
    Numeral.ofDigits_toDigits, decide_eq_true_eq, Option.some.injEq]
  split <;> omega

theorem stops_nil : Xml.Stops Char.isDigit [] :=
  nofun

/-- What is read of digits with a power of ten after them. -/
theorem read?_of_mantissa? {cs : List Char} {d : Decimal} {power : Int}
    (hmantissa : mantissa? cs = some (d, rest)) (hpower : power? rest = some power) :
    read? cs = some ⟨d.digits, d.exponent + power⟩ := by
  simp [read?, hmantissa, hpower]

/-- Digits with a point among, before or after them are read as these digits at their places. -/
theorem read?_positional (hdigits : ∀ c ∈ digits, c.isDigit) (hne : digits ≠ []) (point : Int) :
    ∃ d, read? (Binary64.positional digits point) = some d ∧
      d.nearest = nearest ⟨ofDigits digits, point - digits.length⟩ := by
  have hpower : power? [] = some 0 := rfl
  unfold Binary64.positional
  split
  · next hpoint =>
    have hmantissa := mantissa?_point (w := ['0']) (isDigit_of_mem_zeros 1)
      (List.forall_mem_append.2 ⟨isDigit_of_mem_zeros (-point).toNat, hdigits⟩) stops_nil
      (by simp)
    rw [List.append_nil] at hmantissa
    refine ⟨_, read?_of_mantissa? hmantissa hpower, ?_⟩
    have hvalue : ofDigits (['0'] ++ (List.replicate (-point).toNat '0' ++ digits)) =
        ofDigits digits :=
      (Numeral.ofDigits_zeros_append _ 1).trans (Numeral.ofDigits_zeros_append ..)
    have hplaces : -((List.replicate (-point).toNat '0' ++ digits).length : Int) + 0 =
        point - digits.length := by
      rw [List.length_append, List.length_replicate]
      omega
    simp only [hvalue, hplaces]
  · split
    · next hpoint hlong =>
      have hmantissa := mantissa?_point (f := ['0'])
        (List.forall_mem_append.2 ⟨hdigits, isDigit_of_mem_zeros (point.toNat - digits.length)⟩)
        (isDigit_of_mem_zeros 1) stops_nil (by simp)
      refine ⟨_, read?_of_mantissa? hmantissa hpower, ?_⟩
      have hvalue : ofDigits (digits ++ List.replicate (point.toNat - digits.length) '0' ++ ['0']) =
          ofDigits digits * 10 ^ (point.toNat - digits.length + 1) := by
        rw [List.append_assoc, ← Numeral.ofDigits_append_zeros, List.replicate_succ']
      have hplaces : (-1 + 0 + (point.toNat - digits.length + 1 : Nat) : Int) =
          point - digits.length := by omega
      simp only [hvalue, List.length_singleton, Nat.cast_one]
      rw [nearest_mul_pow, hplaces]
    · next hpoint hshort =>
      have hmantissa := mantissa?_point
        (fun c hc => hdigits c (List.mem_of_mem_take hc))
        (fun c hc => hdigits c (List.mem_of_mem_drop hc)) stops_nil
        (by rwa [List.take_append_drop point.toNat digits])
      rw [List.append_nil, List.take_append_drop] at hmantissa
      refine ⟨_, read?_of_mantissa? hmantissa hpower, ?_⟩
      have hplaces : -((digits.drop point.toNat).length : Int) + 0 = point - digits.length := by
        rw [List.length_drop]
        omega
      simp only [hplaces]

/-- Digits before a power of ten are read as these digits at their places. -/
theorem read?_scientific (hdigits : ∀ c ∈ digits, c.isDigit) (hne : digits ≠ []) (point : Int) :
    read? (Binary64.scientific digits (point - 1)) =
      some ⟨ofDigits digits, point - digits.length⟩ := by
  have hpower := power?_written (point - 1) (2 - (Nat.toDigits 10 (point - 1).natAbs).length)
  have hrest (cs : List Char) : Xml.Stops Char.isDigit ('e' :: cs) := by
    rintro c ⟨⟩
    rfl
  cases digits with
  | nil => exact absurd rfl hne
  | cons d more =>
      obtain ⟨hd, hmore⟩ := List.forall_mem_cons.1 hdigits
      have hfirst : ∀ c ∈ [d], c.isDigit := List.forall_mem_singleton.2 hd
      cases more with
      | nil =>
          refine (read?_of_mantissa? (mantissa?_whole hfirst (List.cons_ne_nil d []) (hrest _)
            (by simp)) hpower).trans ?_
          simp
      | cons e more =>
          refine (read?_of_mantissa? (mantissa?_point hfirst hmore (hrest _)
            (List.cons_ne_nil d _)) hpower).trans ?_
          have hplaces : -((e :: more).length : Int) + (point - 1) =
              point - (d :: e :: more).length := by
            simp only [List.length_cons]
            omega
          rw [← hplaces]
          rfl

end Decimal

namespace Binary64

theorem shortest_digits_ne_zero {magnitude : Nat} (h : magnitude < finiteCount)
    (hne : magnitude ≠ 0) : (shortest magnitude).digits ≠ 0 := by
  have hnearest := nearest_shortest h hne
  intro hzero
  rw [Decimal.nearest, if_pos hzero] at hnearest
  exact hne hnearest.symm

/-- The text of a finite absolute value is a decimal nearest to it. -/
theorem read?_displayMagnitude {magnitude : Nat} (h : magnitude < finiteCount) :
    ∃ d, Decimal.read? (displayMagnitude magnitude) = some d ∧ d.nearest = magnitude := by
  unfold displayMagnitude
  split
  · next hzero => exact ⟨⟨0, -1⟩, rfl, hzero.symm⟩
  · next hne =>
    have hdigits := significantDigits_ne_nil (shortest_digits_ne_zero h hne)
    have hnearest := (nearest_significantDigits (shortest magnitude)).trans (nearest_shortest h hne)
    dsimp only
    split
    · obtain ⟨d, hread, hsame⟩ := Decimal.read?_positional isDigit_significantDigits hdigits
        ((shortest magnitude).exponent + Decimal.digitCount (shortest magnitude).digits)
      exact ⟨d, hread, hsame.trans hnearest⟩
    · exact ⟨_, Decimal.read?_scientific isDigit_significantDigits hdigits _, hnearest⟩

theorem isDigit_head_positional {d : Char} (hd : d.isDigit) (more : List Char) (point : Int) :
    ∃ e rest, positional (d :: more) point = e :: rest ∧ e.isDigit := by
  unfold positional
  split
  · exact ⟨'0', _, rfl, rfl⟩
  · next hpoint =>
    split
    · exact ⟨d, _, rfl, hd⟩
    · obtain ⟨k, hk⟩ := Nat.exists_eq_add_of_lt (show 0 < point.toNat by omega)
      rw [hk]
      exact ⟨d, _, rfl, hd⟩

theorem isDigit_head_scientific {d : Char} (hd : d.isDigit) (more : List Char) (exponent : Int) :
    ∃ e rest, scientific (d :: more) exponent = e :: rest ∧ e.isDigit := by
  cases more with
  | nil => exact ⟨d, _, rfl, hd⟩
  | cons e more => exact ⟨d, _, rfl, hd⟩

/-- The text of a finite absolute value starts with a digit. -/
theorem isDigit_head_displayMagnitude {magnitude : Nat} (h : magnitude < finiteCount) :
    ∃ d rest, displayMagnitude magnitude = d :: rest ∧ d.isDigit := by
  unfold displayMagnitude
  split
  · exact ⟨'0', _, rfl, rfl⟩
  · next hne =>
    obtain ⟨d, more, hcons⟩ :=
      List.exists_cons_of_ne_nil (significantDigits_ne_nil (shortest_digits_ne_zero h hne))
    have hd : d.isDigit := isDigit_significantDigits d (hcons ▸ List.mem_cons_self ..)
    dsimp only
    rw [hcons]
    split
    · exact isDigit_head_positional hd more _
    · exact isDigit_head_scientific hd more _

/-- What starts with a digit is none of the words for special numbers. -/
theorem toLower_ne_of_isDigit {d c : Char} (hd : d.isDigit) (hc : c.isDigit = false)
    (rest cs : List Char) : (String.ofList (d :: rest)).toLower ≠ String.ofList (c :: cs) := by
  have hlower : d.toLower = d := by
    have hhigh := (Numeral.isDigit_iff.1 hd).2
    refine dif_neg fun hupper => ?_
    have hlow : 65 ≤ d.toNat := hupper.1
    omega
  intro heq
  have hchars := congrArg String.toList heq
  rw [String.toLower, String.toList_map, String.toList_ofList, String.toList_ofList,
    List.map_cons, hlower] at hchars
  rw [(List.cons.inj hchars).1, hc] at hd
  cases hd

/-- A finite number is written in the characters of numbers. -/
theorem isWriting_display {x : Binary64} (hx : x.isFinite) :
    ∀ c ∈ x.display.toList, isWriting c := by
  cases x with
  | finite negative magnitude h =>
      rw [display, String.toList_ofList]
      exact isWriting_signed negative (isWriting_displayMagnitude magnitude)
  | infinite negative => cases hx
  | nan => cases hx

/-- A written finite number is read as itself. -/
theorem read?_display {x : Binary64} (hx : x.isFinite) : read? x.display = some x := by
  cases x with
  | infinite negative => cases hx
  | nan => cases hx
  | finite negative magnitude h =>
      have hwriting := isWriting_signed negative (isWriting_displayMagnitude magnitude)
      obtain ⟨d, hread, hnearest⟩ := read?_displayMagnitude h
      obtain ⟨c, rest, hcons, hc⟩ := isDigit_head_displayMagnitude h
      have hinf := toLower_ne_of_isDigit hc (c := 'i') rfl rest ['n', 'f']
      have hinfinity := toLower_ne_of_isDigit hc (c := 'i') rfl rest
        ['n', 'f', 'i', 'n', 'i', 't', 'y']
      have hnan := toLower_ne_of_isDigit hc (c := 'n') rfl rest ['a', 'n']
      have hguard : (guard (Numeral.underscoresFit none
          ((if negative then ['-'] else []) ++ displayMagnitude magnitude)) : Option Unit) =
            some () :=
        if_pos (underscoresFit_of_isWriting hwriting)
      simp only [read?, display, plainText?_of_isWriting hwriting, filter_of_isWriting hwriting,
        hguard, Option.bind_eq_bind, Option.bind_some]
      rw [hcons, signOf_signed hc]
      dsimp only
      split
      · next heq => exact absurd heq hinf
      · next heq => exact absurd heq hinfinity
      · next heq => exact absurd heq hnan
      · rw [← hcons, hread, Option.map_some, hnearest, ofPlace, dif_pos h]

end Binary64

end Inventory
