import Inventory.Proofs.Blank
import Inventory.Proofs.Coercion
import Mathlib

/-!
# The limits of numbers

From which size on a whole number is no real number any more, and from which length on a text of
digits is not read.
-/

namespace Inventory

/-! ## Whole numbers as real ones -/

namespace Binary64

theorem div_le_roundQuotient (num den : Nat) : num / den ≤ roundQuotient num den := by
  unfold roundQuotient
  dsimp only
  split <;> omega

theorem roundQuotient_le_div (num den : Nat) : roundQuotient num den ≤ num / den + 1 := by
  unfold roundQuotient
  dsimp only
  split <;> omega

theorem roundQuotient_one (n : Nat) : roundQuotient n 1 = n := by
  simp [roundQuotient, Nat.mod_one]

theorem binaryExponent_one {m : Nat} (hm : m ≠ 0) : binaryExponent m 1 = m.log2 := by
  have hfits : 1 * Nat.pow 2 m.log2 ≤ m := by
    rw [Nat.one_mul]
    exact Nat.log2_self_le hm
  have hguess : (m.log2 : Int) - (Nat.log2 1 : Int) = m.log2 := by
    rw [show Nat.log2 1 = 0 from rfl]
    simp
  simp only [binaryExponent, hguess, Int.natCast_nonneg, if_true, Int.toNat_natCast, hfits]

/-- The place of a whole number: so many binades up, and then as many steps as its first 53 binary
digits say. -/
theorem nearest_one {m : Nat} (hm : m ≠ 0) :
    nearest m 1 = (m.log2 + 1022) * 2 ^ 52 +
      if 52 ≤ m.log2 then roundQuotient m (2 ^ (m.log2 - 52)) else m * 2 ^ (52 - m.log2) := by
  have hstep : max ((m.log2 : Int) - 52) (-1074) = m.log2 - 52 := by omega
  rw [nearest, if_neg hm, binaryExponent_one hm]
  simp only [hstep]
  by_cases hlarge : 52 ≤ m.log2
  · have hexponent : ((m.log2 : Int) - 52).toNat = m.log2 - 52 := by omega
    have hplace : ((m.log2 : Int) - 52 + 1074).toNat = m.log2 + 1022 := by omega
    rw [if_pos (by omega), if_pos hlarge, hexponent, hplace, Nat.one_mul]
    rfl
  · have hexponent : (-((m.log2 : Int) - 52)).toNat = 52 - m.log2 := by omega
    have hplace : ((m.log2 : Int) - 52 + 1074).toNat = m.log2 + 1022 := by omega
    rw [if_neg (by omega), if_neg hlarge, hexponent, hplace, roundQuotient_one]
    rfl

/-- In the last binade only the numbers round beyond it that are at least halfway past the greatest
finite one. -/
theorem roundQuotient_lt_iff {m unit den : Nat} (hunit : 0 < unit) (hden : den = 2 * unit)
    (hm : m < 2 ^ 53 * den) : roundQuotient m den < 2 ^ 53 ↔ m < (2 ^ 54 - 1) * unit := by
  have hdiv := Nat.div_add_mod m den
  have hmod := Nat.mod_lt m (show 0 < den by omega)
  have hquotient : m / den < 2 ^ 53 := (Nat.div_lt_iff_lt_mul (by omega)).2 hm
  rcases Nat.lt_or_ge (m / den) (2 ^ 53 - 1) with hq | hq
  · -- there is a finite number above
    have hround := roundQuotient_le_div m den
    have hle : den * (m / den) ≤ den * (2 ^ 53 - 2) := Nat.mul_le_mul_left _ (by omega)
    exact iff_of_true (by omega) (by omega)
  · have hq : m / den = 2 ^ 53 - 1 := by omega
    rw [hq] at hdiv
    simp only [roundQuotient, hq, Bool.or_eq_true, decide_eq_true_eq, Bool.and_eq_true, beq_iff_eq]
    split <;> omega

/-- The least whole number that is nearer to what would be the next binade than to the greatest
finite number, or as near. -/
def leastBeyond : Nat :=
  (2 ^ 54 - 1) * 2 ^ 970

/-- A whole number is finite as a real one unless it is too large. -/
theorem nearest_lt_iff (m : Nat) : nearest m 1 < finiteCount ↔ m < leastBeyond := by
  have hcount : finiteCount = 2047 * 2 ^ 52 := rfl
  by_cases hm : m = 0
  · subst hm
    exact iff_of_true (by decide) (by decide +kernel)
  have hlow : 2 ^ m.log2 ≤ m := Nat.log2_self_le hm
  have hhigh : m < 2 ^ (m.log2 + 1) := Nat.lt_log2_self
  have hpow {a b : Nat} (h : a ≤ b) : 2 ^ a ≤ 2 ^ b := Nat.pow_le_pow_right Nat.two_pos h
  rw [nearest_one hm, hcount, leastBeyond]
  -- the power stays closed: nothing needs its digits
  generalize hk : 970 = k
  have hunit : 0 < 2 ^ k := Nat.two_pow_pos k
  rcases Nat.lt_trichotomy m.log2 (53 + k) with hexponent | hexponent | hexponent
  · -- even the number at the end of the binade is finite
    have hsmall : m < 2 ^ 53 * 2 ^ k := by
      rw [← Nat.pow_add]
      exact hhigh.trans_le (hpow hexponent)
    refine iff_of_true ?_ (by omega)
    split
    · have hround := roundQuotient_le_div m (2 ^ (m.log2 - 52))
      have hdigits : m / 2 ^ (m.log2 - 52) < 2 ^ 53 := by
        rw [Nat.div_lt_iff_lt_mul (Nat.two_pow_pos _), ← Nat.pow_add]
        exact hhigh.trans_le (hpow (by omega))
      omega
    · have hdigits : m * 2 ^ (52 - m.log2) ≤ 2 ^ 53 :=
        calc m * 2 ^ (52 - m.log2) ≤ 2 ^ (m.log2 + 1) * 2 ^ (52 - m.log2) :=
              Nat.mul_le_mul_right _ hhigh.le
          _ = 2 ^ (m.log2 + 1 + (52 - m.log2)) := (Nat.pow_add ..).symm
          _ ≤ 2 ^ 53 := hpow (by omega)
      omega
  · have hbinade : m < 2 ^ 53 * 2 ^ (k + 1) := by
      rw [← Nat.pow_add]
      exact hhigh.trans_le (hpow (by omega))
    have hdouble : 2 ^ (k + 1) = 2 * 2 ^ k := Nat.pow_succ'
    have hround := roundQuotient_lt_iff hunit hdouble hbinade
    have hstep : m.log2 - 52 = k + 1 := by omega
    rw [if_pos (by omega), hstep, ← hround]
    omega
  · -- the binade itself is beyond the finite numbers
    have hlarge : 2 ^ 54 * 2 ^ k ≤ m := by
      rw [← Nat.pow_add]
      exact (hpow (by omega)).trans hlow
    refine iff_of_false ?_ (by omega)
    have hround := div_le_roundQuotient m (2 ^ (m.log2 - 52))
    have hdigits : 2 ^ 52 ≤ m / 2 ^ (m.log2 - 52) := by
      rw [Nat.le_div_iff_mul_le (Nat.two_pow_pos _), ← Nat.pow_add]
      exact (hpow (by omega)).trans hlow
    rw [if_pos (by omega)]
    omega

theorem ofInt?_eq_none_iff (n : Int) : ofInt? n = none ↔ leastBeyond ≤ n.natAbs := by
  have hfinite := nearest_lt_iff n.natAbs
  unfold ofInt? ofRatio ofPlace
  by_cases h : nearest n.natAbs 1 < finiteCount
  · simpa [h] using hfinite.1 h
  · simpa [h] using Nat.not_lt.1 fun hlt => h (hfinite.2 hlt)

end Binary64

/-! ## Texts of digits -/

namespace Text

/-- Where the digits are: apart from white space, and those of ASCII apart from all others. -/
theorem digitZeros_apart : ∀ z ∈ digitZeros, (z = 48 ∨ 127 ≤ z) ∧ (z + 10 ≤ 0x85 ∨ 0xa0 < z) ∧
    (z + 10 ≤ 0x1680 ∨ 0x1680 < z) ∧ (z + 10 ≤ 0x2000 ∨ 0x3000 < z) := by
  decide

theorem exists_of_digitValue? {c : Char} {v : Nat} (h : digitValue? c = some v) :
    ∃ z ∈ digitZeros, c.toNat = z + v ∧ v < 10 := by
  obtain ⟨z, hz, rfl⟩ := Option.map_eq_some_iff.1 h
  have hrange := List.find?_some hz
  simp only [Bool.and_eq_true, decide_eq_true_eq] at hrange
  exact ⟨z, List.mem_of_find?_eq_some hz, by omega, by omega⟩

theorem not_isBlank_of_isDigit {c : Char} (h : isDigit c) : isBlank c = false := by
  obtain ⟨v, hv⟩ := Option.isSome_iff_exists.1 h
  obtain ⟨z, hz, hc, hlt⟩ := exists_of_digitValue? hv
  have hapart := digitZeros_apart z hz
  simp only [isBlank, Bool.or_eq_false_iff, Bool.and_eq_false_iff, decide_eq_false_iff_not,
    beq_eq_false_iff_ne]
  omega

end Text

namespace Numeral

theorem isDigit_iff {c : Char} : c.isDigit ↔ 48 ≤ c.toNat ∧ c.toNat ≤ 57 := by
  rw [Char.isDigit, Bool.and_eq_true, decide_eq_true_eq, decide_eq_true_eq]
  exact Iff.rfl

/-- A digit of any script counts as one of ASCII. -/
theorem plain?_of_isDigit {c : Char} (h : Text.isDigit c) :
    ∃ d, plain? c = some d ∧ d.isDigit := by
  obtain ⟨v, hv⟩ := Option.isSome_iff_exists.1 h
  obtain ⟨z, hz, hc, hlt⟩ := Text.exists_of_digitValue? hv
  have hapart := (Text.digitZeros_apart z hz).1
  by_cases hascii : c.toNat < 127
  · exact ⟨c, if_pos hascii, isDigit_iff.2 ⟨by omega, by omega⟩⟩
  · refine ⟨Char.ofNat (48 + v), ?_, ?_⟩
    · rw [plain?, if_neg hascii, Text.not_isBlank_of_isDigit h, hv]
      rfl
    · have hdigits : ∀ v < 10, (Char.ofNat (48 + v)).isDigit := by decide
      exact hdigits v hlt

theorem mapM_plain? {cs : List Char} (h : ∀ c ∈ cs, Text.isDigit c) :
    ∃ ds, cs.mapM plain? = some ds ∧ ds.length = cs.length ∧ ∀ d ∈ ds, d.isDigit := by
  induction cs with
  | nil => exact ⟨[], rfl, rfl, fun _ hd => nomatch hd⟩
  | cons c rest ih =>
      obtain ⟨d, hd, hdigit⟩ := plain?_of_isDigit (h c (List.mem_cons_self ..))
      obtain ⟨ds, hds, hlength, hdigits⟩ := ih fun e he => h e (List.mem_cons_of_mem _ he)
      refine ⟨d :: ds, by simp [List.mapM_cons, hd, hds], by simp [hlength], fun e he => ?_⟩
      rcases List.mem_cons.1 he with rfl | he
      · exact hdigit
      · exact hdigits e he

/-- A digit is no white space, no sign and no underscore. -/
theorem apart_of_isDigit {d : Char} (h : d.isDigit) :
    Text.isAsciiBlank d = false ∧ d ≠ '-' ∧ d ≠ '+' ∧ d ≠ '_' := by
  refine ⟨?_, ?_, ?_, ?_⟩
  · have hlow := (isDigit_iff.1 h).1
    have hspace : d ≠ ' ' := by
      rintro rfl
      exact absurd hlow (by decide)
    simp only [Text.isAsciiBlank, Bool.or_eq_false_iff, Bool.and_eq_false_iff,
      decide_eq_false_iff_not, beq_eq_false_iff_ne]
    exact ⟨by omega, hspace⟩
  all_goals
    rintro rfl
    exact absurd h (by decide)

/-- A leading sign, or nothing. -/
def IsSign (sign : List Char) : Prop :=
  sign = [] ∨ sign = ['-'] ∨ sign = ['+']

theorem exists_sign (cs : List Char) : ∃ sign, IsSign sign ∧ cs = sign ++ (signOf cs).2 := by
  unfold signOf
  split
  · exact ⟨['-'], .inr (.inl rfl), rfl⟩
  · exact ⟨['+'], .inr (.inr rfl), rfl⟩
  · exact ⟨[], .inl rfl, rfl⟩

theorem signOf_of_isDigit {d : Char} (hd : d.isDigit) (rest : List Char) :
    signOf (d :: rest) = (false, d :: rest) := by
  obtain ⟨-, hminus, hplus, -⟩ := apart_of_isDigit hd
  unfold signOf
  split
  · next heq => exact absurd (List.cons.inj heq).1 hminus
  · next heq => exact absurd (List.cons.inj heq).1 hplus
  · rfl

theorem signOf_digits {sign ds : List Char} (hsign : IsSign sign) (hds : ∀ d ∈ ds, d.isDigit) :
    (signOf (sign ++ ds)).2 = ds := by
  rcases hsign with rfl | rfl | rfl
  · cases ds with
    | nil => rfl
    | cons d rest =>
        rw [List.nil_append, signOf_of_isDigit (hds d (List.mem_cons_self ..))]
  · rfl
  · rfl

theorem underscoresFit_of_ne {cs : List Char} (h : ∀ c ∈ cs, c ≠ '_') (before : Option Char) :
    underscoresFit before cs := by
  induction cs generalizing before with
  | nil => rfl
  | cons c rest ih =>
      obtain ⟨hc, hrest⟩ := List.forall_mem_cons.1 h
      simp [underscoresFit, hc, ih hrest]

theorem underscoresFit_digits {ds : List Char} (hds : ∀ d ∈ ds, d.isDigit) (before : Option Char) :
    underscoresFit before ds :=
  underscoresFit_of_ne (fun d hd => (apart_of_isDigit (hds d hd)).2.2.2) before

theorem isWritable_iff {n : Int} : isWritable n ↔ n.natAbs < 10 ^ digitLimit := by
  rw [isWritable, decide_eq_true_iff, Nat.pow_eq]

/-- So many digits write a number with no more digits. -/
theorem ofDigits_lt {ds : List Char} (hds : ∀ d ∈ ds, d.isDigit) : ofDigits ds < 10 ^ ds.length := by
  have hgo : ∀ (ds : List Char) (n : Nat), (∀ d ∈ ds, d.isDigit) →
      ds.foldl (fun n d => 10 * n + (d.toNat - 48)) n < (n + 1) * 10 ^ ds.length := by
    intro ds
    induction ds with
    | nil =>
        intro n _
        simp
    | cons d rest ih =>
        intro n hdigits
        have hhigh := (isDigit_iff.1 (hdigits d (List.mem_cons_self ..))).2
        calc rest.foldl (fun n d => 10 * n + (d.toNat - 48)) (10 * n + (d.toNat - 48))
            < (10 * n + (d.toNat - 48) + 1) * 10 ^ rest.length :=
              ih _ fun e he => hdigits e (List.mem_cons_of_mem _ he)
          _ ≤ ((n + 1) * 10) * 10 ^ rest.length := Nat.mul_le_mul_right _ (by omega)
          _ = (n + 1) * 10 ^ (rest.length + 1) := by rw [Nat.mul_assoc, Nat.pow_succ']
  simpa [ofDigits] using hgo ds 0 hds

/-- A text of digits after an optional sign becomes such a text of ASCII digits. -/
theorem plainText?_of_isIntegerText {s : String} (h : FieldType.isIntegerText s) :
    ∃ sign ds, plainText? s = some (sign ++ ds) ∧ IsSign sign ∧ (∀ d ∈ ds, d.isDigit) ∧
      ds.length = (signOf s.toList).2.length ∧ ds ≠ [] := by
  simp only [FieldType.isIntegerText, Bool.and_eq_true, Bool.not_eq_true', List.isEmpty_eq_false_iff,
    List.all_eq_true] at h
  obtain ⟨hne, hall⟩ := h
  obtain ⟨sign, hsign, hs⟩ := exists_sign s.toList
  obtain ⟨ds, hds, hlength, hdigits⟩ := mapM_plain? hall
  have hplain : sign.mapM plain? = some sign := by
    rcases hsign with rfl | rfl | rfl <;> rfl
  have hblank : ∀ c ∈ sign ++ ds, Text.isAsciiBlank c = false := by
    intro c hc
    rcases List.mem_append.1 hc with hc | hc
    · rcases hsign with rfl | rfl | rfl
      · cases hc
      · rw [List.mem_singleton.1 hc]
        rfl
      · rw [List.mem_singleton.1 hc]
        rfl
    · exact (apart_of_isDigit (hdigits c hc)).1
  refine ⟨sign, ds, ?_, hsign, hdigits, hlength, ?_⟩
  · rw [plainText?, hs, List.mapM_append, hplain, hds]
    exact congrArg some (Text.trimBy_of_none hblank)
  · rintro rfl
    exact hne (List.length_eq_zero_iff.1 hlength.symm)

/-- A text of digits after an optional sign is a numeral, of so many digits as there are. -/
theorem read_of_isIntegerText {s : String} (h : FieldType.isIntegerText s) :
    ∃ n, isWritable n ∧ read s =
      if digitLimit < (signOf s.toList).2.length then .error (.tooLong (signOf s.toList).2.length)
      else .ok n := by
  obtain ⟨sign, ds, hplain, hsign, hdigits, hlength, hne⟩ := plainText?_of_isIntegerText h
  have hfilter : ds.filter (· != '_') = ds :=
    List.filter_eq_self.2 fun d hd => by simpa using (apart_of_isDigit (hdigits d hd)).2.2.2
  have hall : ds.all Char.isDigit := List.all_eq_true.2 hdigits
  have hread : read s = if digitLimit < ds.length then .error (.tooLong ds.length)
      else .ok (if (signOf (sign ++ ds)).1 then -(ofDigits ds : Int) else ofDigits ds) := by
    simp [read, hplain, signOf_digits hsign hdigits, hfilter, hne, hall,
      underscoresFit_digits hdigits]
  rw [hread, hlength]
  by_cases hlong : digitLimit < (signOf s.toList).2.length
  · exact ⟨0, by decide +kernel, by rw [if_pos hlong, if_pos hlong]⟩
  · have hlt : ofDigits ds < 10 ^ digitLimit :=
      (ofDigits_lt hdigits).trans_le (Nat.pow_le_pow_right (by decide) (by omega))
    refine ⟨_, ?_, rfl⟩
    rw [isWritable_iff]
    split
    · rwa [Int.natAbs_neg, Int.natAbs_natCast]
    · rwa [Int.natAbs_natCast]

/-- A text with too many digits is not read. -/
theorem read_of_long {s : String} (h : FieldType.isIntegerText s)
    (hlong : digitLimit < (signOf s.toList).2.length) :
    read s = .error (.tooLong (signOf s.toList).2.length) := by
  obtain ⟨n, -, hread⟩ := read_of_isIntegerText h
  rw [hread, if_pos hlong]

/-- Any other one is read as a number that can be written. -/
theorem read_of_short {s : String} (h : FieldType.isIntegerText s)
    (hshort : (signOf s.toList).2.length ≤ digitLimit) :
    ∃ n, read s = .ok n ∧ isWritable n := by
  obtain ⟨n, hwritable, hread⟩ := read_of_isIntegerText h
  exact ⟨n, by rw [hread, if_neg (Nat.not_lt.2 hshort)], hwritable⟩

end Numeral

end Inventory
