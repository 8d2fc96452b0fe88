import Inventory.Proofs.Limits

/-!
# Rounding

The place of the nearest number depends on the quotient alone and not on its terms, and the
quotient of a number rounds to that number. So a whole number that is some real number becomes
that one, and numbers have one place exactly if they have one numerator.
-/

namespace Inventory.Binary64

/-! ## The exponent of a quotient -/

/-- The test for an exponent compares the quotient with a power of two. -/
theorem zpow_le_div_iff {num den : Nat} (hden : 0 < den) (e : Int) :
    (2 : ℚ) ^ e ≤ num / den ↔
      if 0 ≤ e then den * Nat.pow 2 e.toNat ≤ num else den ≤ num * Nat.pow 2 (-e).toNat := by
  have hden' : (0 : ℚ) < den := Nat.cast_pos.2 hden
  rw [le_div_iff₀ hden']
  obtain ⟨k, rfl | rfl⟩ := e.eq_nat_or_neg
  · rw [if_pos (Int.natCast_nonneg k), Int.toNat_natCast, zpow_natCast, mul_comm]
    exact_mod_cast Iff.rfl
  · rw [zpow_neg, zpow_natCast, inv_mul_le_iff₀ (by positivity), neg_neg, Int.toNat_natCast]
    split
    · next h =>
      obtain rfl : k = 0 := by omega
      simp
    · rw [mul_comm ((2 : ℚ) ^ k)]
      exact_mod_cast Iff.rfl

theorem zpow_log2_le {n : Nat} (hn : 0 < n) : (2 : ℚ) ^ (n.log2 : Int) ≤ n := by
  rw [zpow_natCast]
  exact_mod_cast Nat.log2_self_le hn.ne'

theorem lt_zpow_log2 (n : Nat) : (n : ℚ) < 2 ^ ((n.log2 : Int) + 1) := by
  rw [← Nat.cast_succ, zpow_natCast]
  exact_mod_cast Nat.lt_log2_self

/-- The exponent of a quotient is its logarithm, rounded down. -/
theorem binaryExponent_eq_log {num den : Nat} (hnum : 0 < num) (hden : 0 < den) :
    binaryExponent num den = Int.log 2 ((num : ℚ) / den) := by
  have hnum' : (0 : ℚ) < num := Nat.cast_pos.2 hnum
  have hden' : (0 : ℚ) < den := Nat.cast_pos.2 hden
  have hlow : (2 : ℚ) ^ ((num.log2 : Int) - den.log2 - 1) ≤ num / den := by
    rw [le_div_iff₀ hden']
    calc (2 : ℚ) ^ ((num.log2 : Int) - den.log2 - 1) * den
        ≤ 2 ^ ((num.log2 : Int) - den.log2 - 1) * 2 ^ ((den.log2 : Int) + 1) := by
          gcongr
          exact (lt_zpow_log2 den).le
      _ = 2 ^ (num.log2 : Int) := by
          rw [← zpow_add₀ two_ne_zero]
          congr 1
          omega
      _ ≤ num := zpow_log2_le hnum
  have hhigh : (num : ℚ) / den < 2 ^ ((num.log2 : Int) - den.log2 + 1) := by
    rw [div_lt_iff₀ hden']
    calc (num : ℚ) < 2 ^ ((num.log2 : Int) + 1) := lt_zpow_log2 num
      _ = 2 ^ ((num.log2 : Int) - den.log2 + 1) * 2 ^ (den.log2 : Int) := by
          rw [← zpow_add₀ two_ne_zero]
          congr 1
          omega
      _ ≤ 2 ^ ((num.log2 : Int) - den.log2 + 1) * den := by
          gcongr
          exact zpow_log2_le hden
  -- so the logarithm is the difference of those of the terms or one less, and the test decides
  have hlog {e : Int} : (2 : ℚ) ^ e ≤ num / den ↔ e ≤ Int.log 2 ((num : ℚ) / den) :=
    Int.zpow_le_iff_le_log one_lt_two (by positivity)
  have hlow := hlog.1 hlow
  have hhigh : ¬(num.log2 : Int) - den.log2 + 1 ≤ Int.log 2 ((num : ℚ) / den) :=
    fun h => absurd (hlog.2 h) (not_le.2 hhigh)
  unfold binaryExponent
  simp only [← zpow_le_div_iff hden, hlog]
  split <;> omega

/-! ## The quotient counts, not its terms -/

theorem roundQuotient_mul_right (num den : Nat) {c : Nat} (hc : 0 < c) :
    roundQuotient (num * c) (den * c) = roundQuotient num den := by
  have hless : den * c < 2 * (num % den * c) ↔ den < 2 * (num % den) := by
    rw [← Nat.mul_assoc, Nat.mul_lt_mul_right hc]
  have hequal : (2 * (num % den * c) == den * c) = (2 * (num % den) == den) := by
    rw [← Nat.mul_assoc, Bool.eq_iff_iff, beq_iff_eq, beq_iff_eq, Nat.mul_left_inj hc.ne']
  simp only [roundQuotient, Nat.mul_div_mul_right num den hc, Nat.mul_mod_mul_right, hless, hequal]

theorem nearest_mul_right (num : Nat) {den c : Nat} (hden : 0 < den) (hc : 0 < c) :
    nearest (num * c) (den * c) = nearest num den := by
  rcases Nat.eq_zero_or_pos num with rfl | hnum
  · rw [Nat.zero_mul, nearest, if_pos rfl, nearest, if_pos rfl]
  have hexponent : binaryExponent (num * c) (den * c) = binaryExponent num den := by
    have hc' : (c : ℚ) ≠ 0 := Nat.cast_ne_zero.2 hc.ne'
    rw [binaryExponent_eq_log (Nat.mul_pos hnum hc) (Nat.mul_pos hden hc),
      binaryExponent_eq_log hnum hden, Nat.cast_mul, Nat.cast_mul, mul_div_mul_right _ _ hc']
  have hup (p : Nat) : roundQuotient (num * c) (den * c * p) = roundQuotient num (den * p) := by
    rw [Nat.mul_right_comm, roundQuotient_mul_right _ _ hc]
  have hdown (p : Nat) : roundQuotient (num * c * p) (den * c) = roundQuotient (num * p) den := by
    rw [Nat.mul_right_comm, roundQuotient_mul_right _ _ hc]
  simp only [nearest, if_neg hnum.ne', if_neg (Nat.mul_pos hnum hc).ne', hexponent, hup, hdown]

/-! ## The quotient of a number -/

/-- The place of a number counts its steps: those of all binades below it, and those in it. -/
theorem parts_spec (magnitude : Nat) :
    (parts magnitude).2 * 2 ^ 52 + (parts magnitude).1 = magnitude ∧
      (parts magnitude).1 < 2 ^ 53 ∧ (2 ^ 52 ≤ (parts magnitude).1 ∨ (parts magnitude).2 = 0) := by
  unfold parts
  simp only [Nat.pow_eq]
  split <;> dsimp only <;> omega

theorem ratio_den_pos (magnitude : Nat) : 0 < (ratio magnitude).2 := by
  unfold ratio
  dsimp only
  split
  · exact Nat.two_pow_pos _
  · exact Nat.one_pos

theorem ratio_num_pos {magnitude : Nat} (hne : magnitude ≠ 0) : 0 < (ratio magnitude).1 := by
  obtain ⟨hplace, -, hnormal⟩ := parts_spec magnitude
  have hs : 0 < (parts magnitude).1 := by omega
  unfold ratio
  dsimp only
  split
  · exact hs
  · exact Nat.mul_pos hs (Nat.two_pow_pos _)

/-- The quotient of a number is so many units, each of the size that the power says. -/
theorem ratio_eq (magnitude : Nat) :
    ((ratio magnitude).1 : ℚ) / (ratio magnitude).2 =
      (parts magnitude).1 * 2 ^ ((parts magnitude).2 - 1074 : Int) := by
  unfold ratio
  dsimp only
  split
  · next h =>
    have hneg : ((parts magnitude).2 - 1074 : Int) = -((1074 - (parts magnitude).2 : Nat) : Int) := by
      omega
    rw [hneg, zpow_neg, zpow_natCast, Nat.pow_eq, Nat.cast_pow, Nat.cast_two, div_eq_mul_inv]
  · next h =>
    have hpos : ((parts magnitude).2 - 1074 : Int) = (((parts magnitude).2 - 1074 : Nat) : Int) := by
      omega
    rw [hpos, zpow_natCast, Nat.pow_eq, Nat.cast_mul, Nat.cast_pow, Nat.cast_two, Nat.cast_one,
      div_one]

/-- The unit of a number is the step of the numbers near it. -/
theorem step_ratio {magnitude : Nat} (hne : magnitude ≠ 0) :
    max (binaryExponent (ratio magnitude).1 (ratio magnitude).2 - 52) (-1074) =
      (parts magnitude).2 - 1074 := by
  obtain ⟨hplace, hlt, hnormal⟩ := parts_spec magnitude
  have hvalue := ratio_eq magnitude
  generalize hs : (parts magnitude).1 = s at *
  generalize hp : (parts magnitude).2 = p at *
  have hspos : 0 < s := by omega
  have hs' : (0 : ℚ) < s := Nat.cast_pos.2 hspos
  have hpositive : (0 : ℚ) < (ratio magnitude).1 / (ratio magnitude).2 := by
    rw [hvalue]
    positivity
  have hlog {e : Int} : (2 : ℚ) ^ e ≤ (ratio magnitude).1 / (ratio magnitude).2 ↔
      e ≤ Int.log 2 (((ratio magnitude).1 : ℚ) / (ratio magnitude).2) :=
    Int.zpow_le_iff_le_log one_lt_two hpositive
  rw [binaryExponent_eq_log (ratio_num_pos hne) (ratio_den_pos magnitude)]
  -- a number has less than 53 binary digits
  have hhigh : ¬(p - 1021 : Int) ≤ Int.log 2 (((ratio magnitude).1 : ℚ) / (ratio magnitude).2) := by
    rw [← hlog, not_le, hvalue, show (p - 1021 : Int) = ((53 : Nat) : Int) + (p - 1074) by omega,
      zpow_add₀ two_ne_zero, zpow_natCast]
    gcongr
    exact_mod_cast hlt
  rcases hnormal with hnormal | rfl
  · have hlow : (p - 1022 : Int) ≤ Int.log 2 (((ratio magnitude).1 : ℚ) / (ratio magnitude).2) := by
      rw [← hlog, hvalue, show (p - 1022 : Int) = ((52 : Nat) : Int) + (p - 1074) by omega,
        zpow_add₀ two_ne_zero, zpow_natCast]
      gcongr
      exact_mod_cast hnormal
    omega
  · omega

/-- In units of its own a number is whole, so nothing is lost. -/
theorem roundQuotient_ratio (magnitude : Nat) :
    (if 0 ≤ ((parts magnitude).2 - 1074 : Int) then
      roundQuotient (ratio magnitude).1
        ((ratio magnitude).2 * Nat.pow 2 ((parts magnitude).2 - 1074 : Int).toNat)
    else
      roundQuotient ((ratio magnitude).1 * Nat.pow 2 (-((parts magnitude).2 - 1074 : Int)).toNat)
        (ratio magnitude).2) = (parts magnitude).1 := by
  have hwhole (power : Nat) :
      roundQuotient ((parts magnitude).1 * Nat.pow 2 power) (1 * Nat.pow 2 power) =
        (parts magnitude).1 :=
    (roundQuotient_mul_right _ _ (Nat.two_pow_pos power)).trans (roundQuotient_one _)
  unfold ratio
  dsimp only
  by_cases hp : (parts magnitude).2 < 1074
  · have hpower : (-((parts magnitude).2 - 1074 : Int)).toNat = 1074 - (parts magnitude).2 := by
      omega
    rw [if_neg (by omega), if_pos hp, hpower]
    simpa only [Nat.one_mul] using hwhole (1074 - (parts magnitude).2)
  · have hpower : ((parts magnitude).2 - 1074 : Int).toNat = (parts magnitude).2 - 1074 := by
      omega
    rw [if_pos (by omega), if_neg hp, hpower]
    exact hwhole ((parts magnitude).2 - 1074)

/-- A number is the nearest one to its own quotient. -/
theorem nearest_ratio (magnitude : Nat) :
    nearest (ratio magnitude).1 (ratio magnitude).2 = magnitude := by
  rcases Nat.eq_zero_or_pos magnitude with rfl | hpos
  · rfl
  have hbinades : ((parts magnitude).2 - 1074 + 1074 : Int).toNat = (parts magnitude).2 := by omega
  rw [nearest, if_neg (ratio_num_pos hpos.ne').ne']
  simp only [step_ratio hpos.ne', hbinades, roundQuotient_ratio]
  exact (parts_spec magnitude).1

/-! ## Whole numbers -/

theorem ofInt?_eq_some_iff {n : Int} {x : Binary64} :
    ofInt? n = some x ↔ ∃ h, x = .finite (n < 0) (nearest n.natAbs 1) h := by
  unfold ofInt? ofRatio ofPlace
  by_cases h : nearest n.natAbs 1 < finiteCount
  · simp [h, eq_comm]
  · simp [h]

theorem isFinite_of_ofInt? {n : Int} {x : Binary64} (h : ofInt? n = some x) : x.isFinite := by
  obtain ⟨-, rfl⟩ := ofInt?_eq_some_iff.1 h
  rfl

/-- The numerator over the smallest positive number, beside the reduced one. -/
theorem ratio_num_mul (magnitude : Nat) :
    (ratio magnitude).1 * Nat.pow 2 1074 =
      (parts magnitude).1 * Nat.pow 2 (parts magnitude).2 * (ratio magnitude).2 := by
  unfold ratio
  dsimp only
  generalize 1074 = smallest
  simp only [Nat.pow_eq]
  split
  · next h =>
    rw [Nat.mul_assoc, ← Nat.pow_add, Nat.add_sub_cancel' h.le]
  · next h =>
    rw [Nat.mul_one, Nat.mul_assoc, ← Nat.pow_add, Nat.sub_add_cancel (Nat.not_lt.1 h)]

theorem toInt?_eq_some_iff {x : Binary64} {n : Int} :
    x.toInt? = some n ↔ x.numerator? = some (n * Nat.pow 2 1074) := by
  unfold toInt?
  generalize 1074 = smallest
  have hpos : (0 : Int) < Nat.pow 2 smallest := Int.natCast_pos.2 (Nat.two_pow_pos smallest)
  generalize (Nat.pow 2 smallest : Int) = d at hpos
  cases x.numerator? with
  | none => simp
  | some a =>
      rw [Option.bind_some, Option.some.injEq]
      constructor
      · intro h
        split at h
        · next hzero =>
          cases h
          exact (Int.ediv_mul_cancel (Int.dvd_of_emod_eq_zero hzero)).symm
        · cases h
      · rintro rfl
        rw [if_pos (Int.mul_emod_left n d), Int.mul_ediv_cancel n hpos.ne']

/-- A whole number that some real number equals is widened to such a number. -/
theorem toInt?_ofInt? {n : Int} {y : Binary64} (hy : y.toInt? = some n) :
    ∃ x, ofInt? n = some x ∧ x.toInt? = some n := by
  cases y with
  | infinite negative => cases hy
  | nan => cases hy
  | finite negative magnitude h =>
      have hden := ratio_den_pos magnitude
      have hratio := ratio_num_mul magnitude
      simp only [toInt?_eq_some_iff] at hy ⊢
      rw [numerator?, Option.some.injEq] at hy
      generalize 1074 = smallest at hratio hy ⊢
      have hone : 0 < Nat.pow 2 smallest := Nat.two_pow_pos smallest
      generalize Nat.pow 2 smallest = one at hone hratio hy ⊢
      generalize hnum : (parts magnitude).1 * Nat.pow 2 (parts magnitude).2 = num at hratio hy
      have habs : num = n.natAbs * one := by
        have hsame := congrArg Int.natAbs hy
        rw [Int.natAbs_mul, Int.natAbs_natCast] at hsame
        rw [← hsame]
        split <;> simp
      have hplace : nearest n.natAbs 1 = magnitude := by
        have hquotient : (ratio magnitude).1 = n.natAbs * (ratio magnitude).2 := by
          refine Nat.eq_of_mul_eq_mul_right hone ?_
          rw [hratio, habs, Nat.mul_right_comm]
        rw [← nearest_mul_right n.natAbs Nat.one_pos hden, Nat.one_mul, ← hquotient, nearest_ratio]
      refine ⟨.finite (n < 0) magnitude h, ofInt?_eq_some_iff.2 ⟨hplace.symm ▸ h, ?_⟩, ?_⟩
      · simp only [hplace]
      · rw [numerator?]
        dsimp only
        rw [hnum, habs, Option.some.injEq, Int.natCast_mul]
        split
        · next hneg =>
          rw [Int.ofNat_natAbs_of_nonpos (of_decide_eq_true hneg).le, Int.neg_mul, Int.neg_neg]
        · next hneg =>
          rw [Int.natAbs_of_nonneg (Int.not_lt.1 (by simpa using hneg))]

/-! ## Places and numerators -/

/-- The place of a finite number is that of its numerator. -/
theorem rank?_of_numerator? {x : Binary64} {n : Int} (h : x.numerator? = some n) :
    x.rank? = some (n.sign * nearest n.natAbs (Nat.pow 2 1074)) := by
  cases x with
  | infinite negative => cases h
  | nan => cases h
  | finite negative magnitude hfinite =>
      have hden := ratio_den_pos magnitude
      have hratio := ratio_num_mul magnitude
      rw [numerator?, Option.some.injEq] at h
      generalize 1074 = smallest at hratio ⊢
      have hone : 0 < Nat.pow 2 smallest := Nat.two_pow_pos smallest
      generalize Nat.pow 2 smallest = one at hone hratio ⊢
      generalize hnum : (parts magnitude).1 * Nat.pow 2 (parts magnitude).2 = num at hratio h
      have hplace : nearest num one = magnitude := by
        rw [← nearest_mul_right num hone hden, ← hratio, Nat.mul_comm one,
          nearest_mul_right _ hden hone, nearest_ratio]
      have habs : n.natAbs = num := by
        rw [← h]
        split <;> simp
      rw [rank?, habs, hplace, Option.some.injEq, ← h]
      rcases Nat.eq_zero_or_pos num with rfl | hpos
      · -- both zeros have the same place
        have hzero : magnitude = 0 := hplace.symm
        simp [hzero]
      · have hsign : (num : Int).sign = 1 := Int.sign_eq_one_of_pos (Int.natCast_pos.2 hpos)
        cases negative <;> simp [hsign]

/-- Numbers in one place have one numerator. -/
theorem numerator?_congr {x y : Binary64} (h : x.rank? = y.rank?) :
    x.numerator? = y.numerator? := by
  cases x with
  | nan =>
      cases y with
      | nan => rfl
      | _ => cases h
  | infinite s =>
      cases y with
      | finite t m hm =>
          rw [rank?, rank?, Option.some.injEq] at h
          split at h <;> split at h <;> omega
      | _ => rfl
  | finite s m hm =>
      cases y with
      | nan => cases h
      | infinite t =>
          rw [rank?, rank?, Option.some.injEq] at h
          split at h <;> split at h <;> omega
      | finite t m' hm' =>
          rw [rank?, rank?, Option.some.injEq] at h
          obtain ⟨rfl, rfl | rfl⟩ : m = m' ∧ (s = t ∨ m = 0) := by
            cases s <;> cases t <;> simp at h ⊢ <;> omega
          · rfl
          · simp [numerator?, parts]

/-- Numbers in one place are the same whole number, or none of them is one. -/
theorem toInt?_congr {x y : Binary64} (h : x.rank? = y.rank?) : x.toInt? = y.toInt? := by
  rw [toInt?, toInt?, numerator?_congr h]

/-- Numbers that are one whole number have one place. -/
theorem rank?_congr {x y : Binary64} {n : Int} (hx : x.toInt? = some n) (hy : y.toInt? = some n) :
    x.rank? = y.rank? := by
  rw [rank?_of_numerator? (toInt?_eq_some_iff.1 hx), rank?_of_numerator? (toInt?_eq_some_iff.1 hy)]

end Inventory.Binary64
