import CFrontEnd.Decimal.Shortest
import Mathlib.Algebra.Order.Field.Power
import Mathlib.Data.Rat.Cast.Order
import Mathlib.Tactic.FieldSimp
import Mathlib.Tactic.Linarith
import Mathlib.Tactic.NormNum
import Mathlib.Tactic.Positivity
import Mathlib.Tactic.Ring

/-!
# Rounding by Value

The rank of the double nearest to a decimal number depends on the value of that number alone,
however its digits and its exponent are split. The exact value of a double has the rank of that
double, so reading never changes a value that is written out in full.

## Main definitions

* `Decimal.value`: the number that a decimal stands for.

## Main results

* `Binary64.leadingExponent_spec`: the leading exponent is that of the quotient.
* `Binary64.nearestRank_congr`: equal quotients have the same nearest rank.
* `Binary64.decimalRank_congr`: decimals of the same value have the same rank.
* `Binary64.decimalRank_exactDecimal`: the exact value of a rank has that rank.
-/

namespace CFrontEnd

/-- The number that a decimal stands for. -/
def Decimal.value (decimal : Decimal) : ℚ :=
  decimal.digits * 10 ^ decimal.exponent

/-- A power with an integer exponent is a fraction of powers with natural exponents. -/
theorem zpow_eq_div (base : ℚ) (exponent : ℤ) :
    base ^ exponent = base ^ exponent.toNat / base ^ (-exponent).toNat := by
  rcases le_total 0 exponent with hle | hle
  · obtain ⟨n, rfl⟩ := Int.eq_ofNat_of_zero_le hle
    simp
  · obtain ⟨n, hn⟩ := Int.eq_ofNat_of_zero_le (neg_nonneg.mpr hle)
    obtain rfl : exponent = -(n : ℤ) := by omega
    simp

/-- The fraction that is rounded for a decimal has its value. -/
theorem Decimal.value_eq_div (decimal : Decimal) :
    decimal.value = ((decimal.digits * Nat.pow 10 decimal.exponent.toNat : ℕ) : ℚ) /
      (Nat.pow 10 (-decimal.exponent).toNat : ℕ) := by
  rw [Decimal.value, zpow_eq_div]
  push_cast [Nat.pow_eq]
  rw [mul_div_assoc]

namespace Binary64

/-! ### Equal quotients -/

variable {num den : ℕ}

/-- A whole factor of both numbers does not change how their quotient is rounded. -/
theorem roundHalfEven_mul_left {k : ℕ} (hk : 0 < k) (num den : ℕ) :
    roundHalfEven (k * num) (k * den) = roundHalfEven num den := by
  have htwice : 2 * (k * num % (k * den)) = k * (2 * (num % den)) := by
    rw [Nat.mul_mod_mul_left]
    ring
  simp only [roundHalfEven, htwice, Nat.mul_div_mul_left _ _ hk, Nat.mul_lt_mul_left hk]

/-- The comparison of a quotient with a power of two in natural numbers. -/
theorem mul_pow_lt_iff (hden : 0 < den) (exponent : ℤ) :
    num * Nat.pow 2 (-exponent).toNat < den * Nat.pow 2 exponent.toNat ↔
      (num : ℚ) / den < 2 ^ exponent := by
  have hden' : (0 : ℚ) < den := by exact_mod_cast hden
  rw [zpow_eq_div, div_lt_div_iff₀ hden' (by positivity), mul_comm (2 ^ _ : ℚ)]
  simp only [Nat.pow_eq]
  exact_mod_cast Iff.rfl

/-- The leading exponent is that of the quotient. -/
theorem leadingExponent_spec (hnum : 0 < num) (hden : 0 < den) :
    (2 : ℚ) ^ leadingExponent num den ≤ (num : ℚ) / den ∧
      (num : ℚ) / den < 2 ^ (leadingExponent num den + 1) := by
  have hnum' : (0 : ℚ) < num := by exact_mod_cast hnum
  have hden' : (0 : ℚ) < den := by exact_mod_cast hden
  have hnumLow : (2 : ℚ) ^ num.log2 ≤ num := by exact_mod_cast Nat.log2_self_le hnum.ne'
  have hnumHigh : (num : ℚ) < 2 ^ (num.log2 + 1) := by exact_mod_cast Nat.lt_log2_self
  have hdenLow : (2 : ℚ) ^ den.log2 ≤ den := by exact_mod_cast Nat.log2_self_le hden.ne'
  have hdenHigh : (den : ℚ) < 2 ^ (den.log2 + 1) := by exact_mod_cast Nat.lt_log2_self
  set guess : ℤ := (num.log2 : ℤ) - den.log2 with hguess
  have hlow : (2 : ℚ) ^ (guess - 1) ≤ num / den := by
    rw [le_div_iff₀ hden']
    calc (2 : ℚ) ^ (guess - 1) * den ≤ 2 ^ (guess - 1) * 2 ^ (den.log2 + 1) := by gcongr
      _ = 2 ^ num.log2 := by
        rw [← zpow_natCast, ← zpow_natCast, ← zpow_add₀ two_ne_zero]
        congr 1
        push_cast
        omega
      _ ≤ num := hnumLow
  have hhigh : (num : ℚ) / den < 2 ^ (guess + 1) := by
    rw [div_lt_iff₀ hden']
    calc (num : ℚ) < 2 ^ (num.log2 + 1) := hnumHigh
      _ = 2 ^ (guess + 1) * 2 ^ den.log2 := by
        rw [← zpow_natCast, ← zpow_natCast, ← zpow_add₀ two_ne_zero]
        congr 1
        push_cast
        omega
      _ ≤ 2 ^ (guess + 1) * den := by gcongr
  -- the comparison decides between the guess and one less
  by_cases hless : (num : ℚ) / den < 2 ^ guess
  · rw [leadingExponent, if_pos ((mul_pow_lt_iff hden guess).mpr hless)]
    exact ⟨hlow, by rwa [sub_add_cancel]⟩
  · rw [leadingExponent, if_neg fun h => hless ((mul_pow_lt_iff hden guess).mp h)]
    exact ⟨not_lt.mp hless, hhigh⟩

/-- Powers of two that enclose the same number have the same exponents. -/
theorem zpow_unique {base value : ℚ} (hbase : 1 < base) {m n : ℤ}
    (hm : base ^ m ≤ value ∧ value < base ^ (m + 1))
    (hn : base ^ n ≤ value ∧ value < base ^ (n + 1)) : m = n := by
  have hmn := (zpow_lt_zpow_iff_right₀ hbase).mp (hm.1.trans_lt hn.2)
  have hnm := (zpow_lt_zpow_iff_right₀ hbase).mp (hn.1.trans_lt hm.2)
  omega

theorem nearestRank_mul_left {k : ℕ} (hk : 0 < k) (hnum : 0 < num) (hden : 0 < den) :
    nearestRank (k * num) (k * den) = nearestRank num den := by
  have hvalue : ((k * num : ℕ) : ℚ) / (k * den : ℕ) = num / den := by
    push_cast
    exact mul_div_mul_left _ _ (by exact_mod_cast hk.ne')
  have hleading : leadingExponent (k * num) (k * den) = leadingExponent num den := by
    have hspec := leadingExponent_spec (Nat.mul_pos hk hnum) (Nat.mul_pos hk hden)
    rw [hvalue] at hspec
    exact zpow_unique one_lt_two hspec (leadingExponent_spec hnum hden)
  simp only [nearestRank, lastExponent, hleading, Nat.mul_assoc, roundHalfEven_mul_left hk]

/-- Equal quotients have the same nearest rank. -/
theorem nearestRank_congr {num' den' : ℕ} (hnum : 0 < num) (hden : 0 < den) (hnum' : 0 < num')
    (hden' : 0 < den') (h : (num : ℚ) / den = num' / den') :
    nearestRank num den = nearestRank num' den' := by
  have hcross : den' * num = den * num' := by
    rw [div_eq_div_iff (by positivity) (by positivity)] at h
    have hnat : num * den' = num' * den := by exact_mod_cast h
    linarith
  calc nearestRank num den = nearestRank (den' * num) (den' * den) :=
        (nearestRank_mul_left hden' hnum hden).symm
    _ = nearestRank (den * num') (den * den') := by rw [hcross, Nat.mul_comm den']
    _ = nearestRank num' den' := nearestRank_mul_left hden hnum' hden'

/-! ### Decimals of the same value -/

/-- The number of digits of a positive number. -/
theorem pow_length_toDigits {n : ℕ} (h : 0 < n) :
    10 ^ ((Nat.toDigits 10 n).length - 1) ≤ n ∧ n < 10 ^ (Nat.toDigits 10 n).length := by
  have hpos : 0 < (Nat.toDigits 10 n).length := Nat.length_toDigits_pos
  refine ⟨?_, (Nat.length_toDigits_le_iff (by norm_num) hpos).mp le_rfl⟩
  rcases Nat.eq_zero_or_pos ((Nat.toDigits 10 n).length - 1) with hzero | hmore
  · rw [hzero]
    exact h
  · -- one digit less is too few
    by_contra hlt
    have hle := (Nat.length_toDigits_le_iff (by norm_num) hmore).mpr (not_le.mp hlt)
    omega

/-- A positive decimal lies between the powers of ten around its leading digit. -/
theorem wholePlaces_spec {decimal : Decimal} (h : 0 < decimal.digits) :
    (10 : ℚ) ^ (wholePlaces decimal - 1) ≤ decimal.value ∧
      decimal.value < 10 ^ (wholePlaces decimal - 1 + 1) := by
  obtain ⟨hlow, hhigh⟩ := pow_length_toDigits h
  have hpos : 0 < (Nat.toDigits 10 decimal.digits).length := Nat.length_toDigits_pos
  set length := (Nat.toDigits 10 decimal.digits).length with hlength
  have hlow' : (10 : ℚ) ^ (length - 1) ≤ decimal.digits := by exact_mod_cast hlow
  have hhigh' : (decimal.digits : ℚ) < 10 ^ length := by exact_mod_cast hhigh
  have hplaces : wholePlaces decimal = length + decimal.exponent := rfl
  constructor
  · calc (10 : ℚ) ^ (wholePlaces decimal - 1) = 10 ^ (length - 1) * 10 ^ decimal.exponent := by
          rw [← zpow_natCast, ← zpow_add₀ (by norm_num), hplaces]
          congr 1
          omega
      _ ≤ decimal.value := by
          rw [Decimal.value]
          gcongr
  · calc decimal.value < 10 ^ length * 10 ^ decimal.exponent := by
          rw [Decimal.value]
          gcongr
      _ = 10 ^ (wholePlaces decimal - 1 + 1) := by
          rw [← zpow_natCast, ← zpow_add₀ (by norm_num), hplaces, sub_add_cancel]

theorem value_eq_zero_iff {decimal : Decimal} : decimal.value = 0 ↔ decimal.digits = 0 := by
  rw [Decimal.value, mul_eq_zero, or_iff_left (zpow_ne_zero _ (by norm_num)), Nat.cast_eq_zero]

/-- Decimals of the same value have the same rank. -/
theorem decimalRank_congr {first second : Decimal} (h : first.value = second.value) :
    decimalRank first = decimalRank second := by
  rcases Nat.eq_zero_or_pos first.digits with hzero | hfirst
  · have hsecond : second.digits = 0 := by
      rw [← value_eq_zero_iff, ← h, value_eq_zero_iff, hzero]
    simp [decimalRank, hzero, hsecond]
  · have hsecond : 0 < second.digits := by
      refine Nat.pos_of_ne_zero fun hzero => ?_
      rw [← value_eq_zero_iff, ← h, value_eq_zero_iff] at hzero
      omega
    -- the number of places before the point is a matter of the value, too
    have hplaces : wholePlaces first = wholePlaces second := by
      have hspec := wholePlaces_spec hfirst
      rw [h] at hspec
      have hminus := zpow_unique (by norm_num) hspec (wholePlaces_spec hsecond)
      omega
    have hten : ∀ n, 0 < Nat.pow 10 n := fun n => Nat.pow_pos (by norm_num)
    rw [first.value_eq_div, second.value_eq_div] at h
    have hrank := nearestRank_congr (Nat.mul_pos hfirst (hten _)) (hten _)
      (Nat.mul_pos hsecond (hten _)) (hten _) h
    simp only [decimalRank, hplaces, hfirst.ne', hsecond.ne', false_or, hrank]

/-! ### Exact values -/

/-- A rank is the significand in the units of its binade, above the ranks of the binades below. -/
theorem rank_eq_significand (rank : ℕ) :
    (exponent rank - leastExponent).toNat * binadeSize + significand rank = rank := by
  unfold exponent significand
  split
  · simp
  · rename_i hnormal
    have hsplit := Nat.div_add_mod' rank binadeSize
    obtain ⟨binade, hbinade⟩ : ∃ binade, rank / binadeSize = binade + 1 :=
      Nat.exists_eq_add_one.mpr (Nat.div_pos (Nat.le_of_not_lt hnormal) (by decide))
    rw [hbinade] at hsplit ⊢
    rw [Nat.add_sub_cancel, add_sub_cancel_left, Int.toNat_natCast]
    linarith

/-- The exact value of a rank. -/
theorem value_exactDecimal (rank : ℕ) :
    (exactDecimal rank).value = significand rank * 2 ^ exponent rank := by
  unfold exactDecimal Decimal.value
  by_cases hlast : 0 ≤ exponent rank
  · obtain ⟨n, hn⟩ := Int.eq_ofNat_of_zero_le hlast
    simp [hn, Nat.pow_eq]
  · obtain ⟨n, hn⟩ := Int.eq_ofNat_of_zero_le (show 0 ≤ -exponent rank by omega)
    obtain hexponent : exponent rank = -(n : ℤ) := by omega
    have hten : (10 : ℚ) ^ n = 5 ^ n * 2 ^ n := by rw [← mul_pow]; norm_num
    simp only [hlast, if_false, hn, Int.toNat_natCast, Nat.pow_eq]
    rw [hexponent, zpow_neg, zpow_neg, zpow_natCast, zpow_natCast, hten]
    push_cast
    field_simp

/-- The significand of a rank has 53 bits, unless its last place is the least of all. -/
theorem exponent_eq_or_le_significand (rank : ℕ) :
    exponent rank = leastExponent ∨ binadeSize ≤ significand rank := by
  unfold exponent significand
  split
  · exact .inl rfl
  · exact .inr (Nat.le_add_left ..)

theorem significand_lt_zpow (rank : ℕ) : (significand rank : ℚ) < 2 ^ (53 : ℤ) := by
  calc (significand rank : ℚ) < (2 * binadeSize : ℕ) := by exact_mod_cast significand_lt rank
    _ = 2 ^ (53 : ℤ) := by norm_num [binadeSize]

theorem significand_pos {rank : ℕ} (h : 0 < rank) : 0 < significand rank := by
  unfold significand binadeSize
  split <;> omega

theorem exponent_le {rank : ℕ} (h : rank < infiniteRank) : exponent rank ≤ 971 := by
  have hdiv : rank / binadeSize < 2047 := Nat.div_lt_of_lt_mul (by rwa [mul_comm])
  unfold exponent leastExponent
  split <;> omega

/-- The last binary place that is kept of the value of a rank is the last place of the rank. -/
theorem lastExponent_eq {num den rank : ℕ} (hnum : 0 < num) (hden : 0 < den)
    (h : (num : ℚ) / den = significand rank * 2 ^ exponent rank) :
    lastExponent num den = exponent rank := by
  obtain ⟨hlow, hhigh⟩ := leadingExponent_spec hnum hden
  rw [h] at hlow hhigh
  have hsize : ((binadeSize : ℕ) : ℚ) = 2 ^ (52 : ℤ) := by norm_num [binadeSize]
  have hbits := significand_lt_zpow rank
  have hleading : leadingExponent num den < 53 + exponent rank := by
    refine (zpow_lt_zpow_iff_right₀ one_lt_two).mp (hlow.trans_lt ?_)
    rw [zpow_add₀ two_ne_zero]
    gcongr
  have hleast := leastExponent_le_exponent rank
  rcases exponent_eq_or_le_significand rank with hsubnormal | hnormal
  · rw [lastExponent]
    omega
  · -- the leading bit of the significand is the leading bit of the value
    have hle : 52 + exponent rank < leadingExponent num den + 1 := by
      refine (zpow_lt_zpow_iff_right₀ one_lt_two).mp (lt_of_le_of_lt ?_ hhigh)
      rw [zpow_add₀ two_ne_zero, ← hsize]
      gcongr
    rw [lastExponent]
    omega

/-- The value of a rank is rounded to that rank. -/
theorem nearestRank_eq {num den rank : ℕ} (hnum : 0 < num) (hden : 0 < den)
    (hfinite : rank < infiniteRank) (h : (num : ℚ) / den = significand rank * 2 ^ exponent rank) :
    nearestRank num den = rank := by
  have hunits : num * Nat.pow 2 (-exponent rank).toNat =
      significand rank * (den * Nat.pow 2 (exponent rank).toNat) := by
    rw [zpow_eq_div, ← mul_div_assoc, div_eq_div_iff (by positivity) (by positivity)] at h
    simp only [Nat.pow_eq]
    have hnat : num * 2 ^ (-exponent rank).toNat =
        significand rank * 2 ^ (exponent rank).toNat * den := by exact_mod_cast h
    rw [hnat]
    ring
  have hpos : 0 < den * Nat.pow 2 (exponent rank).toNat :=
    Nat.mul_pos hden (Nat.pow_pos two_pos)
  simp only [nearestRank, lastExponent_eq hnum hden h, hunits, roundHalfEven_mul _ hpos,
    rank_eq_significand, Nat.min_eq_left hfinite.le]

/-- The powers of ten from which on ranks are given out without rounding are far away. -/
theorem two_zpow_le_ten_zpow : (2 : ℚ) ^ (1074 : ℤ) ≤ 10 ^ (330 : ℤ) := by
  simp only [zpow_ofNat]
  calc (2 : ℚ) ^ 1074 ≤ 2 ^ 1089 := pow_le_pow_right₀ one_le_two (by norm_num)
    _ = (2 ^ 33) ^ 33 := by rw [← pow_mul]
    _ ≤ (10 ^ 10) ^ 33 := by gcongr; norm_num
    _ = 10 ^ 330 := by rw [← pow_mul]

/-- The value of a positive finite rank lies between the least and the greatest of them. -/
theorem value_bounds {rank : ℕ} (hpos : 0 < rank) (hfinite : rank < infiniteRank) :
    (10 : ℚ) ^ (-330 : ℤ) ≤ significand rank * 2 ^ exponent rank ∧
      (significand rank : ℚ) * 2 ^ exponent rank < 10 ^ (330 : ℤ) := by
  have hone : (1 : ℚ) ≤ significand rank := by exact_mod_cast significand_pos hpos
  have hbits := significand_lt_zpow rank
  have hpower : (0 : ℚ) < 2 ^ exponent rank := by positivity
  constructor
  · calc (10 : ℚ) ^ (-330 : ℤ) ≤ 2 ^ leastExponent := by
          rw [leastExponent, zpow_neg, zpow_neg]
          exact inv_anti₀ (by positivity) two_zpow_le_ten_zpow
      _ ≤ 2 ^ exponent rank := zpow_le_zpow_right₀ one_le_two (leastExponent_le_exponent rank)
      _ ≤ significand rank * 2 ^ exponent rank := le_mul_of_one_le_left hpower.le hone
  · calc (significand rank : ℚ) * 2 ^ exponent rank < 2 ^ (53 : ℤ) * 2 ^ exponent rank := by gcongr
      _ ≤ 2 ^ (53 : ℤ) * 2 ^ (971 : ℤ) := by
          gcongr
          · exact one_le_two
          · exact exponent_le hfinite
      _ ≤ 2 ^ (1074 : ℤ) := by
          rw [← zpow_add₀ two_ne_zero]
          exact zpow_le_zpow_right₀ one_le_two (by norm_num)
      _ ≤ 10 ^ (330 : ℤ) := two_zpow_le_ten_zpow

/-- The exact value of a positive finite rank has that rank. -/
theorem decimalRank_exactDecimal {rank : ℕ} (hpos : 0 < rank) (hfinite : rank < infiniteRank) :
    decimalRank (exactDecimal rank) = rank := by
  have hdigits := exactDecimal_digits_pos hpos
  have hvalue := value_exactDecimal rank
  obtain ⟨hleast, hgreatest⟩ := value_bounds hpos hfinite
  obtain ⟨hlow, hhigh⟩ := wholePlaces_spec hdigits
  rw [hvalue] at hlow hhigh
  have hbase : (1 : ℚ) < 10 := by norm_num
  have hgreat := (zpow_lt_zpow_iff_right₀ hbase).mp (hlow.trans_lt hgreatest)
  have hsmall := (zpow_lt_zpow_iff_right₀ hbase).mp (hleast.trans_lt hhigh)
  have hten : ∀ n, 0 < Nat.pow 10 n := fun n => Nat.pow_pos (by norm_num)
  rw [Decimal.value_eq_div] at hvalue
  rw [decimalRank, if_neg (by omega), if_neg (by omega),
    nearestRank_eq (Nat.mul_pos hdigits (hten _)) (hten _) hfinite hvalue]

end Binary64

end CFrontEnd
