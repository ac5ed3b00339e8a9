import Abacus.Decimal.Layout
import Abacus.Proofs.Binary64.Whole
import Mathlib.Algebra.Field.Rat
import Mathlib.Algebra.Order.Ring.Rat
import Mathlib.Algebra.Order.Field.Power
import Mathlib.Tactic.Linarith
import Mathlib.Tactic.NormNum
import Mathlib.Tactic.Ring

/-!
# The number that a decimal stands for

A decimal stands for a rational number, and different decimals may stand for the same one. The
binary number nearest to a decimal depends on the number alone (`roundedMagnitude_congr`).

The exponent of the leading digit says where the number lies, between two powers of ten
(`le_toRat`, `toRat_lt`). The finite binary numbers lie between `2 ^ (-1074)` and `2 ^ 1024`, and
what is rounded to one of them is not far from them. So the leading digit of a decimal that reads
back as a finite number other than zero has an exponent of three digits at most
(`leadingExponent_mem`, `leadingExponent_shortest`).
-/

namespace Abacus

/-! ## 1. Numbers that are rounded to a finite one -/

namespace Binary64

/-- The place behind the leading digit of the largest finite numbers: they are below
    `2 ^ topPlace`. -/
def topPlace : Nat := 1024

/-- What is rounded to a finite magnitude is below the infinities. -/
theorem lt_of_roundUnits {num den : Nat} (hden : 0 < den)
    (h : roundUnits num den < infiniteMagnitude) : num < 2 ^ topPlace * unitsPerOne * den := by
  rw [← Nat.div_lt_iff_lt_mul hden, unitsPerOne, ← Nat.pow_add]
  by_contra hge
  rw [Nat.not_lt] at hge
  have hne : num / den ≠ 0 :=
    Nat.ne_of_gt (Nat.lt_of_lt_of_le (Nat.two_pow_pos (topPlace + places)) hge)
  have hlog : topPlace + places ≤ (num / den).log2 := (Nat.le_log2 hne).mpr hge
  have hsurplus : 2046 ≤ surplus (num / den) := Nat.le_sub_of_add_le hlog
  have hkept := (div_two_pow_surplus (n := num / den) (by omega)).1
  have hround := le_roundHalfEven num (den * 2 ^ surplus (num / den))
  rw [← Nat.div_div_eq_div_mul] at hround
  unfold roundUnits infiniteMagnitude at h
  omega

/-- What is less than half of the least step is rounded to zero. -/
theorem le_of_roundUnits_ne_zero {num den : Nat} (h : roundUnits num den ≠ 0) :
    den ≤ 2 * num := by
  by_contra hlt
  have hnear := (roundHalfEven_near num (show 0 < den by omega)).1
  -- any other natural number is further away than half a step
  have hround : roundHalfEven num den = 0 := by
    by_contra hne
    have hstep := Nat.le_mul_of_pos_left den (Nat.pos_of_ne_zero hne)
    omega
  have hzero : num / den = 0 := Nat.div_eq_of_lt (by omega)
  have hsurplus : surplus 0 = 0 := rfl
  refine h ?_
  rw [roundUnits, hzero, hsurplus, Nat.pow_zero, Nat.mul_one, hround]
  rfl

end Binary64

/-! ## 2. The rational number -/

namespace Decimal

/-- The rational number that a decimal stands for. -/
def toRat (d : Decimal) : ℚ := d.coefficient * (10 : ℚ) ^ d.exponent

theorem toRat_nonneg (d : Decimal) : 0 ≤ d.toRat :=
  mul_nonneg (Nat.cast_nonneg _) (zpow_nonneg (by norm_num) _)

/-- Zeros moved from the coefficient to the exponent do not change the number. -/
theorem toRat_shift (c k : Nat) (e : Int) : toRat ⟨10 ^ k * c, e⟩ = toRat ⟨c, e + k⟩ := by
  rw [toRat, toRat, zpow_add₀ (by norm_num), zpow_natCast, Nat.cast_mul, Nat.cast_pow,
    Nat.cast_ofNat]
  ring

/-- **Numerator and denominator make up the number**, counted in least binary steps. -/
theorem cast_numerator (d : Decimal) :
    (d.numerator : ℚ) = d.toRat * Binary64.unitsPerOne * d.denominator := by
  have hpower : (10 : ℚ) ^ d.exponent.toNat = (10 : ℚ) ^ d.exponent * d.denominator := by
    rw [denominator, Nat.cast_pow, Nat.cast_ofNat, ← zpow_natCast, ← zpow_natCast,
      ← zpow_add₀ (by norm_num)]
    congr 1
    omega
  rw [numerator, toRat, Nat.cast_mul, Nat.cast_mul, Nat.cast_pow, Nat.cast_ofNat, hpower]
  ring

/-- **The nearest binary number depends on the number alone.** -/
theorem roundedMagnitude_congr {d d' : Decimal} (h : d.toRat = d'.toRat) :
    d.roundedMagnitude = d'.roundedMagnitude := by
  have hcross : d.numerator * d'.denominator = d'.numerator * d.denominator := by
    have hcast : (d.numerator : ℚ) * d'.denominator = d'.numerator * d.denominator := by
      rw [cast_numerator, cast_numerator, h]
      ring
    exact_mod_cast hcast
  rw [roundedMagnitude, roundedMagnitude,
    ← Binary64.roundUnits_mul_right d.numerator d.denominator d'.denominator_pos, hcross,
    Nat.mul_comm d.denominator, Binary64.roundUnits_mul_right _ _ d.denominator_pos]

/-! ## 3. The leading digit -/

theorem length_digits_pos (d : Decimal) : 0 < (Layout.digits d).length :=
  List.length_pos_iff.mpr Nat.toDigits_ne_nil

/-- The number is not below the power of ten at its leading digit. -/
theorem le_toRat {d : Decimal} (h : d.coefficient ≠ 0) :
    (10 : ℚ) ^ Layout.leadingExponent d ≤ d.toRat := by
  obtain ⟨k, hk⟩ : ∃ k, (Layout.digits d).length = k + 1 :=
    ⟨_, (Nat.sub_add_cancel d.length_digits_pos).symm⟩
  have hcoefficient : 10 ^ k ≤ d.coefficient := by
    by_contra hlt
    rcases Nat.eq_zero_or_pos k with hzero | hpos
    · rw [hzero] at hlt
      exact hlt (Nat.pos_of_ne_zero h)
    · have hle := (Nat.length_toDigits_le_iff (by decide) hpos).mpr (Nat.not_le.mp hlt)
      have hlength : (Nat.toDigits 10 d.coefficient).length = k + 1 := hk
      omega
  have hexponent : Layout.leadingExponent d = k + d.exponent := by
    rw [Layout.leadingExponent, hk]
    omega
  rw [hexponent, zpow_add₀ (by norm_num), zpow_natCast, toRat]
  refine mul_le_mul_of_nonneg_right ?_ (zpow_nonneg (by norm_num) _)
  exact_mod_cast hcoefficient

/-- The number is below the power of ten in front of its leading digit. -/
theorem toRat_lt (d : Decimal) : d.toRat < (10 : ℚ) ^ (Layout.leadingExponent d + 1) := by
  have hcoefficient : d.coefficient < 10 ^ (Layout.digits d).length :=
    (Nat.length_toDigits_le_iff (by decide) d.length_digits_pos).mp (Nat.le_refl _)
  have hexponent : Layout.leadingExponent d + 1 = (Layout.digits d).length + d.exponent := by
    rw [Layout.leadingExponent]
    omega
  rw [hexponent, zpow_add₀ (by norm_num), zpow_natCast, toRat]
  refine mul_lt_mul_of_pos_right ?_ (zpow_pos (by norm_num) _)
  exact_mod_cast hcoefficient

/-! ## 4. Decimals that read back -/

theorem toRat_lt_of_roundedMagnitude {d : Decimal}
    (h : d.roundedMagnitude < Binary64.infiniteMagnitude) :
    d.toRat < (2 : ℚ) ^ Binary64.topPlace := by
  have hcast := Nat.cast_lt (α := ℚ).mpr (Binary64.lt_of_roundUnits d.denominator_pos h)
  rw [cast_numerator, Nat.cast_mul, Nat.cast_mul, Nat.cast_pow, Nat.cast_ofNat] at hcast
  have hden : (0 : ℚ) < d.denominator := Nat.cast_pos.mpr d.denominator_pos
  have hone : (0 : ℚ) < Binary64.unitsPerOne := Nat.cast_pos.mpr Binary64.unitsPerOne_pos
  exact lt_of_mul_lt_mul_right (lt_of_mul_lt_mul_right hcast hden.le) hone.le

theorem le_toRat_of_roundedMagnitude {d : Decimal} (h : d.roundedMagnitude ≠ 0) :
    1 ≤ 2 * d.toRat * Binary64.unitsPerOne := by
  have hcast : (d.denominator : ℚ) ≤ 2 * d.numerator := by
    exact_mod_cast Binary64.le_of_roundUnits_ne_zero h
  have hden : (0 : ℚ) < d.denominator := Nat.cast_pos.mpr d.denominator_pos
  refine le_of_mul_le_mul_right ?_ hden
  rw [cast_numerator] at hcast
  linarith

/-- **The leading digit of a decimal that reads back** as a finite number other than zero has an
    exponent from `-324` to `308`. -/
theorem leadingExponent_mem {d : Decimal} (hlt : d.roundedMagnitude < Binary64.infiniteMagnitude)
    (hne : d.roundedMagnitude ≠ 0) :
    -324 ≤ Layout.leadingExponent d ∧ Layout.leadingExponent d ≤ 308 := by
  have hcoefficient : d.coefficient ≠ 0 := fun h => hne (roundedMagnitude_of_coefficient_zero h)
  have hten : (1 : ℚ) < 10 := by norm_num
  constructor
  · have hpower : 2 * Binary64.unitsPerOne ≤ 10 ^ 324 := by decide +kernel
    have hcast := Nat.cast_le (α := ℚ).mpr hpower
    rw [Nat.cast_mul, Nat.cast_pow, Nat.cast_ofNat, Nat.cast_ofNat, ← zpow_natCast] at hcast
    have hlow : (10 : ℚ) ^ (-(324 : ℕ) : ℤ) < 10 ^ (Layout.leadingExponent d + 1) := by
      refine lt_of_le_of_lt ?_ d.toRat_lt
      rw [zpow_neg, inv_le_iff_one_le_mul₀ (zpow_pos (by norm_num) _)]
      calc (1 : ℚ)
        _ ≤ 2 * d.toRat * Binary64.unitsPerOne := le_toRat_of_roundedMagnitude hne
        _ = d.toRat * (2 * Binary64.unitsPerOne) := by ring
        _ ≤ d.toRat * 10 ^ ((324 : ℕ) : ℤ) := mul_le_mul_of_nonneg_left hcast d.toRat_nonneg
    rw [zpow_lt_zpow_iff_right₀ hten] at hlow
    omega
  · have hpower : 2 ^ Binary64.topPlace < 10 ^ 309 := by decide +kernel
    have hcast := Nat.cast_lt (α := ℚ).mpr hpower
    rw [Nat.cast_pow, Nat.cast_pow, Nat.cast_ofNat, Nat.cast_ofNat, ← zpow_natCast 10] at hcast
    have hhigh : (10 : ℚ) ^ Layout.leadingExponent d < 10 ^ ((309 : ℕ) : ℤ) :=
      (le_toRat hcoefficient).trans_lt ((toRat_lt_of_roundedMagnitude hlt).trans hcast)
    rw [zpow_lt_zpow_iff_right₀ hten] at hhigh
    omega

/-- The shortest decimal of a finite number has such a leading digit, also for zero. -/
theorem leadingExponent_shortest {m : Nat} (h : m < Binary64.infiniteMagnitude) :
    -324 ≤ Layout.leadingExponent (shortest m) ∧ Layout.leadingExponent (shortest m) ≤ 308 := by
  have hround := roundedMagnitude_shortest h
  by_cases hm : m = 0
  · rw [hm]
    decide
  · refine leadingExponent_mem ?_ ?_
    · rw [hround]
      exact h
    · rw [hround]
      exact hm

end Decimal

end Abacus
