import Abacus.Binary64.Rounding

/-!
# Whole numbers stay whole

A whole number may be too long for 53 binary digits, and then it is rounded to another number. That
one is whole again: the digits that are kept reach down to the ones, or all digits behind the point
are among those that are dropped. So a number with a part behind its point is never the rounding of
a whole number.

What is rounded comes as the digits that are kept and the count of those that are dropped, and both
are joined to one magnitude. Taken apart again the magnitude is worth the kept digits, as many
times doubled as digits were dropped (`unitsOf_joined`), also if rounding up has made the kept
digits one digit longer.

Main statement: the rounding of a whole number is whole (`unitsPerOne_dvd_unitsOf`).
-/

namespace Abacus

namespace Binary64

/-! ## 1. The kept digits -/

theorem le_roundHalfEven (num den : Nat) : num / den ≤ roundHalfEven num den := by
  unfold roundHalfEven
  split
  · exact Nat.le_refl _
  · exact Nat.le_succ _

theorem roundHalfEven_le (num den : Nat) : roundHalfEven num den ≤ num / den + 1 := by
  unfold roundHalfEven
  split
  · exact Nat.le_succ _
  · exact Nat.le_refl _

/-- Of a number with digits to drop 53 are kept. -/
theorem div_two_pow_surplus {n : Nat} (h : surplus n ≠ 0) :
    2 ^ 52 ≤ n / 2 ^ surplus n ∧ n / 2 ^ surplus n < 2 ^ 53 := by
  have hn : n ≠ 0 := by
    rintro rfl
    exact h rfl
  have hlog : n.log2 = 52 + surplus n := by
    unfold surplus at h ⊢
    omega
  have hlo : 2 ^ 52 * 2 ^ surplus n ≤ n := by
    rw [← Nat.pow_add, ← hlog]
    exact Nat.log2_self_le hn
  have hhi : n < 2 ^ 53 * 2 ^ surplus n := by
    have hexponent : n.log2 + 1 = 53 + surplus n := by omega
    rw [← Nat.pow_add, ← hexponent]
    exact Nat.lt_log2_self
  have hpos := Nat.two_pow_pos (surplus n)
  exact ⟨(Nat.le_div_iff_mul_le hpos).mpr hlo, (Nat.div_lt_iff_lt_mul hpos).mpr hhi⟩

/-- A number without digits to drop has 53 at most. -/
theorem lt_of_surplus_eq_zero {n : Nat} (h : surplus n = 0) : n < 2 ^ 53 := by
  by_cases hn : n = 0
  · rw [hn]
    exact Nat.two_pow_pos 53
  · refine (Nat.log2_lt hn).mp ?_
    unfold surplus at h
    omega

/-! ## 2. The magnitude taken apart -/

/-- **The kept digits and the count of the dropped ones make up the value of a magnitude.** Where
    digits were dropped 53 are kept, or one more if rounding up was carried to the front. -/
theorem unitsOf_joined {dropped kept : Nat} (hle : kept ≤ 2 ^ 53)
    (hge : dropped = 0 ∨ 2 ^ 52 ≤ kept) :
    unitsOf (dropped * 2 ^ 52 + kept) = kept * 2 ^ dropped := by
  by_cases hsmall : dropped * 2 ^ 52 + kept < 2 ^ 52
  · have hdropped : dropped = 0 := by omega
    rw [unitsOf, if_pos hsmall, hdropped, Nat.zero_mul, Nat.zero_add, Nat.pow_zero, Nat.mul_one]
  · rw [unitsOf, if_neg hsmall]
    by_cases hcarry : kept = 2 ^ 53
    · have hfield : (dropped * 2 ^ 52 + kept) / 2 ^ 52 - 1 = 1 + dropped := by omega
      have hfraction : (dropped * 2 ^ 52 + kept) % 2 ^ 52 = 0 := by omega
      rw [hfield, hfraction, hcarry, Nat.add_zero, ← Nat.pow_add, ← Nat.pow_add]
      congr 1
      omega
    · have hfield : (dropped * 2 ^ 52 + kept) / 2 ^ 52 - 1 = dropped := by omega
      have hfraction : 2 ^ 52 + (dropped * 2 ^ 52 + kept) % 2 ^ 52 = kept := by omega
      rw [hfield, hfraction]

/-- The value of a rounded number: the kept digits, doubled once for each digit that was dropped. -/
theorem unitsOf_roundUnits {n : Nat} (h : roundUnits n 1 < infiniteMagnitude) :
    unitsOf (roundUnits n 1) = roundHalfEven n (2 ^ surplus n) * 2 ^ surplus n := by
  have hlo := le_roundHalfEven n (2 ^ surplus n)
  have hhi := roundHalfEven_le n (2 ^ surplus n)
  have hround : roundUnits n 1 = surplus n * 2 ^ 52 + roundHalfEven n (2 ^ surplus n) := by
    unfold roundUnits at h ⊢
    rw [Nat.div_one, Nat.one_mul] at h ⊢
    omega
  rw [hround]
  by_cases hs : surplus n = 0
  · have hlt := lt_of_surplus_eq_zero hs
    rw [hs, Nat.pow_zero, Nat.div_one] at hhi
    rw [hs, Nat.pow_zero]
    exact unitsOf_joined (by omega) (.inl rfl)
  · have hkept := div_two_pow_surplus hs
    exact unitsOf_joined (by omega) (.inr (by omega))

/-! ## 3. Whole numbers -/

/-- **The rounding of a whole number is whole**, unless it is infinite. -/
theorem unitsPerOne_dvd_unitsOf {n : Nat}
    (h : roundUnits (n * unitsPerOne) 1 < infiniteMagnitude) :
    unitsPerOne ∣ unitsOf (roundUnits (n * unitsPerOne) 1) := by
  rw [unitsOf_roundUnits h]
  generalize surplus (n * unitsPerOne) = dropped
  rcases Nat.le_total places dropped with hle | hle
  · -- everything behind the point is dropped
    exact Nat.dvd_mul_left_of_dvd (Nat.pow_dvd_pow 2 hle) _
  · -- nothing is rounded, since all digits that are dropped are zeros
    obtain ⟨k, hk⟩ : 2 ^ dropped ∣ unitsPerOne := Nat.pow_dvd_pow 2 hle
    have hexact : n * unitsPerOne = n * k * 2 ^ dropped := by
      rw [hk, Nat.mul_assoc, Nat.mul_comm k]
    rw [hexact, roundHalfEven_mul_left _ (Nat.two_pow_pos dropped), ← hexact]
    exact Nat.dvd_mul_left unitsPerOne n

end Binary64

end Abacus
