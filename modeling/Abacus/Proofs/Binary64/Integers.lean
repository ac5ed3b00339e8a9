import Abacus.Binary64.OfInt
import Abacus.Proofs.Binary64.Infinite
import Abacus.Proofs.Binary64.Whole

/-!
# Integers among the binary numbers

An integer becomes a binary number by being rounded to 53 digits. This file says what is left of it:

* its leading digit, so that the number is as large as the power of two below the integer
  (`le_magnitude_ofInt`);
* that it is an integer, unless it has become infinite (`toInt?_ofInt`);
* the integer itself, if it has 53 digits at most (`toInt?_ofInt_of_lt`);
* nothing of its last digit otherwise, since that is dropped. The number is then an even integer.

Main statement: a number is odd exactly if it comes from an odd integer of 53 digits at most
(`isOdd_ofInt`).
-/

namespace Abacus

namespace Binary64

/-! ## 1. The leading digit -/

/-- Condensing keeps the leading digit. -/
theorem two_pow_log2_le_condense {n : Nat} (hn : n ≠ 0) : 2 ^ n.log2 ≤ condense n := by
  unfold condense
  split
  · exact Nat.log2_self_le hn
  · rename_i hlarge
    have hlog : 64 ≤ n.log2 := (Nat.le_log2 hn).2 (by omega)
    have hsplit : 2 ^ n.log2 = 2 ^ 63 * 2 ^ (n.log2 - 63) := by
      rw [← Nat.pow_add, Nat.add_sub_of_le (by omega)]
    have hleading : 2 ^ 63 ≤ n / 2 ^ (n.log2 - 63) := by
      rw [Nat.le_div_iff_mul_le (Nat.two_pow_pos _), ← hsplit]
      exact Nat.log2_self_le hn
    rw [hsplit]
    refine Nat.mul_le_mul_right _ ?_
    split
    · omega
    · exact hleading

theorem two_pow_le_condense {k n : Nat} (h : 2 ^ k ≤ n) : 2 ^ k ≤ condense n := by
  have hn : n ≠ 0 := Nat.ne_of_gt (Nat.lt_of_lt_of_le (Nat.two_pow_pos k) h)
  calc 2 ^ k ≤ 2 ^ n.log2 := Nat.pow_le_pow_right (by decide) ((Nat.le_log2 hn).2 h)
    _ ≤ condense n := two_pow_log2_le_condense hn

/-- In least steps an integer has as many digits more as there are places behind the point. -/
theorem log2_mul_unitsPerOne {n : Nat} (hn : n ≠ 0) :
    (n * unitsPerOne).log2 = n.log2 + places := by
  have hne : n * unitsPerOne ≠ 0 := Nat.mul_ne_zero hn (Nat.ne_of_gt unitsPerOne_pos)
  have hlo : 2 ^ (n.log2 + places) ≤ n * unitsPerOne := by
    rw [Nat.pow_add]
    exact Nat.mul_le_mul_right _ (Nat.log2_self_le hn)
  have hhi : n * unitsPerOne < 2 ^ (n.log2 + places + 1) := by
    rw [Nat.add_right_comm, Nat.pow_add]
    exact Nat.mul_lt_mul_of_pos_right Nat.lt_log2_self unitsPerOne_pos
  exact (Nat.log2_eq_iff hne).mpr ⟨hlo, hhi⟩

theorem surplus_mul_unitsPerOne {n : Nat} (hn : n ≠ 0) :
    surplus (n * unitsPerOne) = n.log2 + 1022 := by
  rw [surplus, log2_mul_unitsPerOne hn, places]
  omega

/-- The magnitude of a rounded integer, from its leading digit on. -/
theorem le_roundUnits {n : Nat} (hn : n ≠ 0) :
    min ((n.log2 + 1023) * 2 ^ 52) infiniteMagnitude ≤ roundUnits (n * unitsPerOne) 1 := by
  have hsurplus := surplus_mul_unitsPerOne hn
  have hkept := (div_two_pow_surplus (n := n * unitsPerOne) (by omega)).1
  have hround := le_roundHalfEven (n * unitsPerOne) (2 ^ surplus (n * unitsPerOne))
  rw [roundUnits, Nat.div_one, Nat.one_mul]
  rw [hsurplus] at hkept hround ⊢
  omega

/-- **A number is as large as the power of two below the integer**, or infinite. -/
theorem le_magnitude_ofInt {k : Nat} {n : Int} (hk : k ≤ 1024) (h : 2 ^ k ≤ n.natAbs) :
    (k + 1023) * 2 ^ 52 ≤ (ofInt n).magnitude := by
  have hcondense := two_pow_le_condense h
  have hne : condense n.natAbs ≠ 0 :=
    Nat.ne_of_gt (Nat.lt_of_lt_of_le (Nat.two_pow_pos k) hcondense)
  have hlog : k ≤ (condense n.natAbs).log2 := (Nat.le_log2 hne).2 hcondense
  refine Nat.le_trans (Nat.le_min.mpr ⟨?_, ?_⟩) (le_roundUnits hne)
  · exact Nat.mul_le_mul_right _ (Nat.add_le_add_right hlog 1023)
  · exact Nat.mul_le_mul_right _ (Nat.add_le_add_right hk 1023)

theorem isNaN_ofInt (n : Int) : (ofInt n).isNaN = false :=
  decide_eq_false (Nat.not_lt.mpr (roundUnits_le _ _))

/-! ## 2. The integer -/

theorem units_ofInt (n : Int) :
    (ofInt n).units = unitsOf (roundUnits (condense n.natAbs * unitsPerOne) 1) := rfl

/-- A finite number of an integer is an integer. -/
theorem toInt?_ofInt {n : Int} (h : (ofInt n).isFinite = true) :
    (ofInt n).toInt? = some (if n < 0 then -(((ofInt n).units / unitsPerOne : Nat) : Int)
      else ((ofInt n).units / unitsPerOne : Nat)) := by
  have hdvd : unitsPerOne ∣ (ofInt n).units := unitsPerOne_dvd_unitsOf (of_decide_eq_true h)
  have hnegative : (ofInt n).negative = decide (n < 0) := rfl
  have hwhole : (true && (0 : Nat) == 0) = true := rfl
  rw [toInt?, h, Nat.mod_eq_zero_of_dvd hdvd, hnegative, if_pos hwhole]
  by_cases hn : n < 0
  · rw [decide_eq_true hn, if_pos rfl, if_pos hn]
  · rw [decide_eq_false hn, if_neg Bool.false_ne_true, if_neg hn]

theorem toInt?_of_isInfinite {x : Binary64} (h : x.isInfinite = true) : x.toInt? = none := by
  rw [toInt?, isFinite_of_isInfinite h]
  rfl

theorem isInteger_ofInt {n : Int} (h : ¬(ofInt n).isInfinite = true) :
    (ofInt n).isInteger = true := by
  have hfinite : (ofInt n).isFinite = true := by
    rcases (ofInt n).isFinite_or with hfinite | hinfinite | hnan
    · exact hfinite
    · exact absurd hinfinite h
    · rw [isNaN_ofInt] at hnan
      cases hnan
  rw [isInteger, toInt?_ofInt hfinite]
  rfl

/-- An integer of 53 digits at most is not rounded. -/
theorem unitsOf_roundUnits_of_lt {n : Nat} (h : n < 2 ^ 53) :
    roundUnits (n * unitsPerOne) 1 < infiniteMagnitude ∧
      unitsOf (roundUnits (n * unitsPerOne) 1) = n * unitsPerOne := by
  by_cases hn : n = 0
  · subst hn
    rw [Nat.zero_mul]
    decide
  · have hlog : n.log2 ≤ 52 := Nat.le_of_lt_succ ((Nat.log2_lt hn).2 h)
    have hsurplus := surplus_mul_unitsPerOne hn
    have hkept := (div_two_pow_surplus (n := n * unitsPerOne) (by omega)).2
    have hround := roundHalfEven_le (n * unitsPerOne) (2 ^ surplus (n * unitsPerOne))
    have hfinite : roundUnits (n * unitsPerOne) 1 < infiniteMagnitude := by
      unfold roundUnits infiniteMagnitude
      rw [Nat.div_one, Nat.one_mul]
      rw [hsurplus] at hkept hround ⊢
      omega
    refine ⟨hfinite, ?_⟩
    obtain ⟨k, hk⟩ : 2 ^ surplus (n * unitsPerOne) ∣ n * unitsPerOne := by
      refine Nat.dvd_mul_left_of_dvd (Nat.pow_dvd_pow 2 ?_) n
      rw [hsurplus, places]
      omega
    rw [unitsOf_roundUnits hfinite]
    generalize surplus (n * unitsPerOne) = dropped at hk ⊢
    rw [hk, Nat.mul_comm _ k, roundHalfEven_mul_left _ (Nat.two_pow_pos dropped)]

/-- **An integer of 53 digits at most is kept.** -/
theorem toInt?_ofInt_of_lt {n : Int} (h : n.natAbs < 2 ^ 53) : (ofInt n).toInt? = some n := by
  obtain ⟨hfinite, hunits⟩ := unitsOf_roundUnits_of_lt h
  have hcondense : condense n.natAbs = n.natAbs := condense_of_lt (by omega)
  rw [← hcondense] at hfinite
  rw [toInt?_ofInt (decide_eq_true hfinite), units_ofInt, hcondense, hunits,
    Nat.mul_div_cancel _ unitsPerOne_pos]
  refine congrArg some ?_
  split <;> omega

/-! ## 3. The last digit -/

/-- An integer of more than 53 digits loses the last one. -/
theorem two_mul_unitsPerOne_dvd {n : Nat} (h : 2 ^ 53 ≤ n)
    (hfinite : roundUnits (n * unitsPerOne) 1 < infiniteMagnitude) :
    2 * unitsPerOne ∣ unitsOf (roundUnits (n * unitsPerOne) 1) := by
  have hn : n ≠ 0 := by omega
  have hlog : 53 ≤ n.log2 := (Nat.le_log2 hn).2 h
  rw [unitsOf_roundUnits hfinite, surplus_mul_unitsPerOne hn]
  refine Nat.dvd_mul_left_of_dvd ?_ _
  rw [unitsPerOne, ← Nat.pow_succ']
  refine Nat.pow_dvd_pow 2 ?_
  rw [places]
  omega

/-- **A number is odd exactly if it comes from an odd integer of 53 digits at most.** -/
theorem isOdd_ofInt (n : Int) : (ofInt n).isOdd = decide (n % 2 = 1 ∧ n.natAbs < 2 ^ 53) := by
  by_cases hlt : n.natAbs < 2 ^ 53
  · rw [isOdd, toInt?_ofInt_of_lt hlt]
    simp only [hlt, and_true]
    rfl
  · rw [decide_eq_false fun h => hlt h.2]
    by_cases hfinite : (ofInt n).isFinite = true
    · obtain ⟨k, hk⟩ := two_mul_unitsPerOne_dvd (two_pow_le_condense (Nat.le_of_not_lt hlt))
        (of_decide_eq_true hfinite)
      have hquotient : (ofInt n).units / unitsPerOne = 2 * k := by
        rw [units_ofInt, hk, Nat.mul_right_comm, Nat.mul_div_cancel _ unitsPerOne_pos]
      rw [isOdd, toInt?_ofInt hfinite, hquotient]
      simp only [beq_eq_false_iff_ne]
      split <;> omega
    · rw [isOdd, toInt?, Bool.of_not_eq_true hfinite]
      rfl

end Binary64

end Abacus
