import Abacus.Proofs.Binary64.Integers
import Mathlib.Algebra.Field.Rat
import Mathlib.Tactic.FieldSimp

/-!
# The number that a pattern stands for

A finite pattern of 64 bits stands for a rational number, and its three fields make it up: the
sign, the exponent field and the fraction field (`toRat`). Arithmetic counts in least steps instead,
and both are the same number (`toRat_eq`).

An integer is such a number if a finite pattern stands for it. This may be an integer of up to 1024
digits, as long as all but 53 of them are zeros at its end. This file says that

* a pattern is read as an integer exactly if it stands for the integer (`toInt?_eq_some_iff`);
* an integer that some pattern stands for is not changed when it becomes a binary number
  (`ofInt_of_toRat`). Neither the summary of a long integer nor the rounding loses anything.
-/

namespace Abacus

namespace Binary64

/-! ## 1. Fields -/

/-- What the exponent field and the fraction field of a finite number stand for: the fraction is
    behind the point, with a one before the point unless the exponent field is empty. -/
def absRat (x : Binary64) : ℚ :=
  if x.exponentField = 0 then (x.fraction : ℚ) / 2 ^ 52 * (2 : ℚ) ^ (-1022 : ℤ)
  else (1 + (x.fraction : ℚ) / 2 ^ 52) * (2 : ℚ) ^ ((x.exponentField : ℤ) - 1023)

/-- The rational number that a finite number stands for. -/
def toRat (x : Binary64) : ℚ := if x.negative then -x.absRat else x.absRat

theorem cast_unitsPerOne : (unitsPerOne : ℚ) = 2 ^ 52 * 2 ^ 1022 := by
  rw [unitsPerOne, Nat.cast_pow, Nat.cast_ofNat, ← pow_add]
  rfl

theorem cast_unitsPerOne_ne_zero : (unitsPerOne : ℚ) ≠ 0 :=
  Nat.cast_ne_zero.mpr (Nat.ne_of_gt unitsPerOne_pos)

/-- The two fields stand for the least steps. -/
theorem absRat_eq (x : Binary64) : x.absRat = x.units / unitsPerOne := by
  have hbase : (2 : ℚ) ^ (-1022 : ℤ) = (2 ^ 1022)⁻¹ := rfl
  rw [cast_unitsPerOne]
  unfold absRat units unitsOf exponentField fraction
  by_cases hsmall : x.magnitude < 2 ^ 52
  · rw [if_pos (Nat.div_eq_of_lt hsmall), Nat.mod_eq_of_lt hsmall, if_pos hsmall, hbase]
    field_simp
  · obtain ⟨k, hk⟩ : ∃ k, x.magnitude / 2 ^ 52 = k + 1 := ⟨x.magnitude / 2 ^ 52 - 1, by omega⟩
    have hexponent : ((k + 1 : ℕ) : ℤ) - 1023 = k + -1022 := by omega
    rw [if_neg hsmall, hk, if_neg (Nat.succ_ne_zero k), hexponent, zpow_add₀ two_ne_zero,
      zpow_natCast, hbase, Nat.add_sub_cancel, Nat.cast_mul, Nat.cast_add, Nat.cast_pow,
      Nat.cast_pow, Nat.cast_ofNat]
    field_simp

/-- **The fields stand for the least steps with their sign.** -/
theorem toRat_eq (x : Binary64) : x.toRat = x.signedUnits / unitsPerOne := by
  rw [toRat, absRat_eq, signedUnits]
  split
  · rw [Int.cast_neg, Int.cast_natCast, neg_div]
  · rw [Int.cast_natCast]

/-- A number is an integer if its least steps are as many as those of the integer. -/
theorem toRat_eq_intCast_iff {x : Binary64} {n : Int} :
    x.toRat = n ↔ x.signedUnits = n * unitsPerOne := by
  rw [toRat_eq, div_eq_iff cast_unitsPerOne_ne_zero, ← Int.cast_natCast unitsPerOne,
    ← Int.cast_mul, Rat.intCast_inj]

/-! ## 2. Integers -/

theorem natAbs_signedUnits (x : Binary64) : x.signedUnits.natAbs = x.units := by
  unfold signedUnits
  split <;> omega

theorem units_of_toRat_eq {x : Binary64} {n : Int} (h : x.toRat = n) :
    x.units = n.natAbs * unitsPerOne := by
  rw [← natAbs_signedUnits, toRat_eq_intCast_iff.mp h, Int.natAbs_mul, Int.natAbs_natCast]

/-- **A number is read as an integer exactly if it is finite and stands for the integer.** -/
theorem toInt?_eq_some_iff {x : Binary64} {n : Int} :
    x.toInt? = some n ↔ x.isFinite = true ∧ x.toRat = n := by
  constructor
  · intro h
    unfold toInt? at h
    split at h
    · rename_i hx
      obtain ⟨hfinite, hmod⟩ := Bool.and_eq_true_iff.mp hx
      have hunits : x.units / unitsPerOne * unitsPerOne = x.units :=
        Nat.div_mul_cancel (Nat.dvd_of_mod_eq_zero (beq_iff_eq.mp hmod))
      refine ⟨hfinite, toRat_eq_intCast_iff.mpr ?_⟩
      cases h
      unfold signedUnits
      split
      · rw [Int.neg_mul, ← Int.natCast_mul, hunits]
      · rw [← Int.natCast_mul, hunits]
    · cases h
  · intro ⟨hfinite, h⟩
    have hunits := units_of_toRat_eq h
    have hsigned := toRat_eq_intCast_iff.mp h
    rw [toInt?, hfinite, hunits, Nat.mul_mod_left, Nat.mul_div_cancel _ unitsPerOne_pos]
    refine congrArg some ?_
    refine Int.eq_of_mul_eq_mul_right (Int.natCast_ne_zero.mpr (Nat.ne_of_gt unitsPerOne_pos)) ?_
    rw [← hsigned, signedUnits, hunits]
    split
    · rw [Int.neg_mul, Int.natCast_mul]
    · rw [Int.natCast_mul]

/-! ## 3. Rounded integers -/

/-- The digits of a finite magnitude beyond the 53 first ones are zeros. -/
theorem two_pow_surplus_dvd_unitsOf (m : Nat) : 2 ^ surplus (unitsOf m) ∣ unitsOf m := by
  by_cases hsmall : m < 2 ^ 52
  · have hunits : unitsOf m = m := if_pos hsmall
    have hsurplus : surplus m = 0 := surplus_of_lt (by omega)
    rw [hunits, hsurplus]
    exact Nat.one_dvd m
  · rw [surplus_unitsOf (by omega), unitsOf, if_neg hsmall]
    exact Nat.dvd_mul_left ..

/-- **An integer that is the value of a magnitude ends in zeros after its 53 first digits**, so it
    is kept as it is. -/
theorem condense_of_units {n m : Nat} (h : n * unitsPerOne = unitsOf m) : condense n = n := by
  by_cases hsmall : n < 2 ^ 64
  · exact condense_of_lt hsmall
  · have hn : n ≠ 0 := by omega
    have hlog : 64 ≤ n.log2 := (Nat.le_log2 hn).2 (by omega)
    have hdvd := two_pow_surplus_dvd_unitsOf m
    have hexponent : n.log2 + 1022 = n.log2 - 52 + places := by
      rw [places]
      omega
    rw [← h, surplus_mul_unitsPerOne hn, hexponent, Nat.pow_add] at hdvd
    have htail : 2 ^ (n.log2 - 63) ∣ n :=
      Nat.dvd_trans (Nat.pow_dvd_pow 2 (by omega))
        (Nat.dvd_of_mul_dvd_mul_right unitsPerOne_pos hdvd)
    exact condense_of_tail_zero (by omega) (Nat.mod_eq_zero_of_dvd htail)

/-- **An integer that is a finite number becomes this number**, up to the sign of zero. -/
theorem ofInt_of_toRat {x : Binary64} {n : Int} (hx : x.isFinite = true) (h : x.toRat = n) :
    (ofInt n).isFinite = true ∧ (ofInt n).toRat = n := by
  have hunits := units_of_toRat_eq h
  have hfinite : x.magnitude < infiniteMagnitude := of_decide_eq_true hx
  have hmagnitude : (ofInt n).magnitude = x.magnitude := by
    show roundUnits (condense n.natAbs * unitsPerOne) 1 = x.magnitude
    rw [condense_of_units hunits.symm, ← hunits]
    exact roundUnits_unitsOf hfinite
  refine ⟨?_, toRat_eq_intCast_iff.mpr ?_⟩
  · rw [isFinite, hmagnitude]
    exact hx
  · have hn : (ofInt n).units = n.natAbs * unitsPerOne := by
      rw [units, hmagnitude]
      exact hunits
    have hnegative : (ofInt n).negative = decide (n < 0) := rfl
    rw [signedUnits, hn, hnegative, Int.natCast_mul]
    by_cases hsign : n < 0
    · rw [if_pos (decide_eq_true hsign), ← Int.neg_mul]
      exact congrArg (· * (unitsPerOne : Int)) (by omega)
    · rw [decide_eq_false hsign, if_neg Bool.false_ne_true]
      exact congrArg (· * (unitsPerOne : Int)) (by omega)

end Binary64

end Abacus
