import Abacus.Proofs.Binary64.Integers
import Abacus.Value

/-!
# Powers of integers

The power of two integers is exact as long as the exponent is from zero below `2 ^ 32`. With a
larger exponent both become binary numbers, and this file says what is left of the power:

* a base of absolute value two or more has an infinite power, so there is no result
  (`isInfinite_pow_ofInt`);
* the powers of zero and one are zero and one (`pow_zero_ofInt`, `pow_one_ofInt`);
* the powers of minus one are one or minus one, as the exponent is even or odd among the binary
  numbers (`pow_minusOne_ofInt`). There an odd exponent beyond `2 ^ 53` has lost its last digit.

Main statement: a power of integers with an exponent that is not negative is printed exactly, but
for minus one with an odd exponent beyond `2 ^ 53`, and it has a result unless a base of absolute
value two or more has an exponent from `2 ^ 32` on (`toPrinted_pow_iff`).
-/

namespace Abacus

namespace Binary64

/-! ## 1. Bases -/

theorem ofInt_zero : ofInt 0 = zero false := by decide +kernel

theorem ofInt_one : ofInt 1 = one := by decide +kernel

theorem ofInt_minusOne : ofInt (-1) = one.neg := by decide +kernel

theorem pow_one_ofInt (e : Int) : (ofInt 1).pow (ofInt e) = one := by
  rw [ofInt_one]
  exact pow_base_one (by rw [isSignal, isNaN_ofInt, Bool.false_and])

/-- A base of absolute value two or more is so as a binary number. -/
theorem twoMagnitude_le {b : Int} (hb : 2 ≤ b.natAbs) : twoMagnitude ≤ (ofInt b).magnitude :=
  le_magnitude_ofInt (k := 1) (by decide) hb

/-! ## 2. Large exponents -/

section Exponents

variable {e : Int} (he : 2 ^ (10 : Nat) ≤ e)

include he

theorem ofInt_negative_of_le : (ofInt e).negative = false := decide_eq_false (by omega)

/-- From 1024 on an exponent is too large for a power of two. -/
theorem overflowMagnitude_le : overflowMagnitude ≤ (ofInt e).magnitude :=
  le_magnitude_ofInt (k := 10) (by decide) (by omega)

theorem isZero_ofInt_of_le : (ofInt e).isZero = false := by
  have hmagnitude := overflowMagnitude_le he
  rw [isZero, beq_eq_false_iff_ne]
  unfold overflowMagnitude at hmagnitude
  omega

/-- The power of a base that is not one. -/
theorem pow_ofInt_of_ne {x : Binary64} (hx : x.isNaN = false) (h1 : x ≠ one) :
    x.pow (ofInt e) = powNumber x (ofInt e) := by
  simp [pow, isSignal, hx, isNaN_ofInt, isZero_ofInt_of_le he, h1]

theorem pow_zero_ofInt : (ofInt 0).pow (ofInt e) = zero false := by
  rw [ofInt_zero, pow_ofInt_of_ne he (by decide) (by decide), powNumber, ofInt_negative_of_le he]
  split
  · rfl
  · rfl

/-- Minus one has a power for every exponent. The exponent as a binary number decides its sign. -/
theorem pow_minusOne_ofInt :
    (ofInt (-1)).pow (ofInt e) = { one with negative := (ofInt e).isOdd } := by
  have hmagnitude : one.neg.magnitude = one.magnitude := rfl
  have hnegative : one.neg.negative = true := rfl
  rw [ofInt_minusOne, pow_ofInt_of_ne he (by decide) (by decide), powNumber]
  by_cases hinfinite : (ofInt e).isInfinite = true
  · have hodd : (ofInt e).isOdd = false := by
      rw [isOdd, toInt?_of_isInfinite hinfinite]
    rw [if_pos hinfinite, if_pos hmagnitude, hodd]
    rfl
  · rw [if_neg hinfinite, isInteger_ofInt hinfinite, if_neg (by decide), if_neg (by decide),
      Bool.not_true, Bool.and_false, if_neg Bool.false_ne_true, if_pos hmagnitude, hnegative,
      Bool.true_and]

/-- **The power of a base of absolute value two or more is infinite.** -/
theorem isInfinite_pow_ofInt {b : Int} (hb : 2 ≤ b.natAbs) :
    ((ofInt b).pow (ofInt e)).isInfinite = true := by
  have hmagnitude := twoMagnitude_le hb
  have hone : one.magnitude < (ofInt b).magnitude := Nat.lt_of_lt_of_le (by decide) hmagnitude
  have hne : ofInt b ≠ one := fun h => by
    rw [h] at hone
    exact Nat.lt_irrefl _ hone
  have hzero : (ofInt b).isZero = false := by
    rw [isZero, beq_eq_false_iff_ne]
    omega
  rw [pow_ofInt_of_ne he (isNaN_ofInt b) hne, powNumber, ofInt_negative_of_le he]
  by_cases hinfinite : (ofInt e).isInfinite = true
  · rw [if_pos hinfinite, if_neg (Nat.ne_of_gt hone), decide_eq_true hone]
    rfl
  · rw [if_neg hinfinite, isInteger_ofInt hinfinite]
    by_cases hbase : (ofInt b).isInfinite = true
    · rw [if_pos hbase]
      rfl
    · rw [if_neg hbase, hzero, Bool.not_true, Bool.and_false, if_neg (Nat.ne_of_gt hone)]
      have hpower : powerMagnitude (ofInt b).abs (ofInt e) = infiniteMagnitude := by
        have habs : twoMagnitude ≤ (ofInt b).abs.magnitude := hmagnitude
        rw [powerMagnitude, ofInt_negative_of_le he, decide_eq_true habs,
          decide_eq_true (overflowMagnitude_le he)]
        exact if_pos rfl
      rw [hpower]
      rfl

end Exponents

end Binary64

namespace Value

open Binary64

/-! ## 3. Results -/

theorem checked_of_isInfinite (op : Operator) {x : Binary64} (h : x.isInfinite = true) :
    checked op x = .error (.outOfRange op) := by
  simp [checked, h, isNaN_of_isInfinite h]

theorem checked_of_isFinite (op : Operator) {x : Binary64} (h : x.isFinite = true) :
    checked op x = .ok (.float x) := by
  simp [checked, isFinite_isNaN h, isFinite_isInfinite h]

/-- A number of 53 digits at most is printed as the integer that it comes from. -/
theorem toPrinted_float_ofInt {n : Int} (h : n.natAbs < 2 ^ 53) :
    (float (ofInt n)).toPrinted = .integer n := by
  rw [toPrinted, toInt?_ofInt_of_lt h]

section Powers

variable {b e : Int}

theorem pow_of_lt (he : 0 ≤ e) (hlt : e < exponentLimit) :
    (integer b).pow (integer e) = .ok (integer (b ^ e.toNat)) := by
  have hnegative : (integer e).isNegative = false := decide_eq_false (by omega)
  rw [pow, hnegative, Bool.and_false, if_neg Bool.false_ne_true, powDefined, exactExponent?,
    if_pos ⟨he, hlt⟩]

/-- With an exponent that is too large the power is taken in binary numbers. -/
theorem pow_of_le (hle : exponentLimit ≤ e) :
    (integer b).pow (integer e) = checked .pow ((ofInt b).pow (ofInt e)) := by
  unfold exponentLimit at hle
  have hnegative : (integer e).isNegative = false := decide_eq_false (by omega)
  have hnone : exactExponent? e = none := if_neg (by unfold exponentLimit; omega)
  rw [pow, hnegative, Bool.and_false, if_neg Bool.false_ne_true, powDefined, hnone]
  rfl

/-- The powers of zero, one and minus one. Minus one has the power one for an odd exponent that has
    lost its last digit. -/
theorem pow_of_natAbs_le_one (hle : exponentLimit ≤ e) (hb : b.natAbs ≤ 1) :
    (integer b).pow (integer e) =
      .ok (float (ofInt (if b = -1 ∧ ¬(e % 2 = 1 ∧ e.natAbs < 2 ^ 53) then 1 else b))) := by
  have he : 2 ^ (10 : Nat) ≤ e := by
    unfold exponentLimit at hle
    omega
  rw [pow_of_le hle]
  have hcases : b = 0 ∨ b = 1 ∨ b = -1 := by omega
  rcases hcases with rfl | rfl | rfl
  · rw [pow_zero_ofInt he, checked_of_isFinite .pow rfl, if_neg (by omega), ofInt_zero]
  · rw [pow_one_ofInt, checked_of_isFinite .pow rfl, if_neg (by omega), ofInt_one]
  · rw [pow_minusOne_ofInt he, isOdd_ofInt, checked_of_isFinite .pow rfl]
    by_cases hodd : e % 2 = 1 ∧ e.natAbs < 2 ^ 53
    · rw [decide_eq_true hodd, if_neg fun h => h.2 hodd, ofInt_minusOne]
      rfl
    · rw [decide_eq_false hodd, if_pos ⟨rfl, hodd⟩, ofInt_one]
      rfl

/-- There is a result for a base of absolute value one at most, and for an exponent that is not too
    large. -/
theorem exists_pow_iff (he : 0 ≤ e) :
    (∃ v, (integer b).pow (integer e) = .ok v) ↔ e < exponentLimit ∨ b.natAbs ≤ 1 := by
  by_cases hlt : e < exponentLimit
  · exact ⟨fun _ => .inl hlt, fun _ => ⟨_, pow_of_lt he hlt⟩⟩
  · have hle : exponentLimit ≤ e := by omega
    by_cases hb : b.natAbs ≤ 1
    · exact ⟨fun _ => .inr hb, fun _ => ⟨_, pow_of_natAbs_le_one hle hb⟩⟩
    · have hlarge : 2 ^ (10 : Nat) ≤ e := by
        unfold exponentLimit at hle
        omega
      have hinfinite := isInfinite_pow_ofInt hlarge (b := b) (by omega)
      rw [pow_of_le hle, checked_of_isInfinite .pow hinfinite]
      refine ⟨nofun, fun h => ?_⟩
      omega

theorem minusOne_pow (n : Nat) : (-1 : Int) ^ n = if n % 2 = 1 then -1 else 1 := by
  induction n with
  | zero => rfl
  | succ n ih =>
    rw [Int.pow_succ, ih]
    by_cases hodd : n % 2 = 1
    · rw [if_pos hodd, if_neg (by omega)]
      rfl
    · rw [if_neg hodd, if_pos (by omega)]
      rfl

/-- The exact power of a base of absolute value one at most. -/
theorem pow_toNat_of_natAbs_le_one (he : 0 < e) (hb : b.natAbs ≤ 1) :
    b ^ e.toNat = if b = -1 ∧ ¬e % 2 = 1 then 1 else b := by
  have hne : e.toNat ≠ 0 := by omega
  have hcases : b = 0 ∨ b = 1 ∨ b = -1 := by omega
  rcases hcases with rfl | rfl | rfl
  · rw [Int.zero_pow hne, if_neg (by omega)]
  · rw [Int.one_pow, if_neg (by omega)]
  · rw [minusOne_pow]
    by_cases hodd : e % 2 = 1
    · rw [if_pos (by omega), if_neg (by omega)]
    · rw [if_neg (by omega), if_pos ⟨rfl, hodd⟩]

/-- **What is printed for a power**: the exact power, but one for a power of minus one with an odd
    exponent beyond `2 ^ 53`. -/
theorem toPrinted_of_pow (he : 0 ≤ e) {v : Value} (h : (integer b).pow (integer e) = .ok v) :
    v.toPrinted =
      .integer (if b = -1 ∧ e % 2 = 1 ∧ 2 ^ (53 : Nat) < e then 1 else b ^ e.toNat) := by
  by_cases hlt : e < exponentLimit
  · rw [pow_of_lt he hlt] at h
    cases h
    unfold exponentLimit at hlt
    rw [if_neg (by omega)]
    rfl
  · have hle : exponentLimit ≤ e := by omega
    have hb : b.natAbs ≤ 1 := ((exists_pow_iff he).mp ⟨v, h⟩).resolve_left hlt
    rw [pow_of_natAbs_le_one hle hb] at h
    cases h
    unfold exponentLimit at hle
    rw [toPrinted_float_ofInt (by split <;> omega), pow_toNat_of_natAbs_le_one (by omega) hb]
    refine congrArg Printed.integer ?_
    by_cases hlost : b = -1 ∧ e % 2 = 1 ∧ 2 ^ (53 : Nat) < e
    · rw [if_pos hlost, if_pos ⟨hlost.1, by omega⟩]
    · rw [if_neg hlost]
      by_cases heven : b = -1 ∧ ¬e % 2 = 1
      · rw [if_pos heven, if_pos (by omega)]
      · rw [if_neg heven, if_neg (by omega)]

end Powers

/-- **When a power of integers is exact.** With an exponent that is not negative it is printed
    exactly, but for minus one with an odd exponent beyond `2 ^ 53`. There is a result unless a base
    of absolute value two or more has an exponent from `2 ^ 32` on. -/
theorem toPrinted_pow_iff {b e : Int} (he : 0 ≤ e) :
    ((∃ v, (integer b).pow (integer e) = .ok v) ↔ e < 2 ^ (32 : Nat) ∨ b.natAbs ≤ 1) ∧
    ∀ v, (integer b).pow (integer e) = .ok v →
      (v.toPrinted = .integer (b ^ e.toNat) ↔ ¬(b = -1 ∧ e % 2 = 1 ∧ 2 ^ (53 : Nat) < e)) := by
  refine ⟨exists_pow_iff he, fun v h => ?_⟩
  rw [toPrinted_of_pow he h]
  by_cases hlost : b = -1 ∧ e % 2 = 1 ∧ 2 ^ (53 : Nat) < e
  · have hpower : b ^ e.toNat = -1 := by
      rw [pow_toNat_of_natAbs_le_one (by omega) (by omega), if_neg (by omega), hlost.1]
    rw [if_pos hlost, hpower]
    exact ⟨fun h => absurd (Printed.integer.inj h) (by decide), fun h => absurd hlost h⟩
  · rw [if_neg hlost]
    exact ⟨fun _ => hlost, fun _ => rfl⟩

/-- Minus one has the power minus one for the last odd exponent before `2 ^ 53`. -/
theorem toPrinted_minusOne_pow :
    (0 : Int) ≤ 2 ^ (53 : Nat) - 1 ∧
    ∃ v, (integer (-1)).pow (integer (2 ^ (53 : Nat) - 1)) = .ok v ∧
      v.toPrinted = .integer ((-1) ^ (2 ^ (53 : Nat) - 1 : Int).toNat) := by
  have he : (0 : Int) ≤ 2 ^ (53 : Nat) - 1 := by omega
  obtain ⟨hexists, hprinted⟩ := toPrinted_pow_iff (b := -1) he
  obtain ⟨v, hv⟩ := hexists.mpr (.inr (by decide))
  exact ⟨he, v, hv, (hprinted v hv).mpr (by omega)⟩

/-- Minus one has the power one for the next odd exponent, though the exact power is minus one. -/
theorem toPrinted_minusOne_pow_beyond :
    ∃ v, (integer (-1)).pow (integer (2 ^ (53 : Nat) + 1)) = .ok v ∧ v.toPrinted = .integer 1 ∧
      (-1 : Int) ^ (2 ^ (53 : Nat) + 1 : Int).toNat = -1 := by
  have he : (0 : Int) ≤ 2 ^ (53 : Nat) + 1 := by omega
  obtain ⟨v, hv⟩ := (exists_pow_iff (b := -1) he).mpr (.inr (by decide))
  refine ⟨v, hv, ?_, ?_⟩
  · rw [toPrinted_of_pow he hv, if_pos (by omega)]
  · rw [pow_toNat_of_natAbs_le_one (by omega) (by decide), if_neg (by omega)]

end Value

end Abacus
