import Abacus.Binary64.Power

/-!
# Infinite operands

An infinity among the operands is an infinity or no number in a sum, a difference and a product, and
so it is in a quotient if it is divided. This file says so, and it says where an infinity is lost:

* a finite number divided by an infinity is zero (`div_of_isInfinite_right`);
* an infinite exponent gives one for a base of absolute value one, and zero on the side of one where
  the powers vanish (`pow_of_isInfinite_right`);
* an infinite base gives one for the exponent zero, and zero for an exponent below
  (`pow_of_isInfinite_left`).
-/

namespace Abacus

namespace Binary64

variable {x y : Binary64}

/-! ## 1. Kinds -/

theorem isFinite_of_isInfinite (h : x.isInfinite = true) : x.isFinite = false :=
  decide_eq_false (Nat.not_lt.mpr (Nat.le_of_eq (beq_iff_eq.mp h).symm))

theorem isNaN_of_isInfinite (h : x.isInfinite = true) : x.isNaN = false :=
  decide_eq_false (Nat.not_lt.mpr (Nat.le_of_eq (beq_iff_eq.mp h)))

theorem isZero_of_isInfinite (h : x.isInfinite = true) : x.isZero = false := by
  have hmagnitude : x.magnitude = infiniteMagnitude := beq_iff_eq.mp h
  rw [isZero, hmagnitude]
  decide

theorem isFinite_of_isNaN (h : x.isNaN = true) : x.isFinite = false :=
  decide_eq_false (Nat.not_lt.mpr (Nat.le_of_lt (of_decide_eq_true h)))

theorem isZero_of_isNaN (h : x.isNaN = true) : x.isZero = false :=
  beq_eq_false_iff_ne.mpr (Nat.ne_of_gt (Nat.zero_lt_of_lt (of_decide_eq_true h)))

theorem isFinite_nan : nan.isFinite = false := by decide

theorem isFinite_infinity (s : Bool) : (infinity s).isFinite = false :=
  decide_eq_false (Nat.lt_irrefl _)

theorem isFinite_of_isZero (h : x.isZero = true) : x.isFinite = true := by
  rw [isFinite, beq_iff_eq.mp h]
  decide

/-! ## 2. Operations that keep an infinity -/

theorem isFinite_add (h : x.isInfinite = true ∨ y.isInfinite = true) :
    (x.add y).isFinite = false := by
  unfold add
  split
  · exact isFinite_nan
  · by_cases hx : x.isInfinite = true
    · rw [if_pos hx]
      split
      · exact isFinite_nan
      · exact isFinite_of_isInfinite hx
    · have hy := h.resolve_left hx
      rw [if_neg hx, if_pos hy]
      exact isFinite_of_isInfinite hy

theorem isFinite_sub (h : x.isInfinite = true ∨ y.isInfinite = true) :
    (x.sub y).isFinite = false := isFinite_add h

theorem isFinite_mul (h : x.isInfinite = true ∨ y.isInfinite = true) :
    (x.mul y).isFinite = false := by
  unfold mul
  split
  · exact isFinite_nan
  · rw [if_pos (Bool.or_eq_true_iff.mpr h)]
    split
    · exact isFinite_nan
    · exact isFinite_infinity _

theorem isFinite_div_left (hx : x.isInfinite = true) : (x.div y).isFinite = false := by
  unfold div
  split
  · exact isFinite_nan
  · split
    · exact isFinite_nan
    · exact isFinite_infinity _

/-! ## 3. Operations that may lose an infinity -/

/-- A finite number divided by an infinity is zero. Any other dividend gives no number. -/
theorem div_of_isInfinite_right (hy : y.isInfinite = true) :
    x.div y = if x.isFinite then zero (x.negative != y.negative) else nan := by
  have hnan := isNaN_of_isInfinite hy
  rcases x.isFinite_or with hx | hx | hx
  · simp [div, hx, hy, hnan, isFinite_isNaN hx, isFinite_isInfinite hx]
  · simp [div, hx, hy, hnan, isFinite_of_isInfinite hx, isNaN_of_isInfinite hx]
  · simp [div, hx, isFinite_of_isNaN hx]

/-- The power with an infinite exponent. -/
theorem pow_of_isInfinite_right (hy : y.isInfinite = true) :
    x.pow y = if x.isNaN then nan else if x.magnitude = one.magnitude then one
      else if decide (one.magnitude < x.magnitude) != y.negative then infinity false
      else zero false := by
  have hsignal : y.isSignal = false := by rw [isSignal, isNaN_of_isInfinite hy, Bool.false_and]
  -- One is a base of its own in `pow`, which is asked for before the exponent is looked at.
  by_cases hx : x.isNaN = true
  · have hone : x ≠ one := by
      intro hone
      rw [hone] at hx
      cases hx
    simp [pow, hx, hsignal, isZero_of_isInfinite hy, hone]
  · have hnumber := Bool.eq_false_iff.mpr hx
    by_cases hone : x = one
    · subst hone
      rw [pow_base_one hsignal]
      rfl
    · simp [pow, powNumber, isSignal, hnumber, isNaN_of_isInfinite hy, isZero_of_isInfinite hy,
        hone, hy]

/-- The power of an infinite base, with an exponent that is finite or no number. -/
theorem pow_of_isInfinite_left (hx : x.isInfinite = true) (hy : y.isInfinite = false) :
    x.pow y = if y.isNaN then nan else if y.isZero then one
      else if y.negative then zero (x.negative && y.isOdd)
      else infinity (x.negative && y.isOdd) := by
  have hone : x ≠ one := by
    intro hone
    rw [hone] at hx
    cases hx
  have hsignal : x.isSignal = false := by rw [isSignal, isNaN_of_isInfinite hx, Bool.false_and]
  by_cases hnan : y.isNaN = true
  · simp [pow, hnan, hone, isZero_of_isNaN hnan]
  · have hnumber := Bool.eq_false_iff.mpr hnan
    rw [if_neg hnan]
    by_cases hzero : y.isZero = true
    · rw [if_pos hzero, pow_zero_exponent hsignal hzero]
    · simp [pow, powNumber, isSignal, hnumber, isNaN_of_isInfinite hx, hzero, hone, hx, hy]

end Binary64

end Abacus
