import Abacus.Binary64.Rounding

/-!
# Decimal numbers

A decimal number is a natural number times a power of ten. This file fixes

* the binary number nearest to it (`nearest`), correctly rounded however long the decimal is;
* its form without trailing zeros (`trim`).

Main statements: moving a zero from the coefficient to the exponent does not change the nearest
binary number (`roundedMagnitude_shift`), so neither does trimming (`roundedMagnitude_trim`); and a
trimmed coefficient other than zero does not end in zero (`trim_coefficient_mod`).
-/

namespace Abacus

/-- The number `coefficient * 10 ^ exponent`. -/
structure Decimal where
  coefficient : Nat
  exponent : Int
deriving DecidableEq

namespace Decimal

/-! ## 1. The nearest binary number -/

/-- The numerator of the number, in least binary steps. -/
def numerator (d : Decimal) : Nat := d.coefficient * 10 ^ d.exponent.toNat * Binary64.unitsPerOne

/-- The denominator of the number. -/
def denominator (d : Decimal) : Nat := 10 ^ (-d.exponent).toNat

theorem denominator_pos (d : Decimal) : 0 < d.denominator := Nat.pow_pos (by decide)

/-- The magnitude of the nearest binary number. -/
def roundedMagnitude (d : Decimal) : Nat := Binary64.roundUnits d.numerator d.denominator

/-- The nearest binary number, with a sign. -/
def nearest (d : Decimal) (negative : Bool) : Binary64 :=
  Binary64.ofUnits negative d.numerator d.denominator

@[simp] theorem nearest_magnitude (d : Decimal) (s : Bool) :
    (d.nearest s).magnitude = d.roundedMagnitude := rfl

@[simp] theorem nearest_negative (d : Decimal) (s : Bool) : (d.nearest s).negative = s := rfl

/-- Zero stays zero, whatever its exponent is. -/
theorem roundedMagnitude_of_coefficient_zero {d : Decimal} (h : d.coefficient = 0) :
    d.roundedMagnitude = 0 := by
  have hnumerator : d.numerator = 0 := by rw [numerator, h, Nat.zero_mul, Nat.zero_mul]
  have hnearest := Binary64.roundHalfEven_mul_left 0 d.denominator_pos
  rw [Nat.zero_mul] at hnearest
  rw [roundedMagnitude, hnumerator, Binary64.roundUnits, Nat.zero_div]
  have hsurplus : Binary64.surplus 0 = 0 := rfl
  rw [hsurplus, Nat.pow_zero, Nat.mul_one, hnearest]
  rfl

/-- **A zero moved from the coefficient to the exponent does not change the number.** -/
theorem roundedMagnitude_shift (c : Nat) (e : Int) :
    roundedMagnitude ⟨c * 10, e⟩ = roundedMagnitude ⟨c, e + 1⟩ := by
  unfold roundedMagnitude numerator denominator
  by_cases h : 0 ≤ e
  · have h1 : (e + 1).toNat = e.toNat + 1 := by omega
    have h2 : (-e).toNat = 0 := by omega
    have h3 : (-(e + 1)).toNat = 0 := by omega
    simp only [h1, h2, h3]
    rw [Nat.pow_succ, Nat.mul_assoc c, Nat.mul_comm 10]
  · have h1 : e.toNat = 0 := by omega
    have h2 : (e + 1).toNat = 0 := by omega
    have h3 : (-e).toNat = (-(e + 1)).toNat + 1 := by omega
    simp only [h1, h2, h3, Nat.pow_zero, Nat.mul_one]
    rw [Nat.pow_succ, Nat.mul_right_comm c 10]
    exact Binary64.roundUnits_mul_right _ _ (by decide)

/-! ## 2. Without trailing zeros -/

/-- The same number with the zeros at the end of the coefficient moved to the exponent. -/
def trim (d : Decimal) : Decimal :=
  if _h : d.coefficient ≠ 0 ∧ d.coefficient % 10 = 0 then
    trim ⟨d.coefficient / 10, d.exponent + 1⟩
  else d
termination_by d.coefficient
decreasing_by
  show d.coefficient / 10 < d.coefficient
  omega

/-- **Trimming keeps the number.** -/
theorem roundedMagnitude_trim (d : Decimal) : d.trim.roundedMagnitude = d.roundedMagnitude := by
  fun_induction trim d with
  | case1 d h ih =>
    rw [ih, ← roundedMagnitude_shift, Nat.div_mul_cancel (Nat.dvd_of_mod_eq_zero h.2)]
  | case2 d h => rfl

/-- **A trimmed number does not end in zero**, unless it is zero. -/
theorem trim_coefficient_mod (d : Decimal) (h : d.coefficient ≠ 0) :
    d.trim.coefficient % 10 ≠ 0 := by
  fun_induction trim d with
  | case1 d h' ih => exact ih (by show d.coefficient / 10 ≠ 0; omega)
  | case2 d h' => omega

end Decimal

end Abacus
