import Abacus.Binary64.Rounding

/-!
# Sum, difference, product and quotient

Each operation computes the exact result in least steps `2 ^ (-1074)` and rounds it once. What is
left are the infinities, the signs of zero and the results without a value, and this file fixes
them:

* `add`: infinities of opposite signs have no sum; an exact zero is negative only if both operands
  are;
* `mul`: an infinity and a zero have no product;
* `div`: two infinities and two zeros have no quotient; a zero divisor gives an infinity.

Main statement: what is rounded is always a number, never a result without a value
(`isNaN_ofUnits`).
-/

namespace Abacus

namespace Binary64

/-! ## 1. The operations -/

/-- The sum. -/
def add (x y : Binary64) : Binary64 :=
  if x.isNaN || y.isNaN then nan
  else if x.isInfinite then
    if y.isInfinite && x.negative != y.negative then nan else x
  else if y.isInfinite then y
  else
    let sum := x.signedUnits + y.signedUnits
    if sum = 0 then zero (x.negative && y.negative)
    else ofUnits (decide (sum < 0)) sum.natAbs 1

/-- The difference: the sum with the other sign. -/
def sub (x y : Binary64) : Binary64 := x.add y.neg

/-- The product. -/
def mul (x y : Binary64) : Binary64 :=
  if x.isNaN || y.isNaN then nan
  else if x.isInfinite || y.isInfinite then
    if x.isZero || y.isZero then nan else infinity (x.negative != y.negative)
  else ofUnits (x.negative != y.negative) (x.units * y.units) unitsPerOne

/-- The quotient. -/
def div (x y : Binary64) : Binary64 :=
  if x.isNaN || y.isNaN then nan
  else if x.isInfinite then
    if y.isInfinite then nan else infinity (x.negative != y.negative)
  else if y.isInfinite then zero (x.negative != y.negative)
  else if y.isZero then
    if x.isZero then nan else infinity (x.negative != y.negative)
  else ofUnits (x.negative != y.negative) (x.units * unitsPerOne) y.units

/-! ## 2. Numbers -/

/-- **A rounded number is a number.** -/
theorem isNaN_ofUnits (s : Bool) (num den : Nat) : (ofUnits s num den).isNaN = false :=
  decide_eq_false (Nat.not_lt.2 (roundUnits_le num den))

theorem isFinite_isNaN {x : Binary64} (h : x.isFinite = true) : x.isNaN = false := by
  simp only [isFinite, isNaN, decide_eq_true_eq, decide_eq_false_iff_not] at *
  omega

theorem isFinite_isInfinite {x : Binary64} (h : x.isFinite = true) : x.isInfinite = false := by
  simp only [isFinite, isInfinite, decide_eq_true_eq, beq_eq_false_iff_ne] at *
  omega

end Binary64

end Abacus
