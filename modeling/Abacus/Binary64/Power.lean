import Abacus.Binary64.Arithmetic

/-!
# Powers

A power of a finite base other than zero and one, with a finite exponent, is what the machine's
`Float.pow` gives for the absolute value of the base. All other powers are decided here, and so is
the sign:

* a signal among the operands gives no number;
* otherwise the exponent zero and the base one give one, whatever the other operand is;
* an infinite exponent compares the base with one, and a base of absolute value one gives one;
* a negative base needs an integer as exponent, and an odd exponent keeps its sign;
* a base of absolute value two or more with an exponent of 1024 or more is beyond the finite
  numbers, so the result is infinite without further computation.

Main statements: `pow_zero_exponent`, `pow_base_one`.
-/

namespace Abacus

namespace Binary64

/-- The number is an integer that two does not divide. -/
def isOdd (x : Binary64) : Bool :=
  match x.toInt? with
  | some n => n % 2 == 1
  | none => false

/-- The number is an integer. -/
def isInteger (x : Binary64) : Bool := x.toInt?.isSome

/-- The magnitude of two. -/
def twoMagnitude : Nat := 1024 * 2 ^ 52

/-- The magnitude of 1024, the exponent from which on powers of two are no longer finite. -/
def overflowMagnitude : Nat := 1033 * 2 ^ 52

/-- The machine's power of two numbers. -/
def machinePower (x y : Binary64) : Binary64 :=
  let power := Float.pow (Float.ofBits (UInt64.ofNat x.bits)) (Float.ofBits (UInt64.ofNat y.bits))
  ofBits power.toBits.toNat

/-- The magnitude of a power whose base is positive and finite and whose exponent is finite. -/
def powerMagnitude (x y : Binary64) : Nat :=
  if twoMagnitude ≤ x.magnitude && !y.negative && decide (overflowMagnitude ≤ y.magnitude) then
    infiniteMagnitude
  else (machinePower x y).magnitude

/-- The power of a base other than one with an exponent other than zero, both numbers. -/
def powNumber (x y : Binary64) : Binary64 :=
  let negative := x.negative && y.isOdd
  if y.isInfinite then
    if x.magnitude = one.magnitude then one
    else if decide (one.magnitude < x.magnitude) != y.negative then infinity false
    else zero false
  else if x.isInfinite then
    if y.negative then zero negative else infinity negative
  else if x.isZero then
    if y.negative then infinity negative else zero negative
  else if x.negative && !y.isInteger then nan
  else if x.magnitude = one.magnitude then { one with negative := negative }
  else ofMagnitude negative (powerMagnitude x.abs y)

/-- The power. -/
def pow (x y : Binary64) : Binary64 :=
  if x.isSignal || y.isSignal then nan
  else if y.isZero || x = one then one
  else if x.isNaN || y.isNaN then nan
  else powNumber x y

/-- Zero is no signal. -/
theorem isSignal_of_isZero {x : Binary64} (h : x.isZero = true) : x.isSignal = false := by
  simp only [isZero, beq_iff_eq] at h
  simp [isSignal, isNaN, h]

/-- Every base but a signal has the power one for the exponent zero, even what is no number. -/
theorem pow_zero_exponent {x y : Binary64} (hx : x.isSignal = false) (h : y.isZero = true) :
    x.pow y = one := by
  simp [pow, h, hx, isSignal_of_isZero h]

/-- Every power of one is one unless the exponent is a signal, even for an exponent that is no
    number. -/
theorem pow_base_one {y : Binary64} (hy : y.isSignal = false) : one.pow y = one := by
  have h1 : one.isSignal = false := by decide
  simp [pow, hy, h1]

end Binary64

end Abacus
