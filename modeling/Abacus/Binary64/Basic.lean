/-!
# Binary floating point numbers of 64 bits

A number is kept as its sign and its magnitude, the 63 bits below the sign. This file fixes what
such a pair stands for:

* the magnitude is ordered as the values are: zero is `0`, the infinity is `infinity`, and what
  lies above it is no number (`isNaN`);
* every finite magnitude is a natural number of least steps `2 ^ (-1074)` (`units`), so that exact
  arithmetic on finite numbers is arithmetic of natural numbers;
* the 64 bit pattern and the pair determine each other (`bits_ofBits`, `ofBits_bits`).
-/

namespace Abacus

-- Powers are the same operation in every module, whatever else a module imports.
@[default_instance 20000]
instance (priority := 2000) powNat : Pow Nat Nat := instPowNat

instance (priority := 2000) powInt : Pow Int Nat := instPowNat

/-- A binary floating point number of 64 bits, as sign and magnitude. -/
@[ext] structure Binary64 where
  /-- The sign bit. Zero has a sign too. -/
  negative : Bool
  /-- The exponent field followed by the fraction field. -/
  magnitude : Nat
  magnitude_lt : magnitude < 2 ^ 63
deriving DecidableEq

namespace Binary64

/-! ## 1. The kinds of numbers -/

/-- The magnitude of the infinities: a full exponent field and no fraction. -/
def infiniteMagnitude : Nat := 2047 * 2 ^ 52

theorem infiniteMagnitude_lt : infiniteMagnitude < 2 ^ 63 := by decide

/-- Both zeros have magnitude zero. -/
def isZero (x : Binary64) : Bool := x.magnitude == 0

/-- A number that stands for a real number. -/
def isFinite (x : Binary64) : Bool := decide (x.magnitude < infiniteMagnitude)

/-- One of the two infinities. -/
def isInfinite (x : Binary64) : Bool := x.magnitude == infiniteMagnitude

/-- No number: the result of an operation without a value. -/
def isNaN (x : Binary64) : Bool := decide (infiniteMagnitude < x.magnitude)

/-- No number, and a signal: the highest bit of the fraction is not set. An operation takes a signal
    for no number where it would overlook any other. -/
def isSignal (x : Binary64) : Bool :=
  x.isNaN && decide (x.magnitude < infiniteMagnitude + 2 ^ 51)

/-- Less than zero. Neither `-0` nor a magnitude above infinity is. -/
def isBelowZero (x : Binary64) : Bool := x.negative && !x.isZero && !x.isNaN

/-- A magnitude with a sign; a magnitude of more than 63 bits becomes infinite. -/
def ofMagnitude (negative : Bool) (magnitude : Nat) : Binary64 :=
  if h : magnitude < 2 ^ 63 then ⟨negative, magnitude, h⟩
  else ⟨negative, infiniteMagnitude, infiniteMagnitude_lt⟩

@[simp] theorem ofMagnitude_negative (s : Bool) (m : Nat) : (ofMagnitude s m).negative = s := by
  unfold ofMagnitude; split <;> rfl

/-- Zero with a sign. -/
def zero (negative : Bool) : Binary64 := ⟨negative, 0, by decide⟩

/-- The number one. -/
def one : Binary64 := ⟨false, 1023 * 2 ^ 52, by decide⟩

/-- Infinity with a sign. -/
def infinity (negative : Bool) : Binary64 := ⟨negative, infiniteMagnitude, infiniteMagnitude_lt⟩

/-- The pattern given for a result without a value. -/
def nan : Binary64 := ⟨false, infiniteMagnitude + 2 ^ 51, by decide⟩

/-- The other sign. -/
def neg (x : Binary64) : Binary64 := { x with negative := !x.negative }

/-- The positive sign. -/
def abs (x : Binary64) : Binary64 := { x with negative := false }

/-- A finite number, an infinity or no number, and only one of these. -/
theorem isFinite_or (x : Binary64) :
    x.isFinite = true ∨ x.isInfinite = true ∨ x.isNaN = true := by
  simp only [isFinite, isInfinite, isNaN, decide_eq_true_eq, beq_iff_eq]
  omega

/-! ## 2. The value in least steps -/

/-- The exponent field. -/
def exponentField (x : Binary64) : Nat := x.magnitude / 2 ^ 52

/-- The fraction field. -/
def fraction (x : Binary64) : Nat := x.magnitude % 2 ^ 52

/-- The value of a magnitude in least steps `2 ^ (-1074)`. With an empty exponent field it is the
    fraction itself; otherwise a leading bit joins the fraction, and each further exponent doubles
    it. -/
def unitsOf (magnitude : Nat) : Nat :=
  if magnitude < 2 ^ 52 then magnitude
  else (2 ^ 52 + magnitude % 2 ^ 52) * 2 ^ (magnitude / 2 ^ 52 - 1)

/-- The absolute value of a finite number in least steps `2 ^ (-1074)`. -/
def units (x : Binary64) : Nat := unitsOf x.magnitude

/-- The value of a finite number in least steps `2 ^ (-1074)`, with its sign. -/
def signedUnits (x : Binary64) : Int := if x.negative then -(x.units : Int) else x.units

/-- The binary places behind the point that the least step reaches. -/
def places : Nat := 1074

/-- How many least steps make one. -/
def unitsPerOne : Nat := 2 ^ places

theorem unitsPerOne_pos : 0 < unitsPerOne := Nat.two_pow_pos places

theorem unitsOf_eq_zero_iff (m : Nat) : unitsOf m = 0 ↔ m = 0 := by
  unfold unitsOf
  split
  · rfl
  · have h := Nat.two_pow_pos (m / 2 ^ 52 - 1)
    have : 0 < (2 ^ 52 + m % 2 ^ 52) * 2 ^ (m / 2 ^ 52 - 1) := Nat.mul_pos (by omega) h
    omega

/-- The integer a number stands for, if it stands for one. -/
def toInt? (x : Binary64) : Option Int :=
  if x.isFinite && x.units % unitsPerOne == 0 then
    some (if x.negative then -((x.units / unitsPerOne : Nat) : Int)
      else ((x.units / unitsPerOne : Nat) : Int))
  else none

/-! ## 3. The bit pattern -/

/-- The 64 bits, read as a natural number. -/
def bits (x : Binary64) : Nat := if x.negative then 2 ^ 63 + x.magnitude else x.magnitude

/-- The number with the given 64 bits; higher bits are ignored. -/
def ofBits (n : Nat) : Binary64 :=
  ⟨decide (2 ^ 63 ≤ n % 2 ^ 64), n % 2 ^ 63, Nat.mod_lt _ (by decide)⟩

theorem bits_lt (x : Binary64) : x.bits < 2 ^ 64 := by
  have := x.magnitude_lt
  unfold bits
  split <;> omega

/-- **The pattern determines the number.** -/
@[simp] theorem ofBits_bits (x : Binary64) : ofBits x.bits = x := by
  have := x.magnitude_lt
  cases hs : x.negative <;>
  · apply Binary64.ext
    · simp only [ofBits, bits, hs]; simp; omega
    · simp only [ofBits, bits, hs]; simp; omega

/-- **The number determines the pattern.** -/
theorem bits_ofBits {n : Nat} (h : n < 2 ^ 64) : (ofBits n).bits = n := by
  simp only [bits, ofBits, decide_eq_true_eq]
  split <;> omega

end Binary64

end Abacus
