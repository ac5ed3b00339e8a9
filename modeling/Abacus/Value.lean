import Abacus.Binary64.OfInt
import Abacus.Binary64.Power
import Abacus.Decimal.Layout
import Abacus.Error

/-!
# Values and their arithmetic

A value is an exact integer of any size or a binary floating point number. This file fixes the five
operations on values and the two ways to write one:

* sums, differences and products of integers are exact, and so are powers with an exponent from `0`
  below `2 ^ 32`. Everything else is computed in binary numbers;
* a quotient is always a binary number; two integers that divide evenly are divided exactly first;
* an operation whose binary result is not finite has no result (`checked`);
* a value is printed as an integer whenever it stands for one (`toPrinted`).

Main statements: an operation never gives a binary number that is not finite
(`checked_isFinite`), and printing keeps what is no integer (`toPrinted_float`).
-/

namespace Abacus

/-- A number of the language. -/
inductive Value where
  /-- An exact integer. -/
  | integer (n : Int)
  /-- A binary floating point number. -/
  | float (x : Binary64)
deriving DecidableEq

namespace Value

/-! ## 1. Views -/

/-- The value as a binary number. -/
def toBinary64 : Value → Binary64
  | integer n => Binary64.ofInt n
  | float x => x

/-- The value is zero. -/
def isZero : Value → Bool
  | integer n => n == 0
  | float x => x.isZero

/-- The value is less than zero. -/
def isNegative : Value → Bool
  | integer n => decide (n < 0)
  | float x => x.isBelowZero

/-! ## 2. Operations -/

/-- A binary result, unless it is not finite. -/
def checked (op : Operator) (x : Binary64) : Except Fault Value :=
  if x.isNaN then .error (.notReal op)
  else if x.isInfinite then .error (.outOfRange op)
  else .ok (.float x)

/-- **A checked result is a finite binary number.** -/
theorem checked_isFinite {op : Operator} {x : Binary64} {v : Value} (h : checked op x = .ok v) :
    v = .float x ∧ x.isFinite = true := by
  unfold checked at h
  split at h
  · cases h
  · split at h
    · cases h
    · rename_i h1 h2
      refine ⟨by cases h; rfl, ?_⟩
      rcases x.isFinite_or with h3 | h3 | h3
      · exact h3
      · exact absurd h3 h2
      · exact absurd h3 h1

/-- The sum. -/
def add : Value → Value → Except Fault Value
  | integer a, integer b => .ok (integer (a + b))
  | a, b => checked .add (a.toBinary64.add b.toBinary64)

/-- The difference. -/
def sub : Value → Value → Except Fault Value
  | integer a, integer b => .ok (integer (a - b))
  | a, b => checked .sub (a.toBinary64.sub b.toBinary64)

/-- The product. -/
def mul : Value → Value → Except Fault Value
  | integer a, integer b => .ok (integer (a * b))
  | a, b => checked .mul (a.toBinary64.mul b.toBinary64)

/-- The quotient in binary numbers. Integers that divide evenly are divided before they are
    rounded, so the quotient may be finite even if they are not. -/
def quotient : Value → Value → Binary64
  | integer a, integer b =>
    if a % b = 0 then Binary64.ofInt (a / b) else (Binary64.ofInt a).div (Binary64.ofInt b)
  | a, b => a.toBinary64.div b.toBinary64

/-- The quotient. -/
def div (a b : Value) : Except Fault Value :=
  if b.isZero then .error .divisionByZero else checked .div (quotient a b)

/-- The least exponent that is too large for an exact power. -/
def exponentLimit : Int := 2 ^ (32 : Nat)

/-- The exponent of an exact power. -/
def exactExponent? (e : Int) : Option Nat :=
  if 0 ≤ e ∧ e < exponentLimit then some e.toNat else none

/-- The power in binary numbers. -/
def binaryPow (a b : Value) : Except Fault Value := checked .pow (a.toBinary64.pow b.toBinary64)

/-- The power of a base that is not zero, or with an exponent that is not negative. -/
def powDefined : Value → Value → Except Fault Value
  | integer base, integer e =>
    match exactExponent? e with
    | some n => .ok (integer (base ^ n))
    | none => binaryPow (integer base) (integer e)
  | a, b => binaryPow a b

/-- The power. -/
def pow (a b : Value) : Except Fault Value :=
  if a.isZero && b.isNegative then .error .zeroToNegativePower else powDefined a b

end Value

/-- The operation that an operator stands for. -/
def Operator.apply : Operator → Value → Value → Except Fault Value
  | .add => Value.add
  | .sub => Value.sub
  | .mul => Value.mul
  | .div => Value.div
  | .pow => Value.pow

/-! ## 3. Printed values -/

/-- A value as a print statement shows it. -/
inductive Printed where
  | integer (n : Int)
  | float (x : Binary64)
deriving DecidableEq

namespace Printed

/-- Printed numbers are positional from `0.0001` to below `10 ^ 16`, without a point if they are
    whole; an exponent always has a sign and at least two digits. -/
def layout : Layout where
  plainFrom := -4
  plainBelow := 16
  wholePoint := false
  exponentPlus := true
  exponentWidth := 2

/-- The printed text. -/
def text : Printed → String
  | integer n => n.repr
  | float x => layout.number x

end Printed

namespace Value

/-- A value is printed as an integer whenever it stands for one. -/
def toPrinted : Value → Printed
  | integer n => .integer n
  | float x =>
    match x.toInt? with
    | some n => .integer n
    | none => .float x

/-- A binary number that stands for no integer is printed with the same bits. -/
theorem toPrinted_float {x : Binary64} (h : x.toInt? = none) :
    (float x).toPrinted = .float x := by
  simp [toPrinted, h]

/-- Logged numbers are positional in the same range, always with a point; an exponent has no plus
    sign and no filling. -/
def layout : Layout where
  plainFrom := -4
  plainBelow := 16
  wholePoint := true
  exponentPlus := false
  exponentWidth := 1

/-- The value with its kind, as it appears in the log. -/
def describe : Value → String
  | integer n => "Integer(" ++ n.repr ++ ")"
  | float x => "Float(" ++ layout.number x ++ ")"

end Value

end Abacus
