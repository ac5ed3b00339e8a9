import Abacus.Value

/-!
# Integers or binary numbers

An operation is done in one of two ways. Some pairs of integers have a result that is computed with
integers (`Operator.InIntegers`): all of them a sum, a difference and a product, those that divide
evenly a quotient, and those with an exponent of 32 digits at most a power. All other operands are
turned into binary numbers, and the binary result is checked (`Operator.applyBinary`). Two faults
are found before that, a division by zero and a negative power of zero.

Main statement: what is not done with integers is done with binary numbers
(`Operator.apply_of_not_inIntegers`).
-/

namespace Abacus

namespace Operator

/-- The two integers have a result that is computed with integers. -/
def IsExact : Operator → Int → Int → Prop
  | .add, _, _ => True
  | .sub, _, _ => True
  | .mul, _, _ => True
  | .div, l, r => r ∣ l
  | .pow, _, e => 0 ≤ e ∧ e < 2 ^ (32 : Nat)

/-- The operation is done with integers. -/
def InIntegers (op : Operator) (a b : Value) : Prop :=
  ∃ l r, a = .integer l ∧ b = .integer r ∧ op.IsExact l r

theorem not_inIntegers_float {op : Operator} {x : Binary64} {b : Value} :
    ¬op.InIntegers (.float x) b := by
  intro ⟨l, r, ha, _⟩
  cases ha

/-- The operation on binary numbers. -/
def onBinary : Operator → Binary64 → Binary64 → Binary64
  | .add => Binary64.add
  | .sub => Binary64.sub
  | .mul => Binary64.mul
  | .div => Binary64.div
  | .pow => Binary64.pow

/-- The fault that is found before a binary number is computed. -/
def fault? : Operator → Value → Value → Option Fault
  | .div, _, b => if b.isZero then some .divisionByZero else none
  | .pow, a, b => if a.isZero && b.isNegative then some .zeroToNegativePower else none
  | _, _, _ => none

/-- The operation on the binary numbers of two values. -/
def applyBinary (op : Operator) (a b : Value) : Except Fault Value :=
  match op.fault? a b with
  | some fault => .error fault
  | none => Value.checked op (op.onBinary a.toBinary64 b.toBinary64)

theorem applyBinary_div (a b : Value) : applyBinary .div a b =
    if b.isZero then .error .divisionByZero
    else Value.checked .div (a.toBinary64.div b.toBinary64) := by
  simp only [applyBinary, fault?]
  cases b.isZero <;> rfl

theorem applyBinary_pow (a b : Value) : applyBinary .pow a b =
    if a.isZero && b.isNegative then .error .zeroToNegativePower else a.binaryPow b := by
  simp only [applyBinary, fault?]
  cases a.isZero && b.isNegative <;> rfl

/-- **What is not done with integers is done with binary numbers.** -/
theorem apply_of_not_inIntegers {op : Operator} {a b : Value} (h : ¬op.InIntegers a b) :
    op.apply a b = op.applyBinary a b := by
  have hexact (l r : Int) : a = .integer l → b = .integer r → ¬op.IsExact l r :=
    fun ha hb hop => h ⟨l, r, ha, hb, hop⟩
  cases op with
  | add | sub | mul =>
    cases a with
    | float x => rfl
    | integer l =>
      cases b with
      | float y => rfl
      | integer r => exact absurd trivial (hexact l r rfl rfl)
  | div =>
    have hquotient : Value.quotient a b = a.toBinary64.div b.toBinary64 := by
      cases a with
      | float x => rfl
      | integer l =>
        cases b with
        | float y => rfl
        | integer r => exact if_neg fun hmod => hexact l r rfl rfl (Int.dvd_of_emod_eq_zero hmod)
    rw [apply, Value.div, applyBinary_div, hquotient]
  | pow =>
    have hpower : Value.powDefined a b = a.binaryPow b := by
      cases a with
      | float x => rfl
      | integer l =>
        cases b with
        | float y => rfl
        | integer r =>
          have hnone : Value.exactExponent? r = none := if_neg (hexact l r rfl rfl)
          rw [Value.powDefined, hnone]
    rw [apply, Value.pow, applyBinary_pow, hpower]

end Operator

end Abacus
