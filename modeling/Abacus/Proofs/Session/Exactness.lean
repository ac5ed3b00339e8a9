import Abacus.Proofs.Value.Powers
import Abacus.Proofs.Value.Routes
import Abacus.Session

/-!
# Exact integers

Whether a value is an integer is settled only when the program runs: by the constants, by the values
that the names have, and by the size of an exponent. This file says what an expression stands for
among the integers alone (`Expr.integer?`). A binary number is nothing there, and neither is a
quotient, nor a power whose exponent is negative or has more than 32 digits.

An operation gives an integer only if both operands are integers and the result is the exact one
(`Operator.apply_eq_integer_iff`), since what is computed with binary numbers is a binary number.
From the operands this goes up through the whole tree.

Main statement: the value of an expression is an integer exactly if the expression stands for this
integer (`Expr.eval_eq_integer_iff`).
-/

namespace Abacus

/-! ## 1. Integers alone -/

/-- The exact result of an operation on integers that has integers as its results. -/
def Operator.integerResult? : Operator → Int → Int → Option Int
  | .add, l, r => some (l + r)
  | .sub, l, r => some (l - r)
  | .mul, l, r => some (l * r)
  | .div, _, _ => none
  | .pow, b, e => if 0 ≤ e ∧ e < 2 ^ (32 : Nat) then some (b ^ e.toNat) else none

/-- The integer, if the value is one. -/
def Value.integer? : Value → Option Int
  | .integer n => some n
  | .float _ => none

/-- The exact integer that an expression stands for. -/
def Expr.integer? (scopes : Scopes Value) : Expr → Option Int
  | .constant v => v.integer?
  | .name x => (scopes.get? x).bind Value.integer?
  | .paren e => e.integer? scopes
  | .binary op left right =>
    (left.integer? scopes).bind fun l => (right.integer? scopes).bind fun r => op.integerResult? l r

/-! ## 2. Operations -/

namespace Value

theorem integer?_eq_some_iff {v : Value} {n : Int} : v.integer? = some n ↔ v = .integer n := by
  cases v with
  | integer m => rw [integer?, Option.some.injEq, integer.injEq]
  | float x => exact ⟨nofun, nofun⟩

/-- A binary result is no integer. -/
theorem checked_ne_integer (op : Operator) (x : Binary64) (n : Int) :
    checked op x ≠ .ok (.integer n) := by
  intro h
  cases (checked_isFinite h).1

theorem div_ne_integer (a b : Value) (n : Int) : a.div b ≠ .ok (.integer n) := by
  unfold div
  split
  · exact nofun
  · exact checked_ne_integer _ _ _

end Value

namespace Operator

theorem applyBinary_ne_integer (op : Operator) (a b : Value) (n : Int) :
    op.applyBinary a b ≠ .ok (.integer n) := by
  unfold applyBinary
  split
  · exact nofun
  · exact Value.checked_ne_integer _ _ _

/-- Two integers with an exact result have it as their result. -/
theorem apply_integers {op : Operator} {l r n : Int} (h : op.integerResult? l r = some n) :
    op.apply (.integer l) (.integer r) = .ok (.integer n) := by
  cases op with
  | add | sub | mul =>
    cases h
    rfl
  | div => cases h
  | pow =>
    simp only [integerResult?] at h
    split at h
    · rename_i hr
      cases h
      exact Value.pow_of_lt hr.1 hr.2
    · cases h

/-- What is done with integers gives the exact result, or no integer. -/
theorem integerResult?_of_isExact {op : Operator} {l r n : Int} (hop : op.IsExact l r)
    (h : op.apply (.integer l) (.integer r) = .ok (.integer n)) :
    op.integerResult? l r = some n := by
  cases op with
  | add | sub | mul =>
    cases h
    rfl
  | div => exact absurd h (Value.div_ne_integer _ _ n)
  | pow =>
    have hpower := Value.pow_of_lt (b := l) hop.1 hop.2
    rw [apply, hpower] at h
    cases h
    exact if_pos hop

/-- **An operation gives an integer exactly if its operands are integers with this result.** -/
theorem apply_eq_integer_iff {op : Operator} {a b : Value} {n : Int} :
    op.apply a b = .ok (.integer n) ↔
      ∃ l r, a = .integer l ∧ b = .integer r ∧ op.integerResult? l r = some n := by
  constructor
  · intro h
    by_cases hintegers : op.InIntegers a b
    · obtain ⟨l, r, rfl, rfl, hop⟩ := hintegers
      exact ⟨l, r, rfl, rfl, integerResult?_of_isExact hop h⟩
    · rw [apply_of_not_inIntegers hintegers] at h
      exact absurd h (applyBinary_ne_integer op a b n)
  · intro ⟨l, r, ha, hb, h⟩
    rw [ha, hb]
    exact apply_integers h

end Operator

/-! ## 3. Expressions -/

/-- A name has an integer as its value exactly if the innermost scope that knows it says so. -/
theorem Scopes.lookup_eq_integer_iff {scopes : Scopes Value} {x : String} {n : Int} :
    scopes.lookup x = .ok (.integer n) ↔ (scopes.get? x).bind Value.integer? = some n := by
  unfold lookup
  cases scopes.get? x with
  | none => exact ⟨nofun, nofun⟩
  | some v => rw [Option.bind_some, Value.integer?_eq_some_iff, Except.ok.injEq]

/-- A compound expression has a value only if its operands have values, and it is their result. -/
theorem Expr.eval_binary_eq_ok_iff {scopes : Scopes Value} {op : Operator} {left right : Expr}
    {v : Value} :
    (Expr.binary op left right).eval scopes = .ok v ↔
      ∃ a b, left.eval scopes = .ok a ∧ right.eval scopes = .ok b ∧ op.apply a b = .ok v := by
  rw [eval_binary]
  cases left.eval scopes with
  | error error => simp
  | ok a =>
    cases right.eval scopes with
    | error error => simp
    | ok b =>
      cases h : op.apply a b with
      | error fault => simp [h]
      | ok w => simp [h]

/-- **Integers are exact.** The value of an expression is an integer exactly if the expression
    stands for this integer, whatever the scopes hold. -/
theorem Expr.eval_eq_integer_iff (scopes : Scopes Value) (e : Expr) (n : Int) :
    e.eval scopes = .ok (.integer n) ↔ e.integer? scopes = some n := by
  induction e generalizing n with
  | constant v => rw [eval_constant, integer?, Value.integer?_eq_some_iff, Except.ok.injEq]
  | name x => exact Scopes.lookup_eq_integer_iff
  | paren e ih => exact ih n
  | binary op left right ihl ihr =>
    rw [eval_binary_eq_ok_iff, integer?]
    constructor
    · intro ⟨a, b, ha, hb, h⟩
      obtain ⟨l, r, rfl, rfl, hop⟩ := Operator.apply_eq_integer_iff.mp h
      rw [(ihl l).mp ha, (ihr r).mp hb]
      exact hop
    · intro h
      obtain ⟨l, hl, h⟩ := Option.bind_eq_some_iff.mp h
      obtain ⟨r, hr, hop⟩ := Option.bind_eq_some_iff.mp h
      exact ⟨_, _, (ihl l).mpr hl, (ihr r).mpr hr, Operator.apply_integers hop⟩

end Abacus
