import Abacus.Proofs.Binary64.Infinite
import Abacus.Proofs.Value.Powers
import Abacus.Proofs.Value.Routes

/-!
# Integers beyond the binary numbers

An integer that is too large for a binary number becomes infinite, and an operation with it is
supposed to fail, since its result is then infinite or no number. This is so for sums, differences
and products, but a quotient and a power may lose the infinity (`Operator.Absorbs`): a finite number
divided by the integer is zero, and so are the powers that vanish. Then the operation has a result,
and nothing shows that an integer was too large.

Main statement: an operation in binary numbers with an infinite operand fails exactly if it does not
lose the infinity, and otherwise it gives zero or one (`Operator.apply_of_isInfinite`).
-/

namespace Abacus

open Binary64

/-! ## 1. Lost infinities -/

/-- The result is finite although one of the numbers is infinite: a finite number is divided by
    infinity, or the exponent is infinite and the base is one or on the side of one where the powers
    vanish, or the base is infinite and the exponent is zero or below. -/
def Operator.Absorbs : Operator → Binary64 → Binary64 → Prop
  | .div, x, y => x.isFinite = true ∧ y.isInfinite = true
  | .pow, x, y =>
    if y.isInfinite = true then
      x.isNaN = false ∧
        if y.negative = true then one.magnitude ≤ x.magnitude else x.magnitude ≤ one.magnitude
    else y.isZero = true ∨ y.isBelowZero = true
  | _, _, _ => False

/-- What an infinite operand leads to: either it is lost and the result is zero or one, or it is not
    lost and the result is not finite. -/
def Settles (lost : Prop) (x : Binary64) : Prop :=
  lost ∧ (x.isZero = true ∨ x = one) ∨ ¬lost ∧ x.isFinite = false

namespace Settles

variable {lost : Prop}

theorem at_zero (h : lost) (s : Bool) : Settles lost (zero s) := .inl ⟨h, .inl rfl⟩

theorem at_one (h : lost) : Settles lost one := .inl ⟨h, .inr rfl⟩

theorem at_infinity (h : ¬lost) (s : Bool) : Settles lost (infinity s) :=
  .inr ⟨h, isFinite_infinity s⟩

theorem at_nan (h : ¬lost) : Settles lost nan := .inr ⟨h, isFinite_nan⟩

end Settles

section Infinite

variable {x y : Binary64}

theorem settles_div (h : x.isInfinite = true ∨ y.isInfinite = true) :
    Settles (Operator.Absorbs .div x y) (x.div y) := by
  by_cases hy : y.isInfinite = true
  · rw [div_of_isInfinite_right hy]
    by_cases hx : x.isFinite = true
    · rw [if_pos hx]
      exact .at_zero ⟨hx, hy⟩ _
    · rw [if_neg hx]
      exact .at_nan fun hlost => hx hlost.1
  · exact .inr ⟨fun hlost => hy hlost.2, isFinite_div_left (h.resolve_right hy)⟩

/-- An infinite exponent is lost if the base is one or its powers vanish. -/
theorem settles_pow_right (hy : y.isInfinite = true) :
    Settles (Operator.Absorbs .pow x y) (x.pow y) := by
  have hlost : Operator.Absorbs .pow x y = (x.isNaN = false ∧
      if y.negative = true then one.magnitude ≤ x.magnitude else x.magnitude ≤ one.magnitude) :=
    if_pos hy
  rw [pow_of_isInfinite_right hy, hlost]
  by_cases hnan : x.isNaN = true
  · rw [if_pos hnan, hnan]
    exact .at_nan fun h => Bool.noConfusion h.1
  rw [if_neg hnan, Bool.eq_false_iff.mpr hnan]
  by_cases hone : x.magnitude = one.magnitude
  · rw [if_pos hone, hone, ite_self]
    exact .at_one ⟨rfl, Nat.le_refl _⟩
  rw [if_neg hone]
  cases y.negative with
  | true =>
    by_cases hlt : one.magnitude < x.magnitude
    · rw [decide_eq_true hlt]
      exact .at_zero ⟨rfl, Nat.le_of_lt hlt⟩ false
    · rw [decide_eq_false hlt]
      exact .at_infinity (fun h => hone (Nat.le_antisymm (Nat.not_lt.mp hlt) h.2)) false
  | false =>
    by_cases hlt : one.magnitude < x.magnitude
    · rw [decide_eq_true hlt]
      exact .at_infinity (fun h => Nat.not_le.mpr hlt h.2) false
    · rw [decide_eq_false hlt]
      exact .at_zero ⟨rfl, Nat.not_lt.mp hlt⟩ false

/-- An infinite base is lost if the exponent is zero or below. -/
theorem settles_pow_left (hx : x.isInfinite = true) (hy : ¬y.isInfinite = true) :
    Settles (Operator.Absorbs .pow x y) (x.pow y) := by
  have hlost : Operator.Absorbs .pow x y = (y.isZero = true ∨ y.isBelowZero = true) := if_neg hy
  rw [pow_of_isInfinite_left hx (Bool.eq_false_iff.mpr hy), hlost, isBelowZero]
  by_cases hnan : y.isNaN = true
  · rw [if_pos hnan, isZero_of_isNaN hnan, hnan]
    exact .at_nan (by simp)
  rw [if_neg hnan, Bool.eq_false_iff.mpr hnan]
  by_cases hzero : y.isZero = true
  · rw [if_pos hzero]
    exact .at_one (.inl hzero)
  rw [if_neg hzero, Bool.eq_false_iff.mpr hzero]
  cases y.negative with
  | true => exact .at_zero (.inr rfl) _
  | false => exact .at_infinity (by simp) _

/-- **What an operation makes of an infinite operand.** -/
theorem settles_onBinary (op : Operator) (h : x.isInfinite = true ∨ y.isInfinite = true) :
    Settles (op.Absorbs x y) (op.onBinary x y) := by
  cases op with
  | add => exact .inr ⟨id, isFinite_add h⟩
  | sub => exact .inr ⟨id, isFinite_sub h⟩
  | mul => exact .inr ⟨id, isFinite_mul h⟩
  | div => exact settles_div h
  | pow =>
    by_cases hy : y.isInfinite = true
    · exact settles_pow_right hy
    · exact settles_pow_left (h.resolve_right hy) hy

end Infinite

/-! ## 2. Values -/

namespace Value

theorem isZero_toBinary64 {v : Value} (h : v.isZero = true) : v.toBinary64.isZero = true := by
  cases v with
  | integer n =>
    have hn : n = 0 := beq_iff_eq.mp h
    rw [hn, toBinary64, ofInt_zero]
    rfl
  | float x => exact h

theorem negative_toBinary64 {v : Value} (h : v.isNegative = true) :
    v.toBinary64.negative = true := by
  cases v with
  | integer n => exact h
  | float x =>
    obtain ⟨hx, -⟩ := Bool.and_eq_true_iff.mp h
    exact (Bool.and_eq_true_iff.mp hx).1

theorem exists_checked_eq_error (op : Operator) {x : Binary64} (h : x.isFinite = false) :
    ∃ fault, checked op x = .error fault := by
  cases hx : checked op x with
  | error fault => exact ⟨fault, rfl⟩
  | ok v =>
    rw [(checked_isFinite hx).2] at h
    cases h

end Value

namespace Operator

/-- Where a fault is found before anything is computed no infinity is lost. -/
theorem not_absorbs_of_fault? {op : Operator} {a b : Value} {fault : Fault}
    (hfault : op.fault? a b = some fault)
    (hinfinite : a.toBinary64.isInfinite = true ∨ b.toBinary64.isInfinite = true) :
    ¬op.Absorbs a.toBinary64 b.toBinary64 := by
  have hnot {v : Value} (hv : v.isZero = true) : ¬v.toBinary64.isInfinite = true := fun h => by
    have hzero := Value.isZero_toBinary64 hv
    rw [isZero_of_isInfinite h] at hzero
    cases hzero
  cases op with
  | add | sub | mul => exact id
  | div =>
    simp only [fault?] at hfault
    split at hfault
    · rename_i hb
      exact fun hlost => hnot hb hlost.2
    · cases hfault
  | pow =>
    simp only [fault?] at hfault
    split at hfault
    · rename_i h
      obtain ⟨ha, hb⟩ := Bool.and_eq_true_iff.mp h
      -- The base is zero, so it is the exponent that is infinite, and it is below zero.
      have hy := hinfinite.resolve_left (hnot ha)
      have hx : a.toBinary64.magnitude = 0 := beq_iff_eq.mp (Value.isZero_toBinary64 ha)
      intro hlost
      rw [Absorbs, if_pos hy, if_pos (Value.negative_toBinary64 hb), hx] at hlost
      exact absurd hlost.2 (by decide)
    · cases hfault

/-- **When an infinite operand is noticed.** If an operation is not done with integers and one of
    the binary numbers is infinite, be it an integer that is too large, the operation fails exactly
    if the infinity is not lost. If it is lost, the result is zero or one. -/
theorem apply_of_isInfinite {op : Operator} {a b : Value} (hbinary : ¬op.InIntegers a b)
    (hinfinite : a.toBinary64.isInfinite = true ∨ b.toBinary64.isInfinite = true) :
    ((∃ fault, op.apply a b = .error fault) ↔ ¬op.Absorbs a.toBinary64 b.toBinary64) ∧
    ∀ v, op.apply a b = .ok v → ∃ x, v = .float x ∧ (x.isZero = true ∨ x = one) := by
  rw [apply_of_not_inIntegers hbinary, applyBinary]
  cases hfault : op.fault? a b with
  | some fault =>
    have hkept := not_absorbs_of_fault? hfault hinfinite
    refine ⟨iff_of_true ⟨fault, rfl⟩ hkept, fun v hv => ?_⟩
    cases hv
  | none =>
    rcases settles_onBinary op hinfinite with ⟨hlost, hresult⟩ | ⟨hkept, hresult⟩
    · have hfinite : (op.onBinary a.toBinary64 b.toBinary64).isFinite = true := by
        rcases hresult with hzero | hone
        · exact isFinite_of_isZero hzero
        · rw [hone]
          rfl
      simp only [Value.checked_of_isFinite op hfinite]
      refine ⟨iff_of_false (fun h => ?_) (not_not_intro hlost), fun v hv => ?_⟩
      · obtain ⟨fault, h⟩ := h
        cases h
      · cases hv
        exact ⟨_, rfl, hresult⟩
    · obtain ⟨fault, hchecked⟩ := Value.exists_checked_eq_error op hresult
      simp only [hchecked]
      refine ⟨iff_of_true ⟨fault, rfl⟩ hkept, fun v hv => ?_⟩
      cases hv

/-- Ten to the power of 400 is too large for a binary number. -/
theorem isInfinite_tenToThe400 :
    (Value.integer (10 ^ (400 : Nat))).toBinary64.isInfinite = true := by
  decide +kernel

/-- Zero times an integer that is too large is refused, since a product keeps the infinity. -/
theorem apply_mul_beyond :
    ¬Operator.mul.InIntegers (.float (.zero false)) (.integer (10 ^ (400 : Nat))) ∧
    (Value.integer (10 ^ (400 : Nat))).toBinary64.isInfinite = true ∧
    ∃ fault, Operator.mul.apply (.float (.zero false)) (.integer (10 ^ (400 : Nat))) =
      .error fault :=
  ⟨not_inIntegers_float, isInfinite_tenToThe400,
    (apply_of_isInfinite not_inIntegers_float (.inr isInfinite_tenToThe400)).1.mpr id⟩

/-- One and a half divided by the same integer is zero: the quotient has lost the infinity. -/
theorem apply_div_beyond :
    ¬Operator.div.InIntegers (.float (.ofBits 0x3FF8000000000000)) (.integer (10 ^ (400 : Nat))) ∧
    (Value.integer (10 ^ (400 : Nat))).toBinary64.isInfinite = true ∧
    Operator.div.apply (.float (.ofBits 0x3FF8000000000000)) (.integer (10 ^ (400 : Nat))) =
      .ok (.float (.zero false)) := by
  have hzero : (Value.integer (10 ^ (400 : Nat))).isZero = false := by decide +kernel
  have hnegative : (Value.integer (10 ^ (400 : Nat))).toBinary64.negative = false := by
    decide +kernel
  refine ⟨not_inIntegers_float, isInfinite_tenToThe400, ?_⟩
  rw [apply_of_not_inIntegers not_inIntegers_float, applyBinary_div, hzero,
    div_of_isInfinite_right isInfinite_tenToThe400, hnegative]
  rfl

end Operator

end Abacus
