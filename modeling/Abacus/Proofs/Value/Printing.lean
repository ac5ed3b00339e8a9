import Abacus.Proofs.Binary64.Exact
import Abacus.Proofs.Value.Powers

/-!
# Printed numbers are exact

A value stands for a rational number unless it is infinite or no number (`Value.toRat?`), and so
does a printed value. Printing changes the kind of a number that is an integer, and never the
number: the integer is the exact value of all 64 bits, however long it is, and a binary number that
is no integer keeps its bits (`toPrinted_exact`).

A quotient is always a binary number. If one integer divides another they are divided before
anything is rounded, so what is printed depends on the quotient alone: it is exact if the quotient
is a binary number, even if neither integer is below infinity (`toPrinted_div_iff`).
-/

namespace Abacus

/-! ## 1. Numbers -/

/-- The number that a value stands for. An infinity stands for none. -/
def Value.toRat? : Value → Option ℚ
  | .integer n => some n
  | .float x => if x.isFinite then some x.toRat else none

/-- The number that a printed value stands for. -/
def Printed.toRat? : Printed → Option ℚ
  | .integer n => some n
  | .float x => if x.isFinite then some x.toRat else none

namespace Value

/-- A binary number stands for an integer exactly if it is read as one. -/
theorem toRat?_float_eq_intCast_iff {x : Binary64} {n : Int} :
    (float x).toRat? = some (n : ℚ) ↔ x.toInt? = some n := by
  rw [Binary64.toInt?_eq_some_iff, toRat?]
  by_cases hx : x.isFinite = true
  · rw [if_pos hx, Option.some.injEq]
    exact ⟨fun h => ⟨hx, h⟩, fun h => h.2⟩
  · rw [if_neg hx]
    exact ⟨nofun, fun h => absurd h.1 hx⟩

/-! ## 2. Printed values -/

/-- **Exactly the integers are printed as integers**, whatever their kind is. -/
theorem toPrinted_eq_integer_iff {v : Value} {n : Int} :
    v.toPrinted = .integer n ↔ v.toRat? = some (n : ℚ) := by
  cases v with
  | integer m => rw [toPrinted, toRat?, Printed.integer.injEq, Option.some.injEq, Rat.intCast_inj]
  | float x =>
    rw [toRat?_float_eq_intCast_iff, toPrinted]
    cases x.toInt? with
    | some m => simp only [Printed.integer.injEq, Option.some.injEq]
    | none => simp only [reduceCtorEq]

/-- **All other numbers keep their bits.** -/
theorem toPrinted_eq_float_iff {v : Value} {x : Binary64} :
    v.toPrinted = .float x ↔ v = .float x ∧ ∀ n : Int, v.toRat? ≠ some (n : ℚ) := by
  constructor
  · intro h
    refine ⟨?_, fun n hn => ?_⟩
    · cases v with
      | integer m => cases h
      | float y =>
        simp only [toPrinted] at h
        split at h
        · cases h
        · cases h
          rfl
    · rw [toPrinted_eq_integer_iff.mpr hn] at h
      cases h
  · intro hnumber
    obtain ⟨hv, h⟩ := hnumber
    rw [hv] at h ⊢
    refine toPrinted_float ?_
    cases hx : x.toInt? with
    | none => rfl
    | some n => exact absurd (toRat?_float_eq_intCast_iff.mpr hx) (h n)

/-- Printing keeps the number. -/
theorem toRat?_toPrinted (v : Value) : v.toPrinted.toRat? = v.toRat? := by
  cases h : v.toPrinted with
  | integer n => rw [toPrinted_eq_integer_iff.mp h, Printed.toRat?]
  | float x => rw [(toPrinted_eq_float_iff.mp h).1, Printed.toRat?, toRat?]

/-- **Printing is exact.** It keeps the number that a value stands for. The printed value is an
    integer exactly if the number is this integer, and otherwise, which includes the infinities and
    what is no number, it is the binary number with the same bits. -/
theorem toPrinted_exact (v : Value) :
    v.toPrinted.toRat? = v.toRat? ∧
    (∀ n : Int, v.toPrinted = .integer n ↔ v.toRat? = some (n : ℚ)) ∧
    ∀ x, v.toPrinted = .float x ↔ v = .float x ∧ ∀ n : Int, v.toRat? ≠ some (n : ℚ) :=
  ⟨toRat?_toPrinted v, fun _ => toPrinted_eq_integer_iff, fun _ => toPrinted_eq_float_iff⟩

/-! ## 3. Quotients of integers -/

/-- Integers that divide evenly are divided before the quotient is rounded. -/
theorem div_of_dvd {l r : Int} (hr : r ≠ 0) (hdvd : r ∣ l) :
    (integer l).div (integer r) = checked .div (Binary64.ofInt (l / r)) := by
  have hzero : (integer r).isZero = false := beq_eq_false_iff_ne.mpr hr
  rw [div, hzero, if_neg Bool.false_ne_true, quotient, if_pos (Int.emod_eq_zero_of_dvd hdvd)]

/-- **An even quotient is printed exactly if it is a binary number**, however large the integers
    are, and it is printed exactly only then. -/
theorem toPrinted_div_iff {l r : Int} (hr : r ≠ 0) (hdvd : r ∣ l) :
    (∃ x, (integer l).div (integer r) = .ok (.float x) ∧ (float x).toPrinted = .integer (l / r)) ↔
      ∃ x : Binary64, x.isFinite = true ∧ x.toRat = (l / r : Int) := by
  constructor
  · intro ⟨x, _, hprinted⟩
    rw [toPrinted_eq_integer_iff, toRat?_float_eq_intCast_iff] at hprinted
    exact ⟨x, Binary64.toInt?_eq_some_iff.mp hprinted⟩
  · intro ⟨x, hfinite, hx⟩
    have hexact := Binary64.ofInt_of_toRat hfinite hx
    refine ⟨Binary64.ofInt (l / r), ?_, ?_⟩
    · rw [div_of_dvd hr hdvd, checked_of_isFinite .div hexact.1]
    · rw [toPrinted_eq_integer_iff, toRat?_float_eq_intCast_iff]
      exact Binary64.toInt?_eq_some_iff.mpr hexact

/-- The largest finite number, as an integer. -/
def largest : Int := (2 ^ (53 : Nat) - 1) * 2 ^ (971 : Nat)

/-- The quotient of two integers beyond the finite numbers is printed exactly up to the largest
    finite number. -/
theorem toPrinted_div_largest :
    (Binary64.ofInt (largest * 2 ^ (1100 : Nat))).isFinite = false ∧
    (Binary64.ofInt (-2 ^ (1100 : Nat))).isFinite = false ∧
    ∃ x, (integer (largest * 2 ^ (1100 : Nat))).div (integer (-2 ^ (1100 : Nat))) = .ok (.float x) ∧
      (float x).toPrinted = .integer (-largest) := by
  have hr : (-2 ^ (1100 : Nat) : Int) ≠ 0 := by decide +kernel
  have hdvd : (-2 ^ (1100 : Nat) : Int) ∣ largest * 2 ^ (1100 : Nat) :=
    Int.neg_dvd.mpr (Int.dvd_mul_left ..)
  have hquotient : largest * 2 ^ (1100 : Nat) / -2 ^ (1100 : Nat) = -largest := by decide +kernel
  have hprinted := toPrinted_div_iff hr hdvd
  rw [hquotient] at hprinted
  refine ⟨by decide +kernel, by decide +kernel, hprinted.mpr ?_⟩
  refine ⟨⟨true, Binary64.infiniteMagnitude - 1, by decide⟩, by decide, ?_⟩
  rw [Binary64.toRat_eq_intCast_iff]
  decide +kernel

end Value

end Abacus
