import Abacus.Decimal.Basic

/-!
# The shortest decimal that reads back

A finite binary number is written with the fewest decimal digits that read back as the same number;
among decimals of that length the nearest is taken, and of two equally near ones the larger.

The search goes through the decimal grids from one significant digit to seventeen. On each grid it
tries the two neighbours of the number (`onGrid?`); the first grid with a neighbour that reads back
wins. Seventeen digits always suffice for a number of 64 bits, but nothing here depends on that:
should no grid have a neighbour that reads back, the number is written out exactly (`exact`).

Main statement: what is chosen reads back (`roundedMagnitude_shortest`).
-/

namespace Abacus

namespace Decimal

/-! ## 1. The neighbours on a grid -/

/-- The decimal reads back as the finite magnitude. -/
def readsBack (d : Decimal) (magnitude : Nat) : Bool := d.roundedMagnitude == magnitude

/-- Of two decimals around a magnitude the one that reads back; if both do, the upper one only
    where it is preferred. -/
def choose? (magnitude : Nat) (below above : Decimal) (preferAbove : Bool) : Option Decimal :=
  if below.readsBack magnitude then
    if above.readsBack magnitude && preferAbove then some above else some below
  else if above.readsBack magnitude then some above
  else none

/-- The neighbour of the magnitude on the grid of multiples of `10 ^ place` that reads back. If
    both do, the nearer one; if both are equally near, the larger one. -/
def onGrid? (magnitude : Nat) (place : Int) : Option Decimal :=
  let num := Binary64.unitsOf magnitude * 10 ^ (-place).toNat
  let den := Binary64.unitsPerOne * 10 ^ place.toNat
  choose? magnitude ⟨num / den, place⟩ ⟨num / den + 1, place⟩ (decide (den ≤ 2 * (num % den)))

/-- What is chosen reads back. -/
theorem roundedMagnitude_choose? {m : Nat} {below above d : Decimal} {prefer : Bool}
    (h : choose? m below above prefer = some d) : d.roundedMagnitude = m := by
  have of_readsBack {d' : Decimal} (hd : d'.readsBack m = true) (he : some d' = some d) :
      d.roundedMagnitude = m := by
    rw [← Option.some.inj he]
    exact beq_iff_eq.1 hd
  unfold choose? at h
  split at h
  · rename_i hb
    split at h
    · rename_i ha
      exact of_readsBack (Bool.and_eq_true_iff.1 ha).1 h
    · exact of_readsBack hb h
  · split at h
    · rename_i ha
      exact of_readsBack ha h
    · cases h

/-- What a grid offers reads back. -/
theorem roundedMagnitude_onGrid? {m : Nat} {p : Int} {d : Decimal} (h : onGrid? m p = some d) :
    d.roundedMagnitude = m :=
  roundedMagnitude_choose? h

/-! ## 2. The search -/

/-- The place before the leading digit: the number is below `10 ^ leadingPlace` and not below a
    tenth of it. Zero has no leading digit. -/
def leadingPlace (magnitude : Nat) : Int :=
  let units := Binary64.unitsOf magnitude
  if Binary64.unitsPerOne ≤ units then
    (Nat.toDigits 10 (units / Binary64.unitsPerOne)).length
  else 1 - (Nat.toDigits 10 ((Binary64.unitsPerOne - 1) / units)).length

/-- The most significant digits that are tried. -/
def maxDigits : Nat := 17

/-- The exact value of a finite magnitude: a least step is `5 ^ places * 10 ^ (-places)`. -/
def exact (magnitude : Nat) : Decimal :=
  ⟨Binary64.unitsOf magnitude * 5 ^ Binary64.places, -(Binary64.places : Int)⟩

/-- The shortest decimal that reads back as a finite magnitude, without trailing zeros. -/
def shortest (magnitude : Nat) : Decimal :=
  if magnitude = 0 then ⟨0, 0⟩
  else
    let found := (List.range maxDigits).findSome? fun n =>
      onGrid? magnitude (leadingPlace magnitude - (n + 1 : Nat))
    (found.getD (exact magnitude)).trim

/-- The exact value reads back. -/
theorem roundedMagnitude_exact {m : Nat} (h : m < Binary64.infiniteMagnitude) :
    (exact m).roundedMagnitude = m := by
  unfold roundedMagnitude numerator denominator exact
  have h1 : (-(Binary64.places : Int)).toNat = 0 := by simp
  have h2 : (-(-(Binary64.places : Int))).toNat = Binary64.places := by simp
  have h3 : (10 : Nat) ^ Binary64.places = 5 ^ Binary64.places * 2 ^ Binary64.places := by
    rw [← Nat.mul_pow]
  simp only [h1, h2, h3, Nat.pow_zero, Nat.mul_one]
  have h4 := Binary64.roundUnits_mul_right (Binary64.unitsOf m) 1
    (k := 5 ^ Binary64.places * 2 ^ Binary64.places)
    (Nat.mul_pos (Nat.pow_pos (by decide)) (Nat.pow_pos (by decide)))
  rw [Nat.one_mul] at h4
  rw [Nat.mul_assoc, Binary64.unitsPerOne, h4]
  exact Binary64.roundUnits_unitsOf h

/-- **The shortest decimal of a finite magnitude reads back.** -/
theorem roundedMagnitude_shortest {m : Nat} (h : m < Binary64.infiniteMagnitude) :
    (shortest m).roundedMagnitude = m := by
  unfold shortest
  split
  · rename_i h0
    subst h0
    exact roundedMagnitude_of_coefficient_zero rfl
  · simp only
    rw [roundedMagnitude_trim]
    cases hf : (List.range maxDigits).findSome? fun n =>
        onGrid? m (leadingPlace m - (n + 1 : Nat)) with
    | none => exact roundedMagnitude_exact h
    | some d =>
      obtain ⟨n, _, hn⟩ := List.exists_of_findSome?_eq_some hf
      exact roundedMagnitude_onGrid? hn

end Decimal

end Abacus
