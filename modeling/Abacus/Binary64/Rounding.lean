import Abacus.Binary64.Basic

/-!
# Rounding to the nearest binary number

Every operation on numbers of 64 bits gives the exact result, rounded once. This file fixes the
rounding. The exact value comes as a quotient of natural numbers, counted in least steps
`2 ^ (-1074)`:

* `roundHalfEven` is the nearest natural number to a quotient, a half going to the even neighbour;
* `roundUnits` is the magnitude of the binary number nearest to a quotient. It keeps 53 binary
  digits of the quotient, fewer only where the least step forbids more, and a magnitude beyond the
  finite ones is infinite.

Main statements: a rounded quotient is within half of the exact one (`roundHalfEven_near`), it
depends on the quotient alone (`roundUnits_mul_right`), and a number that is already representable
is its own rounding (`roundUnits_unitsOf`).
-/

namespace Abacus

namespace Binary64

/-! ## 1. Nearest natural number -/

/-- The natural number nearest to `num / den`; a half goes to the even neighbour. -/
def roundHalfEven (num den : Nat) : Nat :=
  if 2 * (num % den) < den ∨ (2 * (num % den) = den ∧ num / den % 2 = 0) then num / den
  else num / den + 1

/-- **The rounded quotient is within half a unit of the exact one.** -/
theorem roundHalfEven_near {den : Nat} (num : Nat) (h : 0 < den) :
    2 * (roundHalfEven num den * den) ≤ 2 * num + den ∧
      2 * num ≤ 2 * (roundHalfEven num den * den) + den := by
  have e : den * (num / den) + num % den = num := Nat.div_add_mod num den
  have l : num % den < den := Nat.mod_lt _ h
  have hq : (num / den + 1) * den = den * (num / den) + den := by
    rw [Nat.add_mul, Nat.mul_comm, Nat.one_mul]
  have hq0 : num / den * den = den * (num / den) := Nat.mul_comm ..
  unfold roundHalfEven
  split
  · rw [hq0]; omega
  · rw [hq]; omega

/-- A quotient without remainder is its own rounding. -/
@[simp] theorem roundHalfEven_mul_left {den : Nat} (n : Nat) (h : 0 < den) :
    roundHalfEven (n * den) den = n := by
  unfold roundHalfEven
  simp [Nat.mul_mod_left, h]

/-- Rounding looks at the quotient, not at how it is written. -/
theorem roundHalfEven_mul_right (num den : Nat) {k : Nat} (hk : 0 < k) :
    roundHalfEven (num * k) (den * k) = roundHalfEven num den := by
  unfold roundHalfEven
  rw [Nat.mul_mod_mul_right, Nat.mul_div_mul_right _ _ hk]
  have h1 : 2 * (num % den * k) < den * k ↔ 2 * (num % den) < den := by
    rw [← Nat.mul_assoc]; exact Nat.mul_lt_mul_right hk
  have h2 : 2 * (num % den * k) = den * k ↔ 2 * (num % den) = den := by
    rw [← Nat.mul_assoc]; exact Nat.mul_left_inj (Nat.pos_iff_ne_zero.1 hk)
  simp only [h1, h2]

/-! ## 2. Nearest magnitude -/

/-- How many binary digits of a whole number of least steps lie beyond the 53 that are kept. -/
def surplus (n : Nat) : Nat := n.log2 - 52

/-- A number of 53 digits at most has none beyond them. -/
theorem surplus_of_lt {n : Nat} (h : n < 2 ^ 53) : surplus n = 0 := by
  by_cases hn : n = 0
  · rw [hn]
    rfl
  · have hlog := (Nat.log2_lt hn).2 h
    unfold surplus
    omega

/-- The magnitude nearest to `num / den` least steps. The kept digits and the number of dropped
    ones add up to the magnitude: the leading kept digit is worth one in the exponent field. -/
def roundUnits (num den : Nat) : Nat :=
  min (surplus (num / den) * 2 ^ 52 + roundHalfEven num (den * 2 ^ surplus (num / den)))
    infiniteMagnitude

theorem roundUnits_le (num den : Nat) : roundUnits num den ≤ infiniteMagnitude :=
  Nat.min_le_right ..

theorem roundUnits_lt (num den : Nat) : roundUnits num den < 2 ^ 63 :=
  Nat.lt_of_le_of_lt (roundUnits_le num den) infiniteMagnitude_lt

/-- Rounding to a magnitude looks at the quotient, not at how it is written. -/
theorem roundUnits_mul_right (num den : Nat) {k : Nat} (hk : 0 < k) :
    roundUnits (num * k) (den * k) = roundUnits num den := by
  unfold roundUnits
  rw [Nat.mul_div_mul_right _ _ hk]
  have h : den * k * 2 ^ surplus (num / den) = den * 2 ^ surplus (num / den) * k := by
    rw [Nat.mul_right_comm]
  rw [h, roundHalfEven_mul_right _ _ hk]

/-- The number with a sign that is nearest to `num / den` least steps. -/
def ofUnits (negative : Bool) (num den : Nat) : Binary64 :=
  ⟨negative, roundUnits num den, roundUnits_lt num den⟩

@[simp] theorem ofUnits_negative (s : Bool) (num den : Nat) : (ofUnits s num den).negative = s := rfl

@[simp] theorem ofUnits_magnitude (s : Bool) (num den : Nat) :
    (ofUnits s num den).magnitude = roundUnits num den := rfl

/-! ## 3. Representable numbers are their own rounding -/

/-- A normal magnitude drops one digit less than its exponent field says. -/
theorem surplus_unitsOf {m : Nat} (h : 2 ^ 52 ≤ m) : surplus (unitsOf m) = m / 2 ^ 52 - 1 := by
  have hlt : ¬ m < 2 ^ 52 := by omega
  have hl : (unitsOf m).log2 = 52 + (m / 2 ^ 52 - 1) := by
    have hpos : unitsOf m ≠ 0 := by
      rw [ne_eq, unitsOf_eq_zero_iff]; omega
    have lo : 2 ^ (52 + (m / 2 ^ 52 - 1)) ≤ unitsOf m := by
      simp only [unitsOf, hlt, ↓reduceIte, Nat.pow_add]
      exact Nat.mul_le_mul_right _ (by omega)
    have hi : unitsOf m < 2 ^ (52 + (m / 2 ^ 52 - 1) + 1) := by
      have hp := Nat.two_pow_pos (m / 2 ^ 52 - 1)
      have : 2 ^ (52 + (m / 2 ^ 52 - 1) + 1) = 2 ^ 53 * 2 ^ (m / 2 ^ 52 - 1) := by
        rw [← Nat.pow_add]; congr 1; omega
      simp only [unitsOf, hlt, ↓reduceIte, this]
      exact Nat.mul_lt_mul_of_pos_right (by omega) hp
    have h1 := (Nat.le_log2 hpos).2 lo
    have h2 := (Nat.log2_lt hpos).2 hi
    omega
  simp only [surplus, hl]; omega

/-- **A finite magnitude is the rounding of its own value.** -/
theorem roundUnits_unitsOf {m : Nat} (h : m < infiniteMagnitude) :
    roundUnits (unitsOf m) 1 = m := by
  unfold roundUnits
  rw [Nat.div_one, Nat.one_mul]
  by_cases hs : m < 2 ^ 52
  · have hu : unitsOf m = m := by simp only [unitsOf, hs, ↓reduceIte]
    have hz : surplus m = 0 := surplus_of_lt (by omega)
    rw [hu, hz, Nat.zero_mul, Nat.pow_zero, Nat.zero_add]
    have := roundHalfEven_mul_left m Nat.one_pos
    rw [Nat.mul_one] at this
    rw [this]
    omega
  · rw [surplus_unitsOf (by omega)]
    have hu : unitsOf m = (2 ^ 52 + m % 2 ^ 52) * 2 ^ (m / 2 ^ 52 - 1) := by
      simp only [unitsOf, hs, ↓reduceIte]
    rw [hu, roundHalfEven_mul_left _ (Nat.two_pow_pos _)]
    have hq : 1 ≤ m / 2 ^ 52 := by omega
    have : (m / 2 ^ 52 - 1) * 2 ^ 52 + (2 ^ 52 + m % 2 ^ 52) = m := by omega
    rw [this]
    omega

end Binary64

end Abacus
