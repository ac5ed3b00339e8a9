import Abacus.Binary64.Rounding

/-!
# Integers as binary numbers

An integer of at most 64 bits becomes the nearest binary number. Of a longer one only the leading
64 bits are rounded, with the last of them set if the tail holds something: `condense` is the
integer after this summary. The tail is looked at limb by limb, in limbs of 64 bits, and of each
limb only as many low bits count as the leading limb has digits, so a tail may go unseen. Such an
integer is rounded as if it ended after its 64 leading bits.

Main statements: a short integer is not changed (`condense_of_lt`), and neither is one that ends in
zeros after its leading 64 bits (`condense_of_tail_zero`).
-/

namespace Abacus

namespace Binary64

/-- Some limb below the leading one has a bit set among its low bits, as many of them as the
    leading limb has digits. -/
def tailMarked (n : Nat) : Bool :=
  (List.range (n.log2 / 64)).any fun i => n / 2 ^ (64 * i) % 2 ^ (n.log2 % 64 + 1) != 0

/-- The leading 64 bits, the last of them set if the tail is marked, and zeros for the tail. -/
def condense (n : Nat) : Nat :=
  if n < 2 ^ 64 then n
  else
    let tail := n.log2 - 63
    let leading := n / 2 ^ tail
    (if tailMarked n then 2 * (leading / 2) + 1 else leading) * 2 ^ tail

@[simp] theorem condense_of_lt {n : Nat} (h : n < 2 ^ 64) : condense n = n := by
  simp only [condense, h, ↓reduceIte]

/-- A multiple of the tail's weight shows no mark. -/
theorem tailMarked_of_tail_zero {n : Nat} (hn : 2 ^ 64 ≤ n) (h : n % 2 ^ (n.log2 - 63) = 0) :
    tailMarked n = false := by
  have hlog : 64 ≤ n.log2 := (Nat.le_log2 (by omega)).2 hn
  simp only [tailMarked, List.any_eq_false, List.mem_range, bne_iff_ne, ne_eq, Decidable.not_not]
  intro i hi
  have hle : 64 * i + (n.log2 % 64 + 1) ≤ n.log2 - 63 := by omega
  obtain ⟨k, hk⟩ := Nat.dvd_of_mod_eq_zero h
  have he : n.log2 - 63 = 64 * i + (n.log2 % 64 + 1) + (n.log2 - 63 - (64 * i + (n.log2 % 64 + 1))) := by
    omega
  rw [he, Nat.pow_add, Nat.pow_add, Nat.mul_assoc, Nat.mul_assoc] at hk
  generalize n.log2 % 64 + 1 = t at *
  generalize n.log2 - 63 - (64 * i + t) = r at *
  rw [hk, Nat.mul_div_cancel_left _ (Nat.two_pow_pos _), Nat.mul_mod_right]

/-- **An integer that ends in zeros after its leading 64 bits is kept.** -/
theorem condense_of_tail_zero {n : Nat} (hn : 2 ^ 64 ≤ n) (h : n % 2 ^ (n.log2 - 63) = 0) :
    condense n = n := by
  have hlt : ¬ n < 2 ^ 64 := by omega
  simp only [condense, hlt, tailMarked_of_tail_zero hn h, Bool.false_eq_true, ↓reduceIte]
  exact Nat.div_mul_cancel (Nat.dvd_of_mod_eq_zero h)

/-- The binary number an integer is computed with. -/
def ofInt (n : Int) : Binary64 :=
  ofUnits (decide (n < 0)) (condense n.natAbs * unitsPerOne) 1

end Binary64

end Abacus
