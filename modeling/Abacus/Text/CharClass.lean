/-!
# Classes of characters

A class of characters is a list of closed ranges of code points, ascending and apart. This file
fixes when a character is in a class, and when a list of ranges is in order. The tables themselves
stand in the files named for their property.

Main statement: the search stops at the first range that begins behind the character, and finds it
in an ordered list whenever some range holds it (`contains_iff`).
-/

namespace Abacus

namespace Text

/-- Closed ranges of code points. -/
abbrev CharClass : Type := List (Nat × Nat)

namespace CharClass

/-- The ranges are ascending and apart. -/
def isOrdered : CharClass → Bool
  | [] => true
  | [range] => decide (range.1 ≤ range.2)
  | range :: next :: rest =>
    decide (range.1 ≤ range.2) && decide (range.2 + 1 < next.1) && isOrdered (next :: rest)

/-- The character lies in one of the ranges. -/
def contains : CharClass → Char → Bool
  | [], _ => false
  | range :: rest, c =>
    decide (range.1 ≤ c.toNat) && (decide (c.toNat ≤ range.2) || contains rest c)

/-- What follows a range of an ordered list is ordered. -/
theorem isOrdered_tail {range : Nat × Nat} {rest : CharClass}
    (h : isOrdered (range :: rest) = true) : isOrdered rest = true := by
  cases rest with
  | nil => rfl
  | cons next rest =>
    simp only [isOrdered, Bool.and_eq_true] at h
    exact h.2

/-- In an ordered list no range begins before the first one. -/
theorem first_le_of_mem {range : Nat × Nat} {rest : CharClass}
    (h : isOrdered (range :: rest) = true) {other : Nat × Nat} (hm : other ∈ rest) :
    range.1 ≤ other.1 := by
  induction rest generalizing range with
  | nil => cases hm
  | cons next rest ih =>
    have ht := isOrdered_tail h
    simp only [isOrdered, Bool.and_eq_true, decide_eq_true_eq] at h
    rcases List.mem_cons.1 hm with rfl | hm
    · omega
    · have := ih ht hm
      omega

/-- **A character is in an ordered class exactly if some range holds it.** -/
theorem contains_iff {ranges : CharClass} (h : ranges.isOrdered = true) (c : Char) :
    ranges.contains c = true ↔ ∃ range ∈ ranges, range.1 ≤ c.toNat ∧ c.toNat ≤ range.2 := by
  induction ranges with
  | nil => simp [contains]
  | cons range rest ih =>
    simp only [contains, Bool.and_eq_true, Bool.or_eq_true, decide_eq_true_eq,
      ih (isOrdered_tail h)]
    constructor
    · rintro ⟨h1, h2 | ⟨other, hm, h2⟩⟩
      · exact ⟨range, List.mem_cons_self, h1, h2⟩
      · exact ⟨other, List.mem_cons_of_mem _ hm, h2⟩
    · rintro ⟨other, hm, h1, h2⟩
      rcases List.mem_cons.1 hm with rfl | hm
      · exact ⟨h1, Or.inl h2⟩
      · have := first_le_of_mem h hm
        exact ⟨by omega, Or.inr ⟨other, hm, h1, h2⟩⟩

end CharClass

end Text

end Abacus
