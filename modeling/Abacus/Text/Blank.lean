import Abacus.Text.CharClass

/-!
# Blank characters

A blank is a character with the Unicode property White_Space: 25 code points, of which six are
ASCII. Texts are trimmed of blanks at both ends or at the end (`trim`, `trimEnd`).

Main statement: the table is in order, so that a character is blank exactly if one of its ranges
holds it (`isBlank_iff`).
-/

namespace Abacus

namespace Text

/-! ## 1. The table -/

/-- The characters with the property White_Space. -/
def blanks : CharClass :=
  [(0x9, 0xD), (0x20, 0x20), (0x85, 0x85), (0xA0, 0xA0), (0x1680, 0x1680), (0x2000, 0x200A),
   (0x2028, 0x2029), (0x202F, 0x202F), (0x205F, 0x205F), (0x3000, 0x3000)]

theorem blanks_isOrdered : blanks.isOrdered = true := by decide

/-- The character is blank. -/
def isBlank (c : Char) : Bool := blanks.contains c

/-- **A blank is a character in one of the ranges.** -/
theorem isBlank_iff (c : Char) :
    isBlank c = true ↔ ∃ range ∈ blanks, range.1 ≤ c.toNat ∧ c.toNat ≤ range.2 :=
  CharClass.contains_iff blanks_isOrdered c

/-! ## 2. Trimming -/

/-- The text without blanks at its end. -/
def trimEnd (cs : List Char) : List Char := (cs.reverse.dropWhile isBlank).reverse

/-- The text without blanks at either end. -/
def trim (cs : List Char) : List Char := trimEnd (cs.dropWhile isBlank)

end Text

end Abacus
