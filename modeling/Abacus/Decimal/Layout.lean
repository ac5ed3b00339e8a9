import Abacus.Decimal.Shortest

/-!
# Decimal numbers as text

Which digits a number has is settled by `Decimal.shortest`; this file settles how they are laid out.
A `Layout` is the list of decisions: from which exponent of the leading digit to which one the
number is written positionally, whether a whole number keeps a `.0`, and how an exponent is written.

* `plain` sets the point after, inside or before the digits;
* `scientific` has one digit before the point and an exponent;
* `number` adds the sign, and the words for what is not finite.
-/

namespace Abacus

/-- How decimal digits are laid out. -/
structure Layout where
  /-- The least exponent of the leading digit that is written positionally. -/
  plainFrom : Int
  /-- The least exponent above it that no longer is. -/
  plainBelow : Int
  /-- A whole number written positionally ends in `.0`. -/
  wholePoint : Bool
  /-- An exponent that is not negative is written with a plus sign. -/
  exponentPlus : Bool
  /-- The least number of digits of an exponent. -/
  exponentWidth : Nat
deriving DecidableEq

namespace Layout

/-! ## 1. Digits and their places -/

/-- The digits of the coefficient, the leading one first. -/
def digits (d : Decimal) : List Char := Nat.toDigits 10 d.coefficient

/-- The exponent of the leading digit. -/
def leadingExponent (d : Decimal) : Int := (digits d).length - 1 + d.exponent

/-! ## 2. The two forms -/

/-- Positional notation: the point stands after, inside or before the digits. -/
def plain (layout : Layout) (d : Decimal) : List Char :=
  let digits := digits d
  if 0 ≤ d.exponent then
    digits ++ List.replicate d.exponent.toNat '0' ++ (if layout.wholePoint then ['.', '0'] else [])
  else
    let whole := ((digits.length : Int) + d.exponent).toNat
    if 0 < whole then digits.take whole ++ '.' :: digits.drop whole
    else
      '0' :: '.' :: List.replicate (-((digits.length : Int) + d.exponent)).toNat '0' ++ digits

/-- The digits of an exponent, filled up with zeros on the left. -/
def exponentDigits (layout : Layout) (n : Nat) : List Char :=
  let digits := Nat.toDigits 10 n
  List.replicate (layout.exponentWidth - digits.length) '0' ++ digits

/-- An exponent with its mark and its sign. -/
def exponentText (layout : Layout) (e : Int) : List Char :=
  'e' :: (if e < 0 then ['-'] else if layout.exponentPlus then ['+'] else [])
    ++ layout.exponentDigits e.natAbs

/-- Scientific notation: one digit before the point, no point without digits after it. -/
def scientific (layout : Layout) (d : Decimal) : List Char :=
  let mantissa := match digits d with
    | first :: second :: rest => first :: '.' :: second :: rest
    | short => short
  mantissa ++ layout.exponentText (leadingExponent d)

/-- The exponent of the leading digit lies in the range that is written positionally. -/
def isPlain (layout : Layout) (d : Decimal) : Bool :=
  decide (layout.plainFrom ≤ leadingExponent d) && decide (leadingExponent d < layout.plainBelow)

/-- The text of a decimal number. -/
def decimal (layout : Layout) (d : Decimal) : List Char :=
  if layout.isPlain d then layout.plain d else layout.scientific d

/-! ## 3. Binary numbers -/

/-- The text of a binary number: the shortest digits that read back, with the sign in front. -/
def number (layout : Layout) (x : Binary64) : String :=
  if x.isNaN then "NaN"
  else
    let sign := if x.negative then ['-'] else []
    let digits := if x.isInfinite then ['i', 'n', 'f']
      else layout.decimal (Decimal.shortest x.magnitude)
    String.ofList (sign ++ digits)

end Layout

end Abacus
