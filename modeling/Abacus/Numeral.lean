import Abacus.Value

/-!
# The value of a number literal

A literal with a point is a binary number, any other an integer. The texts that are accepted are
wider than what the tokens of a program hold, since a list of tokens may come from elsewhere:

* an integer may have one sign, and underscores between and behind its digits (`integer?`);
* a literal with a point may have a sign, may lack the digits on one side of the point, and may have
  an exponent (`float?`). It is rounded correctly, however many digits it has, and a literal beyond
  the finite numbers is infinite.
-/

namespace Abacus

namespace Numeral

/-! ## 1. Signs -/

/-- A text split into its sign and what follows: whether it starts with a minus sign, and the text
    without one sign. -/
def splitSign : List Char → Bool × List Char
  | '-' :: rest => (true, rest)
  | '+' :: rest => (false, rest)
  | cs => (false, cs)

/-! ## 2. Integers -/

/-- A natural number of decimal digits, with underscores anywhere but in front. -/
def natural? (cs : List Char) : Option Nat :=
  if !cs.isEmpty && cs.head? != some '_' && cs.all (fun c => c.isDigit || c == '_') then
    some (Nat.ofDigitChars 10 (cs.filter (· != '_')) 0)
  else none

/-- An integer with at most one sign. -/
def integer? (cs : List Char) : Option Int :=
  let (negative, rest) := splitSign cs
  (natural? rest).map fun n => if negative then -(n : Int) else n

/-! ## 3. Numbers with a point -/

/-- An exponent stops growing once it has reached this size: it then exceeds every number anyway,
    and the power of ten stays small enough to compute. -/
def exponentBound : Nat := 65536

/-- The value of the digits of an exponent. -/
def exponentValue (digits : List Char) : Nat :=
  digits.foldl (fun n c => if n < exponentBound then 10 * n + (c.toNat - '0'.toNat) else n) 0

/-- The exponent at the end of a literal: nothing, or a mark, an optional sign and digits. -/
def exponent? : List Char → Option Int
  | [] => some 0
  | mark :: cs =>
    let (negative, digits) := splitSign cs
    if (mark == 'e' || mark == 'E') && !digits.isEmpty && digits.all Char.isDigit then
      some (if negative then -(exponentValue digits : Int) else exponentValue digits)
    else none

/-- The fraction behind a point, and what follows it. -/
def splitFraction : List Char → List Char × List Char
  | '.' :: rest => (rest.takeWhile Char.isDigit, rest.dropWhile Char.isDigit)
  | rest => ([], rest)

/-- The decimal number that a literal without a sign stands for: digits, a point and digits, at
    least one of them, then an exponent. -/
def decimal? (cs : List Char) : Option Decimal :=
  let whole := cs.takeWhile Char.isDigit
  let (fraction, rest) := splitFraction (cs.dropWhile Char.isDigit)
  if whole.isEmpty && fraction.isEmpty then none
  else (exponent? rest).map fun e =>
    ⟨Nat.ofDigitChars 10 (whole ++ fraction) 0, e - fraction.length⟩

/-- The binary number nearest to a literal. -/
def float? (cs : List Char) : Option Binary64 :=
  let (negative, rest) := splitSign cs
  (decimal? rest).map fun d => d.nearest negative

/-! ## 4. Both -/

/-- The value of a number literal, if it has one. -/
def value? (lexeme : String) : Option Value :=
  let cs := lexeme.toList
  if cs.contains '.' then (float? cs).map .float else (integer? cs).map .integer

end Numeral

end Abacus
