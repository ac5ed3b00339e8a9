import Abacus.Text.Extender
import Abacus.Text.Invisible

/-!
# Characters made visible

A message that quotes a character of the input must show which one it is. `escape` writes a
character that has no form of its own, or that would change the form of its neighbours, by its code
point in hexadecimal; it gives the common control characters their letter, and puts a backslash
before quotes and backslashes. Every other character stands for itself.
-/

namespace Abacus

namespace Text

/-- The characters that stand behind a backslash, each with its letter: the end of text, tabulator,
    carriage return, line feed, both quotes, and the backslash itself. -/
def escapeLetters : List (Char × Char) :=
  [('\x00', '0'), ('\t', 't'), ('\r', 'r'), ('\n', 'n'), ('\x27', '\x27'), ('\x22', '\x22'),
   ('\x5c', '\x5c')]

/-- The code point in hexadecimal, between braces. -/
def escapeCode (c : Char) : List Char :=
  ['\x5c', 'u', '\x7b'] ++ Nat.toDigits 16 c.toNat ++ ['\x7d']

/-- A character made visible. -/
def escapeChar (c : Char) : List Char :=
  match escapeLetters.lookup c with
  | some letter => ['\x5c', letter]
  | none => if isInvisible c || isExtender c then escapeCode c else [c]

/-- A text with each character made visible. -/
def escape (s : String) : String := String.ofList (s.toList.flatMap escapeChar)

end Text

end Abacus
