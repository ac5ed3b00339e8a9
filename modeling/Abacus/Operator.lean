/-!
# The five arithmetic operators

An operator has a symbol in the language and a word in messages.
-/

namespace Abacus

/-- An arithmetic operator. -/
inductive Operator where
  | add
  | sub
  | mul
  | div
  | pow
deriving DecidableEq

namespace Operator

/-- The operator as it is written in a program. -/
def symbol : Operator → String
  | .add => "+"
  | .sub => "-"
  | .mul => "*"
  | .div => "/"
  | .pow => "^"

/-- The operator's name in a message. -/
def word : Operator → String
  | .add => "addition"
  | .sub => "subtraction"
  | .mul => "multiplication"
  | .div => "division"
  | .pow => "exponentiation"

end Operator

end Abacus
