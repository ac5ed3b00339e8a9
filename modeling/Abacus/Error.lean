import Abacus.Operator
import Abacus.Text.Escape

/-!
# What can go wrong

A chunk of program text is rejected before anything runs (`SyntaxError`), or its run stops
(`RuntimeError`). Errors are causes; this file fixes their wording:

* a character or number literal that no token has, a token that does not fit, an end that comes too
  early, brackets and powers nested too deep;
* a name without a value, an operation without a result (`Fault`), and a global scope that was to be
  closed, which no program reaches.
-/

namespace Abacus

/-! ## 1. Rejected programs -/

/-- Why a chunk of program text is rejected. -/
inductive SyntaxError where
  /-- A character that starts no token, or a malformed number literal. -/
  | illegal (lexeme : String) (line : Nat)
  /-- A token that does not fit the grammar. -/
  | unexpected (lexeme : String) (line : Nat)
  /-- The text ends in the middle of a statement. -/
  | unexpectedEnd
  /-- Brackets and powers are nested deeper than the limit. -/
  | tooDeep (line limit : Nat)
deriving DecidableEq

namespace SyntaxError

/-- The line the error is reported for, if it has one. -/
def line? : SyntaxError → Option Nat
  | illegal _ line => some line
  | unexpected _ line => some line
  | unexpectedEnd => none
  | tooDeep line _ => some line

/-- The wording of the error. -/
def message : SyntaxError → String
  | illegal lexeme line => s!"illegal character '{Text.escape lexeme}' on line {line}"
  | unexpected lexeme line => s!"syntax error on line {line}: unexpected '{lexeme}'"
  | unexpectedEnd => "syntax error: unexpected end of input"
  | tooDeep line limit => s!"syntax error on line {line}: nesting deeper than {limit} levels"

end SyntaxError

/-! ## 2. Operations without a result -/

/-- Why an operation has no result. -/
inductive Fault where
  | divisionByZero
  | zeroToNegativePower
  /-- The result would not be a real number. -/
  | notReal (op : Operator)
  /-- The result is beyond the finite numbers. -/
  | outOfRange (op : Operator)
deriving DecidableEq

namespace Fault

/-- The operator that has no result. -/
def operator : Fault → Operator
  | divisionByZero => .div
  | zeroToNegativePower => .pow
  | notReal op => op
  | outOfRange op => op

/-- The wording of the fault. -/
def message : Fault → String
  | divisionByZero => "division by zero"
  | zeroToNegativePower => "zero raised to a negative power"
  | notReal op => op.word ++ " has no real result"
  | outOfRange op => op.word ++ " result out of range"

end Fault

/-! ## 3. Runs that stop -/

/-- Why a run stops. -/
inductive RuntimeError where
  /-- No open scope has a value for the name. -/
  | undefined (name : String)
  /-- An operation has no result. -/
  | arithmetic (fault : Fault)
  /-- The global scope was to be closed. -/
  | globalClosed
deriving DecidableEq

namespace RuntimeError

/-- The wording of the error. -/
def message : RuntimeError → String
  | undefined name => "undefined name: " ++ name
  | arithmetic fault => "arithmetic error: " ++ fault.message
  | globalClosed => "attempted to pop the global scope"

end RuntimeError

/-! ## 4. Both -/

/-- Why a chunk of program text has no output. -/
inductive Error where
  | rejected (error : SyntaxError)
  | stopped (error : RuntimeError)
deriving DecidableEq

namespace Error

/-- The chunk was rejected before anything ran. -/
def isSyntax : Error → Bool
  | rejected _ => true
  | stopped _ => false

/-- The run stopped at a name without a value. -/
def isUndefinedName : Error → Bool
  | stopped (.undefined _) => true
  | _ => false

/-- The line of a rejected chunk, if it has one. -/
def line? : Error → Option Nat
  | rejected error => error.line?
  | stopped _ => none

/-- The wording of the error. -/
def message : Error → String
  | rejected error => error.message
  | stopped error => error.message

end Error

end Abacus
