import Abacus.Value

/-!
# Programs

A program is a list of statements, and a statement is an assignment, a print statement or a block.
Parentheses are kept in expressions, since they are part of what was written.
-/

namespace Abacus

/-- An expression. -/
inductive Expr where
  | constant (v : Value)
  | name (x : String)
  | paren (e : Expr)
  | binary (op : Operator) (left right : Expr)
deriving DecidableEq

/-- A statement. -/
inductive Statement where
  /-- Gives the name a value in the innermost scope. -/
  | assign (x : String) (e : Expr)
  /-- Prints the value of the name. -/
  | print (x : String)
  /-- Runs the statements in a scope of their own. -/
  | block (body : List Statement)

/-- A program. -/
abbrev Program : Type := List Statement

end Abacus
