import Abacus.Grammar.Nesting
import Abacus.Grammar.Rule
import Abacus.Numeral
import Abacus.Program

/-!
# The grammar

```text
statement := name '=' sum ';' | 'print' '(' name ')' ';' | '{' statement* '}'
sum       := product (('+' | '-') product)*
product   := power (('*' | '/') power)*
power     := atom ('^' power)?
atom      := number | name | '(' sum ')'
```

Sums and products group from left to right, powers from right to left. Each bracket and each power
uses up one of the levels that a rule is given; `power` and `statement` recurse on this number, so
that no rule calls itself without end. The nesting check guarantees that the 200 levels suffice.

A program that does not fit is reported at the token where its first wrong statement is stuck
(`locate`): since the first token of a statement decides what it is, the statements are walked
through one by one, in and out of blocks.
-/

namespace Abacus

namespace Grammar

open Rule

/-! ## 1. Expressions -/

/-- A number whose literal has a value. -/
def constant : Rule Expr :=
  (token .number).filterMap fun t => (Numeral.value? t.lexeme).map Expr.constant

/-- A name. -/
def identifier : Rule String := (token .identifier).map Token.lexeme

/-- A number, a name or an expression in parentheses. -/
def atom (inner : Rule Expr) : Rule Expr :=
  (constant.orElse (identifier.map Expr.name)).orElse
    (((token .lparen).right (inner.left (token .rparen))).map Expr.paren)

/-- An operator of the language, for a sign between two operands. -/
def sign (kind : TokenKind) (op : Operator) : Rule Operator := (token kind).map fun _ => op

/-- An atom, raised to a power if one follows. -/
def powerOf (inner exponent : Rule Expr) : Rule Expr :=
  ((atom inner).pairOption ((token .caret).right exponent)).map fun
    | (base, some e) => .binary .pow base e
    | (base, none) => base

/-- Operands joined from left to right. -/
def joined (operand : Rule Expr) (operator : Rule Operator) : Rule Expr :=
  operand.fold (operator.pair operand) fun left (op, right) => .binary op left right

/-- A product. -/
def product (power : Rule Expr) : Rule Expr :=
  joined power ((sign .star .mul).orElse (sign .slash .div))

/-- A sum. -/
def sum (product : Rule Expr) : Rule Expr :=
  joined product ((sign .plus .add).orElse (sign .minus .sub))

/-- A power nested at most the given number of levels deep. -/
def power : Nat → Rule Expr
  | 0 => powerOf fail fail
  | levels + 1 =>
    let inner := power levels
    powerOf (sum (product inner)) inner

/-- An expression nested at most the given number of levels deep. -/
def expr (levels : Nat) : Rule Expr := sum (product (power levels))

/-! ## 2. Statements -/

/-- An assignment. -/
def assignment (value : Rule Expr) : Rule Statement :=
  ((identifier.left (token .assign)).pair (value.left (token .semicolon))).map fun (x, e) =>
    .assign x e

/-- A print statement. -/
def printing : Rule Statement :=
  ((((token .print).right ((token .lparen).right identifier)).left (token .rparen)).left
    (token .semicolon)).map .print

/-- A block. -/
def block (inner : Rule Statement) : Rule Statement :=
  (between (token .lbrace) inner (token .rbrace)).map .block

/-- A statement nested at most the given number of levels deep. -/
def statement : Nat → Rule Statement
  | 0 => printing.orElse (assignment (expr 0))
  | levels + 1 =>
    (printing.orElse (assignment (expr (levels + 1)))).orElse (block (statement levels))

/-! ## 3. Where a program is stuck -/

/-- The error for the tokens at which a rule was stuck. -/
def errorAt : List Token → SyntaxError
  | [] => .unexpectedEnd
  | t :: _ => .unexpected t.lexeme t.line

/-- The statement without a block that starts with a token of the given kind. -/
def simple (kind : TokenKind) : Rule Statement :=
  if kind = .print then printing else assignment (expr maxNesting)

/-- Walks through the statements, in and out of blocks, with the number of open blocks. Gives the
    blocks that are open at the end, or the tokens at which a statement was stuck. -/
def walk (blocks : Nat) : List Token → Except (List Token) Nat
  | [] => .ok blocks
  | t :: ts =>
    if t.kind = .lbrace then walk (blocks + 1) ts
    else if t.kind = .rbrace ∧ 0 < blocks then walk (blocks - 1) ts
    else
      match _h : (simple t.kind).run (t :: ts) with
      | .ok (_, rest) => walk blocks rest
      | .error stuck => .error stuck
termination_by ts => ts.length
decreasing_by
  · simp
  · simp
  · exact (simple t.kind).shrinks _h

/-- The error of tokens that are no program. Tokens that end inside a block lack its end. -/
def locate (ts : List Token) : SyntaxError :=
  match walk 0 ts with
  | .ok _ => .unexpectedEnd
  | .error stuck => errorAt stuck

/-! ## 4. Programs -/

/-- The program that tokens stand for. -/
def parse (ts : List Token) : Except SyntaxError Program :=
  match Nesting.check ts with
  | .error error => .error error
  | .ok () =>
    match (statement maxNesting).many ts with
    | (program, []) => .ok program
    | (_, _ :: _) => .error (locate ts)

end Grammar

end Abacus
