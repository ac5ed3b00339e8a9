import Abacus.Error
import Abacus.Token

/-!
# How deep a program is nested

Parentheses, braces and powers nest: `((x))` is two levels deep, and so is `x ^ y ^ z`, since each
exponent is a power in turn. A program may be nested 200 levels deep at any place. This file counts
the levels along the tokens, whether or not they fit the grammar:

* an opening bracket is a level, and its closing bracket ends it together with the powers inside;
* each `^` is a level, which lasts until its bracket is closed or a sign of lower rank comes.

A closing bracket without an opening one counts for nothing. The first token behind which more than
200 levels are open is where the program is too deep (`check`).

Main statement: the depth is the number of open brackets and unfinished powers, behind every token
(`IsCounted.step`).
-/

namespace Abacus

/-- The deepest nesting a program may have. -/
def maxNesting : Nat := 200

/-- The levels that are open behind some tokens. -/
structure Nesting where
  /-- The unfinished powers inside the innermost open bracket. -/
  powers : Nat
  /-- The unfinished powers around each open bracket, the innermost bracket first. -/
  outer : List Nat
  /-- The number of levels. -/
  depth : Nat
deriving DecidableEq

namespace Nesting

/-- Nothing is open. -/
def start : Nesting := ⟨0, [], 0⟩

/-- An opening bracket. -/
def opened (n : Nesting) : Nesting := ⟨0, n.powers :: n.outer, n.depth + 1⟩

/-- A closing bracket. -/
def closed (n : Nesting) : Nesting :=
  match n.outer with
  | [] => n
  | powers :: outer => ⟨powers, outer, n.depth - (n.powers + 1)⟩

/-- A power. -/
def raised (n : Nesting) : Nesting := { n with powers := n.powers + 1, depth := n.depth + 1 }

/-- A sign of lower rank, which finishes the powers before it. -/
def settled (n : Nesting) : Nesting := { n with powers := 0, depth := n.depth - n.powers }

/-- The levels behind a further token. -/
def step (n : Nesting) (kind : TokenKind) : Nesting :=
  match kind with
  | .lparen | .lbrace => n.opened
  | .rparen | .rbrace => n.closed
  | .caret => n.raised
  | .plus | .minus | .star | .slash | .assign | .semicolon => n.settled
  | .identifier | .number | .print | .newline => n

/-- Goes on counting behind some tokens, up to the first one that is too deep. -/
def checkFrom (n : Nesting) : List Token → Except SyntaxError Unit
  | [] => .ok ()
  | t :: ts =>
    let next := n.step t.kind
    if maxNesting < next.depth then .error (.tooDeep t.line maxNesting) else checkFrom next ts

/-- Rejects tokens that are nested too deep. -/
def check (ts : List Token) : Except SyntaxError Unit := start.checkFrom ts

/-! ## The count -/

/-- The depth is the number of open brackets and of unfinished powers. -/
def IsCounted (n : Nesting) : Prop := n.depth = n.outer.length + (n.powers + n.outer.foldr (· + ·) 0)

theorem start_isCounted : start.IsCounted := rfl

theorem IsCounted.opened {n : Nesting} (h : n.IsCounted) : n.opened.IsCounted := by
  simp only [IsCounted, Nesting.opened, List.length_cons, List.foldr_cons] at *
  omega

theorem IsCounted.closed {n : Nesting} (h : n.IsCounted) : n.closed.IsCounted := by
  unfold Nesting.closed
  split
  · exact h
  · rename_i powers outer ho
    simp only [IsCounted, ho, List.length_cons, List.foldr_cons] at *
    omega

theorem IsCounted.raised {n : Nesting} (h : n.IsCounted) : n.raised.IsCounted := by
  simp only [IsCounted, Nesting.raised] at *
  omega

theorem IsCounted.settled {n : Nesting} (h : n.IsCounted) : n.settled.IsCounted := by
  simp only [IsCounted, Nesting.settled] at *
  omega

/-- **Every token keeps the count.** -/
theorem IsCounted.step {n : Nesting} (h : n.IsCounted) (kind : TokenKind) :
    (n.step kind).IsCounted := by
  cases kind with
  | lparen | lbrace => exact h.opened
  | rparen | rbrace => exact h.closed
  | caret => exact h.raised
  | plus | minus | star | slash | assign | semicolon => exact h.settled
  | identifier | number | print | newline => exact h

end Nesting

end Abacus
