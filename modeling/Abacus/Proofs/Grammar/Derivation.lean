import Abacus.Numeral
import Abacus.Program
import Abacus.Token

/-!
# The grammar as derivations

The language is defined by productions, some of them left recursive:

```text
program   := nothing | program statement
statement := name '=' sum ';' | 'print' '(' name ')' ';' | '{' program '}'
sum       := sum ('+' | '-') product | product
product   := product ('*' | '/') power | power
power     := atom '^' power | atom
atom      := '(' sum ')' | number | name
```

This file fixes which tokens derive which tree: `IsSum ts e` says that the tokens `ts`, all of them,
are a sum with the tree `e`, and so on for the other nonterminals. Each production builds a node of
its own. Nothing is said here about how a tree is found, and no depth is too deep.
-/

namespace Abacus

namespace Grammar

/-! ## 1. Signs between operands -/

/-- The operator of a sign between the parts of a product. -/
def productOperator? : TokenKind → Option Operator
  | .star => some .mul
  | .slash => some .div
  | _ => none

/-- The operator of a sign between the parts of a sum. -/
def sumOperator? : TokenKind → Option Operator
  | .plus => some .add
  | .minus => some .sub
  | _ => none

theorem productOperator?_cases {kind : TokenKind} {op : Operator}
    (h : productOperator? kind = some op) : kind = .star ∧ op = .mul ∨ kind = .slash ∧ op = .div := by
  unfold productOperator? at h
  split at h
  · cases h; exact .inl ⟨rfl, rfl⟩
  · cases h; exact .inr ⟨rfl, rfl⟩
  · cases h

theorem sumOperator?_cases {kind : TokenKind} {op : Operator} (h : sumOperator? kind = some op) :
    kind = .plus ∧ op = .add ∨ kind = .minus ∧ op = .sub := by
  unfold sumOperator? at h
  split at h
  · cases h; exact .inl ⟨rfl, rfl⟩
  · cases h; exact .inr ⟨rfl, rfl⟩
  · cases h

/-! ## 2. Expressions -/

mutual

/-- The tokens are an atom. -/
inductive IsAtom : List Token → Expr → Prop where
  | paren {l r : Token} {ts : List Token} {e : Expr} (hl : l.kind = .lparen) (h : IsSum ts e)
      (hr : r.kind = .rparen) : IsAtom (l :: (ts ++ [r])) (.paren e)
  | number {t : Token} {v : Value} (ht : t.kind = .number)
      (hv : Numeral.value? t.lexeme = some v) : IsAtom [t] (.constant v)
  | name {t : Token} (ht : t.kind = .identifier) : IsAtom [t] (.name t.lexeme)

/-- The tokens are a power. The right operand of `^` is a power in turn. -/
inductive IsPower : List Token → Expr → Prop where
  | raise {us vs : List Token} {t : Token} {b e : Expr} (hb : IsAtom us b)
      (ht : t.kind = .caret) (he : IsPower vs e) : IsPower (us ++ t :: vs) (.binary .pow b e)
  | atom {ts : List Token} {e : Expr} (h : IsAtom ts e) : IsPower ts e

/-- The tokens are a product. The left operand of `*` and `/` is a product in turn. -/
inductive IsProduct : List Token → Expr → Prop where
  | join {us vs : List Token} {t : Token} {op : Operator} {l r : Expr} (hl : IsProduct us l)
      (ht : productOperator? t.kind = some op) (hr : IsPower vs r) :
      IsProduct (us ++ t :: vs) (.binary op l r)
  | power {ts : List Token} {e : Expr} (h : IsPower ts e) : IsProduct ts e

/-- The tokens are a sum. The left operand of `+` and `-` is a sum in turn. -/
inductive IsSum : List Token → Expr → Prop where
  | join {us vs : List Token} {t : Token} {op : Operator} {l r : Expr} (hl : IsSum us l)
      (ht : sumOperator? t.kind = some op) (hr : IsProduct vs r) :
      IsSum (us ++ t :: vs) (.binary op l r)
  | product {ts : List Token} {e : Expr} (h : IsProduct ts e) : IsSum ts e

end

/-! ## 3. Statements and programs -/

mutual

/-- The tokens are a statement. -/
inductive IsStatement : List Token → Statement → Prop where
  | assign {t a s : Token} {ts : List Token} {e : Expr} (ht : t.kind = .identifier)
      (ha : a.kind = .assign) (h : IsSum ts e) (hs : s.kind = .semicolon) :
      IsStatement (t :: a :: (ts ++ [s])) (.assign t.lexeme e)
  | print {p l t r s : Token} (hp : p.kind = .print) (hl : l.kind = .lparen)
      (ht : t.kind = .identifier) (hr : r.kind = .rparen) (hs : s.kind = .semicolon) :
      IsStatement [p, l, t, r, s] (.print t.lexeme)
  | block {l r : Token} {ts : List Token} {body : Program} (hl : l.kind = .lbrace)
      (h : IsProgram ts body) (hr : r.kind = .rbrace) :
      IsStatement (l :: (ts ++ [r])) (.block body)

/-- The tokens are a program. -/
inductive IsProgram : List Token → Program → Prop where
  | empty : IsProgram [] []
  | snoc {us vs : List Token} {program : Program} {s : Statement} (h : IsProgram us program)
      (hs : IsStatement vs s) : IsProgram (us ++ vs) (program ++ [s])

end

end Grammar

end Abacus
