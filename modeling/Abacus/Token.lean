/-!
# Tokens

A token is a kind, the text it was written as, and the line it stands on. The kinds are the words
and signs of the language. A line break is a kind too, though it only counts lines and no token of
that kind is ever read: a list of tokens may hold one, and then no rule of the grammar accepts it.
-/

namespace Abacus

/-- The kinds of tokens. -/
inductive TokenKind where
  | identifier
  | number
  | print
  | lparen
  | rparen
  | lbrace
  | rbrace
  | assign
  | plus
  | minus
  | star
  | slash
  | caret
  | semicolon
  | newline
deriving DecidableEq

namespace TokenKind

/-- The kind's name in the log. -/
def name : TokenKind → String
  | identifier => "Identifier"
  | number => "Number"
  | print => "Print"
  | lparen => "LParen"
  | rparen => "RParen"
  | lbrace => "LBrace"
  | rbrace => "RBrace"
  | assign => "Assign"
  | plus => "Plus"
  | minus => "Minus"
  | star => "Star"
  | slash => "Slash"
  | caret => "Caret"
  | semicolon => "Semicolon"
  | newline => "Newline"

end TokenKind

/-- A token of the program text. -/
structure Token where
  kind : TokenKind
  /-- The text the token was written as. -/
  lexeme : String
  /-- The line the token stands on, counted from one. -/
  line : Nat
deriving DecidableEq

end Abacus
