import Abacus.Error
import Abacus.Token

/-!
# Program text as tokens

Reading goes from left to right. Spaces and tabulators are skipped and line breaks are counted; at
any other character the longest token that starts there is taken:

* a run of ASCII letters is a word: the keyword `print`, or else an identifier;
* a run of digits, with a point and further digits if they follow, is a number. It must be
  well-formed as a whole (`isWellFormed`), so `012` and `2.0` are rejected and never split;
* each of the signs is a token of one character.

Whatever starts no token stops the reading. The tokens read until then are kept beside the error
(`Scan`), since they appear in the log.
-/

namespace Abacus

namespace Lexer

/-! ## 1. Signs -/

/-- The kind of a token that is a single sign. -/
def sign? : Char → Option TokenKind
  | '(' => some .lparen
  | ')' => some .rparen
  | '\x7b' => some .lbrace
  | '\x7d' => some .rbrace
  | '=' => some .assign
  | '+' => some .plus
  | '-' => some .minus
  | '*' => some .star
  | '/' => some .slash
  | '^' => some .caret
  | ';' => some .semicolon
  | _ => none

/-! ## 2. Words and numbers -/

/-- A word is the keyword or an identifier. -/
def wordKind (word : List Char) : TokenKind :=
  if word = ['p', 'r', 'i', 'n', 't'] then .print else .identifier

/-- The longest number at the start of a text, and what follows it. The point belongs to the number
    even if no digit follows. -/
def takeNumber (cs : List Char) : List Char × List Char :=
  let whole := cs.takeWhile Char.isDigit
  match cs.dropWhile Char.isDigit with
  | '.' :: rest => (whole ++ '.' :: rest.takeWhile Char.isDigit, rest.dropWhile Char.isDigit)
  | rest => (whole, rest)

/-- The part of a number before the point is zero or does not start with zero. -/
def wholeWellFormed (whole : List Char) : Bool :=
  whole == ['0'] || whole.head? != some '0'

/-- The part of a number behind the point ends in a digit other than zero. -/
def fractionWellFormed (fraction : List Char) : Bool :=
  match fraction.getLast? with
  | some c => c.isDigit && c != '0'
  | none => false

/-- A number has no idle zeros: none before another digit of the whole part, and none at the end of
    the fraction. -/
def isWellFormed (number : List Char) : Bool :=
  wholeWellFormed (number.takeWhile (· != '.')) &&
    match number.dropWhile (· != '.') with
    | [] => true
    | _ :: fraction => fractionWellFormed fraction

/-! ## 3. The first token -/

/-- What starts at a character that is neither skipped nor a line break. -/
inductive First where
  /-- A token, and the text behind it. -/
  | token (kind : TokenKind) (lexeme rest : List Char)
  /-- No token: the text to report. -/
  | illegal (lexeme : List Char)
deriving DecidableEq

/-- The longest token at the start of the text `c :: cs`. -/
def first (c : Char) (cs : List Char) : First :=
  if c.isAlpha then
    let word := c :: cs.takeWhile Char.isAlpha
    .token (wordKind word) word (cs.dropWhile Char.isAlpha)
  else if c.isDigit then
    let (number, rest) := takeNumber (c :: cs)
    if isWellFormed number then .token .number number rest else .illegal number
  else
    match sign? c with
    | some kind => .token kind [c] cs
    | none => .illegal [c]

theorem length_dropWhile_le (p : Char → Bool) (cs : List Char) :
    (cs.dropWhile p).length ≤ cs.length :=
  (List.dropWhile_sublist p).length_le

/-- A number that starts with a digit takes at least that digit. -/
theorem takeNumber_rest_le {c : Char} {cs : List Char} (h : c.isDigit = true) :
    (takeNumber (c :: cs)).2.length ≤ cs.length := by
  have hd : (c :: cs).dropWhile Char.isDigit = cs.dropWhile Char.isDigit := by simp [h]
  have h1 := length_dropWhile_le Char.isDigit cs
  simp only [takeNumber, hd]
  split
  · rename_i rest he
    have h2 := length_dropWhile_le Char.isDigit rest
    simp only [he, List.length_cons] at h1 ⊢
    omega
  · exact h1

/-- **A token takes at least one character.** -/
theorem first_rest_le {c : Char} {cs : List Char} {kind : TokenKind} {lexeme rest : List Char}
    (h : first c cs = .token kind lexeme rest) : rest.length ≤ cs.length := by
  unfold first at h
  split at h
  · simp only [First.token.injEq] at h
    rw [← h.2.2]
    exact length_dropWhile_le Char.isAlpha cs
  · split at h
    · rename_i hd
      simp only at h
      split at h
      · simp only [First.token.injEq] at h
        rw [← h.2.2]
        exact takeNumber_rest_le hd
      · cases h
    · split at h
      · simp only [First.token.injEq] at h
        exact Nat.le_of_eq (congrArg List.length h.2.2.symm)
      · cases h

/-! ## 4. All tokens -/

/-- The tokens read, and the error at which reading stopped. -/
structure Scan where
  tokens : Array Token
  error? : Option SyntaxError
deriving DecidableEq

/-- Reads on behind tokens that were read already. -/
def scanFrom (line : Nat) (tokens : Array Token) : List Char → Scan
  | [] => ⟨tokens, none⟩
  | c :: cs =>
    if c = ' ' ∨ c = '\t' then scanFrom line tokens cs
    else if c = '\n' then scanFrom (line + 1) tokens cs
    else
      match _h : first c cs with
      | .token kind lexeme rest =>
        scanFrom line (tokens.push ⟨kind, String.ofList lexeme, line⟩) rest
      | .illegal lexeme => ⟨tokens, some (.illegal (String.ofList lexeme) line)⟩
termination_by cs => cs.length
decreasing_by
  · simp
  · simp
  · have := first_rest_le _h
    simp only [List.length_cons]
    omega

/-- Reads a whole program text. -/
def scan (source : String) : Scan := scanFrom 1 #[] source.toList

/-- The tokens of a program text. -/
def tokenize (source : String) : Except SyntaxError (List Token) :=
  let result := scan source
  match result.error? with
  | none => .ok result.tokens.toList
  | some error => .error error

end Lexer

end Abacus
