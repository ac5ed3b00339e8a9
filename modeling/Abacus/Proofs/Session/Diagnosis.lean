import Abacus.Proofs.Grammar.Joining
import Abacus.Proofs.Grammar.Stuck
import Abacus.Proofs.Session.Recovery
import Abacus.Proofs.Token.Places

/-!
# The line of an error

A rejected chunk is reported with the line on which something is wrong, and whoever wrote it goes
there to look. The number comes from reading the text: reading counts line breaks, each token keeps
the count, and an error takes it over from a token. Three parts of the program report errors, and
all of them name a place that reading has seen:

* reading itself, where no token starts (`Lexer.blames_of_tokenize`);
* the nesting check, at a token that opens a level, and the search for the first wrong statement,
  at a token of the chunk (`Grammar.parse_error_cases`).

Main statement: the line of an error exists, and what the error names is found in it
(`eval_error_line`).
-/

namespace Abacus

/-! ## 1. What an error names -/

/-- The line holds what the error names: the text of the token, or a sign that opens a level. An
    end that comes too early is on no line. -/
def SyntaxError.FoundIn (l : List Char) : SyntaxError → Prop
  | .illegal lexeme _ => lexeme.toList <:+: l
  | .unexpected lexeme _ => lexeme.toList <:+: l
  | .unexpectedEnd => False
  | .tooDeep _ _ => '(' ∈ l ∨ '\x7b' ∈ l ∨ '^' ∈ l

/-- The signs that open a level. -/
theorem Lexer.Spells.of_opens {kind : TokenKind} {cs : List Char} (h : Spells kind cs)
    (ho : kind.opens = true) : cs = ['('] ∨ cs = ['\x7b'] ∨ cs = ['^'] := by
  cases h with
  | word hne hw =>
    rcases wordKind_cases cs with hk | hk
    · rw [hk] at ho
      cases ho
    · rw [hk] at ho
      cases ho
  | number => cases ho
  | @sign c kind hs =>
    unfold sign? at hs
    split at hs <;> cases hs <;> simp_all [TokenKind.opens]

/-! ## 2. Texts -/

namespace Grammar

/-- The line of an error exists, and what the error names is found in it. -/
def Located (text : List Char) (error : SyntaxError) (line : Nat) : Prop :=
  1 ≤ line ∧ line ≤ text.count '\n' + 1 ∧
    ∃ l, (text.splitOn '\n')[line - 1]? = some l ∧ error.FoundIn l

/-- A token found on its line locates an error that names it. -/
theorem located_of_standsOn {text lexeme : List Char} {line : Nat} {error : SyntaxError}
    (h : Lexer.StandsOn text lexeme line)
    (hfound : ∀ l, lexeme <:+: l → error.FoundIn l) : Located text error line := by
  obtain ⟨hpos, hle, l, hl, hin⟩ := h.exists_line
  exact ⟨hpos, hle, l, hl, hfound l hin⟩

/-- A sign that opens a level is found in a line that holds its token. -/
theorem foundIn_of_opens {cs l : List Char} {kind : TokenKind} (h : Lexer.Spells kind cs)
    (ho : kind.opens = true) (hin : cs <:+: l) (line : Nat) :
    (SyntaxError.tooDeep line maxNesting).FoundIn l := by
  rcases h.of_opens ho with rfl | rfl | rfl
  · exact .inl (hin.subset List.mem_cons_self)
  · exact .inr (.inl (hin.subset List.mem_cons_self))
  · exact .inr (.inr (hin.subset List.mem_cons_self))

/-- **The error of a text is located in it**, if it has a line. -/
theorem located_of_parseText {source : String} {error : SyntaxError} {line : Nat}
    (h : parseText source = .error error) (hline : error.line? = some line) :
    Located source.toList error line := by
  unfold parseText at h
  split at h
  · rename_i ts hts
    have hplaces := Lexer.places_of_tokenize hts
    obtain ⟨t, ht, ho, rfl⟩ | rfl | ⟨t, ht, rfl⟩ := parse_error_cases h
    · cases hline
      exact located_of_standsOn (hplaces t ht).line
        fun l hin => foundIn_of_opens (hplaces t ht).spells ho hin t.line
    · cases hline
    · cases hline
      exact located_of_standsOn (hplaces t ht).line fun l hin => hin
  · rename_i error' herror
    cases h
    obtain ⟨lexeme, line', rfl, hstands⟩ := Lexer.blames_of_tokenize herror
    cases hline
    exact located_of_standsOn hstands fun l hin => hin

end Grammar

/-! ## 3. Chunks -/

namespace Session

/-- A chunk is rejected with the error of its text. -/
theorem eval_rejected_iff (s : Session) (source : String) (error : SyntaxError) :
    (s.eval source).result = .error (.rejected error) ↔
      Grammar.parseText source = .error error := by
  unfold eval Grammar.parseText Lexer.tokenize
  simp only
  cases (Lexer.scan source).error? with
  | some cause => simp
  | none =>
    simp only
    cases Grammar.parse (Lexer.scan source).tokens.toList with
    | error cause => simp
    | ok program =>
      simp only [Report.finish_result, reduceCtorEq, iff_false]
      exact execute_result_ne_rejected _ _ _ _

/-- **The line of an error is the right one.** An error with a line rejects the chunk before
    anything runs. The line is one of those of the chunk, counted from one, and holds the text that
    the error names as wrong, or one of the signs that open a level if the chunk is nested too
    deep. -/
theorem eval_error_line {s : Session} {source : String} {error : Error} {line : Nat}
    (h : (s.eval source).result = .error error) (hline : error.line? = some line) :
    1 ≤ line ∧ line ≤ source.toList.count '\n' + 1 ∧
      ∃ cause l, error = .rejected cause ∧
        (source.toList.splitOn '\n')[line - 1]? = some l ∧ cause.FoundIn l := by
  cases error with
  | stopped cause => cases hline
  | rejected cause =>
    obtain ⟨hpos, hle, l, hl, hfound⟩ :=
      Grammar.located_of_parseText ((s.eval_rejected_iff source cause).mp h) hline
    exact ⟨hpos, hle, cause, l, rfl, hl, hfound⟩

/-- An exponent is missing inside a block: the error is on line 4, and `^` is found there. -/
theorem eval_missingExponent :
    (Session.new.eval "a=1;\n\n\x7b b=2;\n  c=a ^ +;\n\x7d").result =
      .error (.rejected (.unexpected "^" 4)) ∧
    ∃ l, ("a=1;\n\n\x7b b=2;\n  c=a ^ +;\n\x7d".toList.splitOn '\n')[3]? = some l ∧
      ['^'] <:+: l := by
  have h : (Session.new.eval "a=1;\n\n\x7b b=2;\n  c=a ^ +;\n\x7d").result =
      .error (.rejected (.unexpected "^" 4)) :=
    (eval_rejected_iff _ _ _).mpr (by with_unfolding_all rfl)
  obtain ⟨-, -, cause, l, hcause, hl, hfound⟩ := eval_error_line h rfl
  cases hcause
  exact ⟨h, l, hl, hfound⟩

end Session

end Abacus
