import Abacus.Proofs.Numeral.Language

/-!
# How far a text is read

A text is read to its end, or up to the first place where no token starts. This file says what the
whole text looks like in both cases:

* a text that is read is a row of pieces, which are the gaps and the tokens in their order, so that
  nothing is lost (`row_of_tokenize`);
* otherwise what stands before the place is such a row, and is read if the text ends there. At the
  place stands a character that belongs to no token, or a number with idle zeros, which is taken as
  far as it goes (`tokenize_error_split`).

What carries the second part is that a token does not go on behind it, so it is the same token if
the text is cut off there (`scanFrom_composes`).
-/

namespace Abacus

namespace Lexer

open Numeral

/-! ## 1. Texts that are read -/

/-- A row of separated pieces is read as its tokens. -/
theorem Composes.tokenize {cs : List Char} {ts : List Token} (h : Composes [] cs ts) :
    tokenize (String.ofList cs) = .ok ts := by
  obtain ⟨pieces, last, hlast, hrow, rfl, rfl⟩ := h
  have hscan : scan (String.ofList (text pieces last)) =
      ⟨#[] ++ (tokensBehind [] pieces).toArray, none⟩ := by
    rw [scan, String.toList_ofList]
    exact scanFrom_text hlast hrow [] #[]
  simp only [Lexer.tokenize, hscan]
  simp

/-- What the text of a token and its kind have to do with each other. -/
structure IsSpelled (t : Token) : Prop where
  ne_newline : t.kind ≠ .newline
  letters : t.kind.IsWord → t.lexeme ≠ "" ∧ ∀ c ∈ t.lexeme.toList, c.isAlpha = true
  word : (∀ c ∈ t.lexeme.toList, c.isAlpha = true) →
    t.kind = if t.lexeme = "print" then .print else .identifier
  number : t.kind = .number → t.lexeme.toList ∈ literalPattern.matches'
  sign : ∀ c, signChar? t.kind = some c → t.lexeme = String.singleton c

theorem wordKind_toList (s : String) :
    wordKind s.toList = if s = "print" then .print else .identifier := by
  have hword : s.toList = "print".toList ↔ s = "print" := String.toList_inj
  have hletters : "print".toList = ['p', 'r', 'i', 'n', 't'] := rfl
  rw [hletters] at hword
  simp only [wordKind, hword]

theorem isSpelled_word {t : Token} (hne : t.lexeme ≠ "")
    (halpha : ∀ c ∈ t.lexeme.toList, c.isAlpha = true) (hk : t.kind = wordKind t.lexeme.toList) :
    IsSpelled t := by
  have hcases : t.kind = .print ∨ t.kind = .identifier := hk ▸ wordKind_cases t.lexeme.toList
  refine ⟨?_, fun _ => ⟨hne, halpha⟩, fun _ => by rw [hk, wordKind_toList], ?_, ?_⟩
  · rcases hcases with hk | hk <;> simp [hk]
  · rcases hcases with hk | hk <;> simp [hk]
  · rcases hcases with hk | hk <;> simp [hk, signChar?]

theorem isSpelled_number {t : Token} (hk : t.kind = .number) (hl : IsLiteral t.lexeme.toList) :
    IsSpelled t := by
  refine ⟨by simp [hk], by simp [hk, TokenKind.IsWord], fun halpha => ?_,
    fun _ => mem_literalPattern.mpr hl, by simp [hk, signChar?]⟩
  obtain ⟨c, tail, hcs, hc⟩ := hl.exists_digit
  have hletter : c.isAlpha = true := halpha c (by rw [hcs]; exact List.mem_cons_self)
  rw [isAlpha_of_isDigit hc] at hletter
  cases hletter

theorem isSpelled_sign {t : Token} {c : Char} (hs : sign? c = some t.kind)
    (hc : t.lexeme.toList = [c]) : IsSpelled t := by
  obtain ⟨hnotAlpha, -, -⟩ := isAlpha_of_sign? hs
  rw [sign?_eq_some_iff] at hs
  refine ⟨fun hk => ?_, fun hk => ?_, fun halpha => ?_, fun hk => ?_, fun d hd => ?_⟩
  · rw [hk] at hs
    cases hs
  · rcases hk with hk | hk
    · rw [hk] at hs
      cases hs
    · rw [hk] at hs
      cases hs
  · rw [halpha c (by rw [hc]; exact List.mem_cons_self)] at hnotAlpha
    cases hnotAlpha
  · rw [hk] at hs
    cases hs
  · rw [hs] at hd
    cases hd
    rw [← String.toList_inj, hc, String.toList_singleton]

theorem isSpelled_of_isLexeme {t : Token} (h : IsLexeme t.kind t.lexeme.toList) : IsSpelled t := by
  rw [isLexeme_iff] at h
  obtain ⟨hne, halpha, hk⟩ | ⟨hk, hl⟩ | ⟨c, hs, hc⟩ := h
  · exact isSpelled_word (fun hempty => hne (by rw [hempty]; rfl)) halpha hk
  · exact isSpelled_number hk hl
  · exact isSpelled_sign hs hc

/-- **A text that is read is the row of its tokens, with gaps between them.** No character is lost,
    each token stands on the line that the line breaks before it make up, and two words or two
    numbers that touch each other would have been one. The tokens are spelled as their kinds ask
    for. -/
theorem row_of_tokenize {source : String} {ts : List Token} (h : tokenize source = .ok ts) :
    (∃ pieces last, IsGap last ∧ Separated pieces ∧ source.toList = text pieces last ∧
      ts = tokensBehind [] pieces) ∧
    ∀ t ∈ ts, IsSpelled t :=
  ⟨composes_of_tokenize h, fun _ ht => isSpelled_of_isLexeme (isLexeme_of_tokenize h ht)⟩

/-- The tokens of `print printed1;`, and of `x=0.5^9` in a line of its own. -/
def touchingTokens : List Token :=
  [⟨.print, "print", 1⟩, ⟨.identifier, "printed", 1⟩, ⟨.number, "1", 1⟩, ⟨.semicolon, ";", 1⟩,
    ⟨.identifier, "x", 2⟩, ⟨.assign, "=", 2⟩, ⟨.number, "0.5", 2⟩, ⟨.caret, "^", 2⟩,
    ⟨.number, "9", 2⟩]

/-- Words, numbers and signs that touch each other. -/
theorem row_touchingTokens :
    tokenize "print printed1;\n\tx=0.5^9" = .ok touchingTokens ∧
    (∃ pieces last, IsGap last ∧ Separated pieces ∧
      "print printed1;\n\tx=0.5^9".toList = text pieces last ∧
      touchingTokens = tokensBehind [] pieces) ∧
    ∀ t ∈ touchingTokens, IsSpelled t := by
  have h : tokenize "print printed1;\n\tx=0.5^9" = .ok touchingTokens := by
    with_unfolding_all rfl
  exact ⟨h, row_of_tokenize h⟩

/-! ## 2. Texts that are not read -/

/-- The signs that are tokens. -/
def signs : List Char := ['(', ')', '\x7b', '\x7d', '=', '+', '-', '*', '/', '^', ';']

/-- The character belongs neither to a token nor to a gap. -/
structure IsForeign (c : Char) : Prop where
  not_alphanum : c.isAlphanum = false
  not_gap : c ≠ ' ' ∧ c ≠ '\t' ∧ c ≠ '\n'
  not_sign : c ∉ signs

theorem notMem_signs {c : Char} (h : sign? c = none) : c ∉ signs := by
  intro hm
  have hsome : ∀ s ∈ signs, (sign? s).isSome = true := List.all_eq_true.mp rfl
  have hc := hsome c hm
  rw [h] at hc
  cases hc

/-- What stands where reading stops: a foreign character, or a number with idle zeros that is taken
    as far as it goes. -/
theorem exists_of_first_illegal {c : Char} {cs lexeme : List Char} (hb : ¬(c = ' ' ∨ c = '\t'))
    (hn : c ≠ '\n') (h : first c cs = .illegal lexeme) :
    ∃ rest, c :: cs = lexeme ++ rest ∧
      ((∃ d, lexeme = [d] ∧ IsForeign d) ∨
        IsLongest numberPattern.matches' (lexeme ++ rest) lexeme ∧
          lexeme ∉ literalPattern.matches') := by
  rw [first_eq_illegal_iff] at h
  obtain ⟨-, hd, hw, rfl⟩ | ⟨ha, hd, hs, rfl⟩ := h
  · obtain ⟨hsplit, -⟩ := takeNumber_split (c :: cs)
    refine ⟨_, hsplit, .inr ⟨?_, fun hl => ?_⟩⟩
    · rw [← hsplit]
      exact takeNumber_isLongest hd cs
    · rw [(mem_literalPattern.mp hl).isWellFormed] at hw
      cases hw
  · refine ⟨cs, rfl, .inl ⟨c, rfl, ?_, ?_, notMem_signs hs⟩⟩
    · rw [Char.isAlphanum, ha, hd]
      rfl
    · exact ⟨fun h => hb (.inl h), fun h => hb (.inr h), hn⟩

/-- **A text that is not read is read up to the place that the error names.** What stands before
    the place is read alone, as the tokens that were read of the whole, and the line breaks in it
    make up the line of the error. At the place stands a foreign character, or a number that is no
    literal and does not go on behind it. -/
theorem tokenize_error_split {source : String} {error : SyntaxError}
    (h : tokenize source = .error error) :
    ∃ before lexeme rest : String, source = before ++ lexeme ++ rest ∧
      error = .illegal lexeme (before.toList.count '\n' + 1) ∧
      tokenize before = .ok (scan source).tokens.toList ∧
      ((∃ c, lexeme = String.singleton c ∧ IsForeign c) ∨
        IsLongest numberPattern.matches' (lexeme ++ rest).toList lexeme.toList ∧
          lexeme.toList ∉ literalPattern.matches') := by
  obtain ⟨done, left, ts, htext, hrow, hts, hstop⟩ := scanFrom_composes 1 #[] [] source.toList rfl
  rw [← scan, scan_of_tokenize_error h, List.nil_append] at hstop
  cases hstop with
  | @stuck c cs lexeme hb hn hf =>
    obtain ⟨rest, hsplit, hplace⟩ := exists_of_first_illegal hb hn hf
    refine ⟨String.ofList done, String.ofList lexeme, String.ofList rest, ?_, ?_, ?_, ?_⟩
    · rw [← String.toList_inj, htext, hsplit]
      simp
    · rw [String.toList_ofList]
    · rw [scan, hts]
      exact hrow.tokenize
    · rcases hplace with ⟨d, rfl, hd⟩ | hnumber
      · exact .inl ⟨d, rfl, hd⟩
      · right
        simpa using hnumber

/-- A number with a zero at the end of its fraction and a second point behind it, on the second
    line. It is not read as `12.3` or `12`. -/
theorem tokenize_error_idleZero :
    tokenize "a=1.5\n\tb12.30.4" = .error (.illegal "12.30" 2) ∧
    ∃ before rest : String, "a=1.5\n\tb12.30.4" = before ++ "12.30" ++ rest ∧
      before.toList.count '\n' = 1 ∧
      tokenize before = .ok [⟨.identifier, "a", 1⟩, ⟨.assign, "=", 1⟩, ⟨.number, "1.5", 1⟩,
        ⟨.identifier, "b", 2⟩] ∧
      IsLongest numberPattern.matches' ("12.30" ++ rest).toList "12.30".toList := by
  have h : tokenize "a=1.5\n\tb12.30.4" = .error (.illegal "12.30" 2) := by
    with_unfolding_all rfl
  have hread : (scan "a=1.5\n\tb12.30.4").tokens.toList = [⟨.identifier, "a", 1⟩,
      ⟨.assign, "=", 1⟩, ⟨.number, "1.5", 1⟩, ⟨.identifier, "b", 2⟩] := by
    with_unfolding_all rfl
  obtain ⟨before, lexeme, rest, htext, herror, hbefore, hplace⟩ := tokenize_error_split h
  obtain ⟨rfl, hline⟩ := SyntaxError.illegal.inj herror
  refine ⟨h, before, rest, htext, by omega, hread ▸ hbefore, ?_⟩
  rcases hplace with ⟨c, hc, -⟩ | ⟨hlongest, -⟩
  · rw [← String.toList_inj, String.toList_singleton] at hc
    cases hc
  · exact hlongest

end Lexer

end Abacus
