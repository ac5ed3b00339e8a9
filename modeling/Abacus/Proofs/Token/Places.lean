import Abacus.Proofs.Token.Lines

/-!
# Where tokens stand in a text

A token carries the text it was written as and the number of a line, and so does the error at which
reading stops. This file says what both have to do with the text:

* a token of each kind has a spelling of its own (`Spells`): a word, a number that starts with a
  digit, or one sign;
* its text is found in the whole text behind as many line breaks as the line says (`StandsOn`).
  What carries the induction is what was read already: the line is always one more than the line
  breaks in it;
* so the line with that number, counted from one, holds the token (`StandsOn.exists_line`).

Main statement: every token of a text, and the error of a text, stand on their line
(`scan_places`).
-/

namespace Abacus

namespace Lexer

/-! ## 1. Spellings -/

/-- The text is one that tokens of the kind are written as. -/
inductive Spells : TokenKind → List Char → Prop where
  | word {cs : List Char} (hne : cs ≠ []) (h : ∀ c ∈ cs, c.isAlpha = true) : Spells (wordKind cs) cs
  | number {c : Char} {cs : List Char} (hc : c.isDigit = true)
      (h : isWellFormed (c :: cs) = true) : Spells .number (c :: cs)
  | sign {c : Char} {kind : TokenKind} (h : sign? c = some kind) : Spells kind [c]

theorem wordKind_cases (cs : List Char) : wordKind cs = .print ∨ wordKind cs = .identifier := by
  unfold wordKind
  split
  · exact .inl rfl
  · exact .inr rfl

/-- A number starts with the digit that it was recognised by. -/
theorem takeNumber_cons {c : Char} (hc : c.isDigit = true) (cs : List Char) :
    ∃ rest, (takeNumber (c :: cs)).1 = c :: rest := by
  have hwhole : (c :: cs).takeWhile Char.isDigit = c :: cs.takeWhile Char.isDigit := by
    rw [List.takeWhile_cons, if_pos hc]
  simp only [takeNumber, hwhole]
  split
  · exact ⟨_, rfl⟩
  · exact ⟨_, rfl⟩

/-- **What is read as a token is a spelling of its kind.** -/
theorem first_spells {c : Char} {cs : List Char} {kind : TokenKind} {lexeme behind : List Char}
    (h : first c cs = .token kind lexeme behind) : Spells kind lexeme := by
  rw [first_eq_token_iff] at h
  obtain ⟨hc, rfl, rfl, -⟩ | ⟨-, hd, rfl, hw, hn⟩ | ⟨-, -, hs, rfl, -⟩ := h
  · refine .word (List.cons_ne_nil _ _) fun d hd => ?_
    rcases List.mem_cons.mp hd with rfl | hd
    · exact hc
    · exact List.all_eq_true.mp List.all_takeWhile _ hd
  · obtain ⟨rest, hrest⟩ := takeNumber_cons hd cs
    rw [hn] at hrest
    cases hrest
    exact .number hd hw
  · exact .sign hs

/-- A number is spelled with a digit in front. -/
theorem Spells.exists_digit {cs : List Char} (h : Spells .number cs) :
    ∃ c rest, cs = c :: rest ∧ c.isDigit = true := by
  generalize hk : TokenKind.number = kind at h
  cases h with
  | word hne hw =>
    rcases wordKind_cases cs with h' | h'
    · rw [← hk] at h'
      cases h'
    · rw [← hk] at h'
      cases h'
  | number hc hw => exact ⟨_, _, rfl, hc⟩
  | @sign c kind hs =>
    subst hk
    unfold sign? at hs
    split at hs <;> cases hs

/-! ## 2. Places -/

/-- The text of a token is found in the whole text on the line with the given number. No token goes
    over a line break. -/
def StandsOn (text lexeme : List Char) (line : Nat) : Prop :=
  ∃ before behind, text = before ++ (lexeme ++ behind) ∧ '\n' ∉ lexeme ∧
    line = before.count '\n' + 1

/-- The token is spelled as its kind asks for, and stands on its line of the text. -/
structure Places (text : List Char) (t : Token) : Prop where
  spells : Spells t.kind t.lexeme.toList
  line : StandsOn text t.lexeme.toList t.line

/-- The error names something that stands on its line of the text. -/
def Blames (text : List Char) (error : SyntaxError) : Prop :=
  ∃ lexeme line, error = .illegal lexeme line ∧ StandsOn text lexeme.toList line

/-- What cannot be read as a token is found in the text as well. -/
theorem first_illegal_split {c : Char} {cs lexeme : List Char} (hn : c ≠ '\n')
    (h : first c cs = .illegal lexeme) :
    ∃ behind, c :: cs = lexeme ++ behind ∧ '\n' ∉ lexeme := by
  rw [first_eq_illegal_iff] at h
  obtain ⟨-, -, -, rfl⟩ | ⟨-, -, -, rfl⟩ := h
  · obtain ⟨hsplit, hnumber⟩ := takeNumber_split (c :: cs)
    exact ⟨_, hsplit, hnumber⟩
  · exact ⟨cs, rfl, fun hm => hn (List.mem_singleton.mp hm).symm⟩

/-- **Reading on keeps every token in its place**: the tokens read before, those read now, and the
    error at which reading stops. -/
theorem scanFrom_places {text : List Char} (line : Nat) (tokens : Array Token) (done cs : List Char)
    (htext : text = done ++ cs) (hline : line = done.count '\n' + 1)
    (htokens : ∀ t ∈ tokens, Places text t) :
    (∀ t ∈ (scanFrom line tokens cs).tokens, Places text t) ∧
      ∀ error ∈ (scanFrom line tokens cs).error?, Blames text error := by
  fun_induction scanFrom line tokens cs generalizing done with
  | case1 line tokens => exact ⟨htokens, fun error herror => by cases herror⟩
  | case2 line tokens c cs hc ih =>
    have hn : c ≠ '\n' := by rintro rfl; simp at hc
    refine ih (done ++ [c]) ?_ ?_ htokens
    · rw [htext, List.append_assoc, List.singleton_append]
    · rw [hline, List.count_append, List.count_singleton, if_neg (by simpa using hn), Nat.add_zero]
  | case3 line tokens cs _ ih =>
    refine ih (done ++ ['\n']) ?_ ?_ htokens
    · rw [htext, List.append_assoc, List.singleton_append]
    · rw [hline, List.count_append, List.count_singleton_self]
  | case4 line tokens c cs hb hn kind lexeme behind hf ih =>
    obtain ⟨hsplit, hlexeme⟩ := first_token_split hf
    have hplace : Places text ⟨kind, String.ofList lexeme, line⟩ := by
      refine ⟨?_, done, behind, ?_, ?_, hline⟩
      · rw [String.toList_ofList]
        exact first_spells hf
      · rw [String.toList_ofList, htext, hsplit]
      · rwa [String.toList_ofList]
    refine ih (done ++ lexeme) ?_ ?_ ?_
    · rw [htext, hsplit, List.append_assoc]
    · rw [hline, List.count_append, List.count_eq_zero_of_not_mem hlexeme, Nat.add_zero]
    · intro t ht
      rcases Array.mem_push.mp ht with ht | rfl
      · exact htokens t ht
      · exact hplace
  | case5 line tokens c cs hb hn lexeme hf =>
    obtain ⟨behind, hsplit, hlexeme⟩ := first_illegal_split hn hf
    refine ⟨htokens, fun error herror => ?_⟩
    cases herror
    refine ⟨_, line, rfl, done, behind, ?_, ?_, hline⟩
    · rw [String.toList_ofList, htext, hsplit]
    · rwa [String.toList_ofList]

/-- **Every token of a text stands on its line**, and so does what the error of a text names. -/
theorem scan_places (source : String) :
    (∀ t ∈ (scan source).tokens, Places source.toList t) ∧
      ∀ error ∈ (scan source).error?, Blames source.toList error := by
  refine scanFrom_places 1 #[] [] source.toList rfl rfl fun t ht => ?_
  simp at ht

theorem places_of_tokenize {source : String} {ts : List Token} (h : tokenize source = .ok ts) :
    ∀ t ∈ ts, Places source.toList t := by
  obtain ⟨-, rfl⟩ := scan_of_tokenize h
  intro t ht
  exact (scan_places source).1 t (Array.mem_toList_iff.mp ht)

theorem blames_of_tokenize {source : String} {error : SyntaxError}
    (h : tokenize source = .error error) : Blames source.toList error :=
  (scan_places source).2 error (scan_of_tokenize_error h)

/-! ## 3. The lines of a text -/

/-- What stands in front of the first line break belongs to the first line. -/
theorem splitOn_append_of_notMem {lexeme : List Char} (h : '\n' ∉ lexeme) (behind : List Char) :
    (lexeme ++ behind).splitOn '\n' = (behind.splitOn '\n').modifyHead (lexeme ++ ·) := by
  induction lexeme with
  | nil => cases hb : behind.splitOn '\n' <;> simp [hb]
  | cons c lexeme ih =>
    have hc : (c == '\n') = false := by
      simp only [List.mem_cons, not_or] at h
      simpa using Ne.symm h.1
    rw [List.cons_append, List.splitOn_cons_eq_if_modifyHead, hc, ih (fun hm => h (.tail _ hm))]
    cases behind.splitOn '\n' with
    | nil => rfl
    | cons l ls => rfl

/-- **The line with the number of a token holds the token.** Lines are counted from one, and there
    is one more of them than line breaks. -/
theorem StandsOn.exists_line {text lexeme : List Char} {line : Nat} (h : StandsOn text lexeme line) :
    1 ≤ line ∧ line ≤ text.count '\n' + 1 ∧
      ∃ l, (text.splitOn '\n')[line - 1]? = some l ∧ lexeme <:+: l := by
  obtain ⟨before, behind, rfl, hlexeme, rfl⟩ := h
  refine ⟨by omega, by rw [List.count_append]; omega, ?_⟩
  rw [Nat.add_sub_cancel]
  induction before with
  | nil =>
    rw [List.nil_append, List.count_nil, splitOn_append_of_notMem hlexeme]
    cases hb : behind.splitOn '\n' with
    | nil => exact absurd hb (List.splitOn_ne_nil _ _)
    | cons l ls => exact ⟨lexeme ++ l, rfl, List.infix_append [] lexeme l⟩
  | cons c before ih =>
    obtain ⟨l, hl, hin⟩ := ih
    rw [List.cons_append, List.splitOn_cons_eq_if_modifyHead]
    by_cases hc : c = '\n'
    · subst hc
      rw [List.count_cons_self, if_pos (by rfl)]
      exact ⟨l, hl, hin⟩
    · rw [List.count_cons_of_ne hc, if_neg (by simpa using hc), List.getElem?_modifyHead, hl]
      split
      · exact ⟨c :: l, rfl, hin.trans (List.suffix_cons c l).isInfix⟩
      · exact ⟨l, rfl, hin⟩

end Lexer

end Abacus
