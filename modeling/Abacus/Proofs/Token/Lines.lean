import Abacus.Token.Lexer

/-!
# Reading on behind a line break

No token goes over a line break. So a text that is followed by a line break is read as it is read
alone, and what stands behind the line break is read as if it were alone too, but for the lines that
its tokens and its error are found on. Two things carry this:

* what starts at a character is the same whether the text ends or goes on with a line break
  (`first_append_newline`), and no line break is part of it (`first_token_split`);
* the line that reading starts on moves all tokens and the error, and nothing else depends on it or
  on the tokens read before (`scanFrom_below`).

Main statement: the tokens of a text with another one below it are those of both, the lower ones
moved down; an error of the lower text is moved down (`tokenize_join`).
-/

namespace Abacus

/-! ## 1. Further down -/

/-- The token, the given number of lines further down. -/
def Token.below (lines : Nat) (t : Token) : Token := { t with line := t.line + lines }

/-- The error, the given number of lines further down if it has a line. -/
def SyntaxError.below (lines : Nat) : SyntaxError → SyntaxError
  | .illegal lexeme line => .illegal lexeme (line + lines)
  | .unexpected lexeme line => .unexpected lexeme (line + lines)
  | .unexpectedEnd => .unexpectedEnd
  | .tooDeep line limit => .tooDeep (line + lines) limit

namespace Lexer

/-! ## 2. The first token before a line break -/

theorem takeWhile_append_newline {p : Char → Bool} (hp : p '\n' = false) (cs rest : List Char) :
    (cs ++ '\n' :: rest).takeWhile p = cs.takeWhile p := by
  induction cs with
  | nil => simp [hp]
  | cons c cs ih =>
    rw [List.cons_append, List.takeWhile_cons, List.takeWhile_cons, ih]

theorem dropWhile_append_newline {p : Char → Bool} (hp : p '\n' = false) (cs rest : List Char) :
    (cs ++ '\n' :: rest).dropWhile p = cs.dropWhile p ++ '\n' :: rest := by
  induction cs with
  | nil => simp [hp]
  | cons c cs ih =>
    rw [List.cons_append, List.dropWhile_cons, List.dropWhile_cons, ih]
    split
    · rfl
    · rfl

/-- What satisfies a condition is taken up to the first character that does not. -/
theorem span_append {p : Char → Bool} {cs rest : List Char} (h : ∀ c ∈ cs, p c = true)
    (hr : ∀ c ∈ rest.head?, p c = false) :
    (cs ++ rest).takeWhile p = cs ∧ (cs ++ rest).dropWhile p = rest := by
  rw [List.takeWhile_append_of_pos h, List.dropWhile_append_of_pos h]
  cases rest with
  | nil => exact ⟨List.append_nil cs, rfl⟩
  | cons c rest =>
    have hc : ¬p c = true := by simp [hr c rfl]
    rw [List.takeWhile_cons_of_neg hc, List.dropWhile_cons_of_neg hc, List.append_nil]
    exact ⟨rfl, rfl⟩

/-- What was dropped up to does not satisfy the condition. -/
theorem eq_false_of_head?_dropWhile {p : Char → Bool} {cs : List Char} {c : Char}
    (hc : c ∈ (cs.dropWhile p).head?) : p c = false := by
  have hnot := List.head?_dropWhile_not p cs
  rw [hc] at hnot
  simpa using hnot

theorem takeNumber_append_newline (cs rest : List Char) :
    takeNumber (cs ++ '\n' :: rest) = ((takeNumber cs).1, (takeNumber cs).2 ++ '\n' :: rest) := by
  have hdigit : Char.isDigit '\n' = false := by decide
  simp only [takeNumber, takeWhile_append_newline hdigit, dropWhile_append_newline hdigit]
  cases cs.dropWhile Char.isDigit with
  | nil => rfl
  | cons c cs =>
    by_cases hc : c = '.'
    · rw [hc]
      simp only [List.cons_append, takeWhile_append_newline hdigit,
        dropWhile_append_newline hdigit]
    · simp [hc]

/-- The three kinds of tokens: words, numbers and signs. -/
theorem first_eq_token_iff {c : Char} {cs : List Char} {kind : TokenKind}
    {lexeme behind : List Char} :
    first c cs = .token kind lexeme behind ↔
      (c.isAlpha = true ∧ kind = wordKind lexeme ∧ lexeme = c :: cs.takeWhile Char.isAlpha ∧
        behind = cs.dropWhile Char.isAlpha) ∨
      (c.isAlpha = false ∧ c.isDigit = true ∧ kind = .number ∧ isWellFormed lexeme = true ∧
        takeNumber (c :: cs) = (lexeme, behind)) ∨
      (c.isAlpha = false ∧ c.isDigit = false ∧ sign? c = some kind ∧ lexeme = [c] ∧
        behind = cs) := by
  unfold first
  cases ha : c.isAlpha with
  | true => grind
  | false =>
    cases hd : c.isDigit with
    | true => grind
    | false =>
      cases hs : sign? c with
      | none => grind
      | some sign => grind

/-- What starts no token: a number with idle zeros, and a character that no token starts with. -/
theorem first_eq_illegal_iff {c : Char} {cs lexeme : List Char} :
    first c cs = .illegal lexeme ↔
      (c.isAlpha = false ∧ c.isDigit = true ∧ isWellFormed lexeme = false ∧
        (takeNumber (c :: cs)).1 = lexeme) ∨
      (c.isAlpha = false ∧ c.isDigit = false ∧ sign? c = none ∧ lexeme = [c]) := by
  unfold first
  cases ha : c.isAlpha with
  | true => grind
  | false =>
    cases hd : c.isDigit with
    | true => grind
    | false =>
      cases hs : sign? c with
      | none => grind
      | some sign => grind

/-- A token is the same whether the text ends or goes on with a line break. -/
theorem first_append_newline {c : Char} {cs : List Char} {kind : TokenKind}
    {lexeme behind : List Char} (h : first c cs = .token kind lexeme behind) (rest : List Char) :
    first c (cs ++ '\n' :: rest) = .token kind lexeme (behind ++ '\n' :: rest) := by
  have halpha : Char.isAlpha '\n' = false := by decide
  rw [first_eq_token_iff] at h ⊢
  obtain ⟨hc, hk, hl, hb⟩ | ⟨hc, hd, hk, hw, hn⟩ | ⟨hc, hd, hs, hl, hb⟩ := h
  · refine .inl ⟨hc, hk, ?_, ?_⟩
    · rw [takeWhile_append_newline halpha, hl]
    · rw [dropWhile_append_newline halpha, hb]
  · refine .inr (.inl ⟨hc, hd, hk, hw, ?_⟩)
    rw [← List.cons_append, takeNumber_append_newline, hn]
  · exact .inr (.inr ⟨hc, hd, hs, hl, by rw [hb]⟩)

theorem newline_notMem_takeWhile {p : Char → Bool} (hp : p '\n' = false) (cs : List Char) :
    '\n' ∉ cs.takeWhile p := by
  intro h
  have hn : p '\n' = true := List.all_eq_true.mp List.all_takeWhile _ h
  rw [hp] at hn
  cases hn

/-- A number is what stands before the rest, and holds no line break. -/
theorem takeNumber_split (cs : List Char) :
    cs = (takeNumber cs).1 ++ (takeNumber cs).2 ∧ '\n' ∉ (takeNumber cs).1 := by
  have hdigit : Char.isDigit '\n' = false := by decide
  have hsplit := List.takeWhile_append_dropWhile (p := Char.isDigit) (l := cs)
  have hwhole := newline_notMem_takeWhile hdigit cs
  simp only [takeNumber]
  split
  · rename_i rest hr
    refine ⟨?_, ?_⟩
    · rw [List.append_assoc, List.cons_append, List.takeWhile_append_dropWhile, ← hr, hsplit]
    · simp [hwhole, newline_notMem_takeWhile hdigit rest]
  · exact ⟨hsplit.symm, hwhole⟩

/-- A token is what stands before the rest, and holds no line break. -/
theorem first_token_split {c : Char} {cs : List Char} {kind : TokenKind}
    {lexeme behind : List Char} (h : first c cs = .token kind lexeme behind) :
    c :: cs = lexeme ++ behind ∧ '\n' ∉ lexeme := by
  rw [first_eq_token_iff] at h
  obtain ⟨hc, -, rfl, rfl⟩ | ⟨-, -, -, -, hn⟩ | ⟨-, -, hs, rfl, rfl⟩ := h
  · refine ⟨by simp, ?_⟩
    have hword : '\n' ∉ (c :: cs).takeWhile Char.isAlpha :=
      newline_notMem_takeWhile (by decide) _
    rwa [List.takeWhile_cons, if_pos hc] at hword
  · have hsplit := takeNumber_split (c :: cs)
    rwa [hn] at hsplit
  · refine ⟨rfl, fun h => ?_⟩
    rw [← List.mem_singleton.mp h] at hs
    cases hs

/-! ## 3. Reading on -/

section Steps

variable {line : Nat} {tokens : Array Token} {c : Char} {cs : List Char}

theorem scanFrom_blank (hc : c = ' ' ∨ c = '\t') :
    scanFrom line tokens (c :: cs) = scanFrom line tokens cs := by
  rw [scanFrom, if_pos hc]

theorem scanFrom_newline : scanFrom line tokens ('\n' :: cs) = scanFrom (line + 1) tokens cs := by
  rw [scanFrom, if_neg (by decide), if_pos rfl]

theorem scanFrom_token {kind : TokenKind} {lexeme behind : List Char}
    (hb : ¬(c = ' ' ∨ c = '\t')) (hn : c ≠ '\n') (h : first c cs = .token kind lexeme behind) :
    scanFrom line tokens (c :: cs) =
      scanFrom line (tokens.push ⟨kind, String.ofList lexeme, line⟩) behind := by
  rw [scanFrom, if_neg hb, if_neg hn]
  split
  · rename_i h'
    rw [h] at h'
    cases h'
    rfl
  · rename_i h'
    rw [h] at h'
    cases h'

theorem scanFrom_illegal {lexeme : List Char} (hb : ¬(c = ' ' ∨ c = '\t')) (hn : c ≠ '\n')
    (h : first c cs = .illegal lexeme) :
    scanFrom line tokens (c :: cs) = ⟨tokens, some (.illegal (String.ofList lexeme) line)⟩ := by
  rw [scanFrom, if_neg hb, if_neg hn]
  split
  · rename_i h'
    rw [h] at h'
    cases h'
  · rename_i h'
    rw [h] at h'
    cases h'
    rfl

end Steps

/-- **Behind a line break reading goes on as at the start**, on a later line and with the tokens
    from before. -/
theorem scanFrom_append_newline (line : Nat) (tokens : Array Token) (cs rest : List Char)
    (h : (scanFrom line tokens cs).error? = none) :
    scanFrom line tokens (cs ++ '\n' :: rest) =
      scanFrom (line + (cs.count '\n' + 1)) (scanFrom line tokens cs).tokens rest := by
  fun_induction scanFrom line tokens cs with
  | case1 line tokens => exact scanFrom_newline
  | case2 line tokens c cs hc ih =>
    have hcount : (c :: cs).count '\n' = cs.count '\n' :=
      List.count_cons_of_ne (by rintro rfl; simp at hc)
    rw [List.cons_append, scanFrom_blank hc, ih h, hcount]
  | case3 line tokens cs _ ih =>
    rw [List.cons_append, scanFrom_newline, ih h, List.count_cons_self]
    congr 1
    omega
  | case4 line tokens c cs hb hn kind lexeme behind hf ih =>
    have hcount : (c :: cs).count '\n' = behind.count '\n' := by
      obtain ⟨hsplit, hlexeme⟩ := first_token_split hf
      rw [hsplit, List.count_append, List.count_eq_zero_of_not_mem hlexeme, Nat.zero_add]
    rw [List.cons_append, scanFrom_token hb hn (first_append_newline hf rest), ih h, hcount]
  | case5 => cases h

/-- **The line that reading starts on moves the tokens and the error, and nothing else.** -/
theorem scanFrom_below (lines : Nat) (before : Array Token) (line : Nat) (tokens : Array Token)
    (cs : List Char) :
    scanFrom (line + lines) (before ++ tokens.map (Token.below lines)) cs =
      ⟨before ++ (scanFrom line tokens cs).tokens.map (Token.below lines),
        (scanFrom line tokens cs).error?.map (SyntaxError.below lines)⟩ := by
  fun_induction scanFrom line tokens cs with
  | case1 line tokens =>
    rw [scanFrom]
    rfl
  | case2 line tokens c cs hc ih => rw [scanFrom_blank hc, ih]
  | case3 line tokens cs _ ih => rw [scanFrom_newline, Nat.add_right_comm, ih]
  | case4 line tokens c cs hb hn kind lexeme behind hf ih =>
    rw [scanFrom_token hb hn hf, ← ih, Array.map_push, Array.append_push]
    rfl
  | case5 line tokens c cs hb hn lexeme hf =>
    rw [scanFrom_illegal hb hn hf]
    rfl

/-! ## 4. Texts below each other -/

/-- The scan behind tokens without an error. -/
theorem scan_of_tokenize {source : String} {ts : List Token} (h : tokenize source = .ok ts) :
    (scan source).error? = none ∧ (scan source).tokens.toList = ts := by
  simp only [tokenize] at h
  split at h
  · rename_i herror
    exact ⟨herror, Except.ok.inj h⟩
  · cases h

/-- The scan behind which there is an error. -/
theorem scan_of_tokenize_error {source : String} {error : SyntaxError}
    (h : tokenize source = .error error) : (scan source).error? = some error := by
  simp only [tokenize] at h
  split at h
  · cases h
  · rename_i herror
    cases h
    exact herror

/-- **The tokens of a text with another one below it** are those of both texts, and an error of the
    lower text is the error of the whole. What belongs to the lower text is moved down. -/
theorem tokenize_join {a : String} {ts : List Token} (ha : tokenize a = .ok ts) (b : String) :
    tokenize (a ++ "\n" ++ b) =
      match tokenize b with
      | .ok us => .ok (ts ++ us.map (Token.below (a.toList.count '\n' + 1)))
      | .error error => .error (error.below (a.toList.count '\n' + 1)) := by
  obtain ⟨herror, rfl⟩ := scan_of_tokenize ha
  have htext : (a ++ "\n" ++ b).toList = a.toList ++ '\n' :: b.toList := by simp
  have hscan : scan (a ++ "\n" ++ b) =
      ⟨(scan a).tokens ++ (scan b).tokens.map (Token.below (a.toList.count '\n' + 1)),
        (scan b).error?.map (SyntaxError.below (a.toList.count '\n' + 1))⟩ := by
    have hlower := scanFrom_below (a.toList.count '\n' + 1) (scan a).tokens 1 #[] b.toList
    rw [Array.map_empty, Array.append_empty] at hlower
    rw [scan, htext, scanFrom_append_newline _ _ _ _ herror]
    exact hlower
  simp only [tokenize, hscan]
  cases (scan b).error? with
  | none => simp
  | some error => rfl

end Lexer

end Abacus
