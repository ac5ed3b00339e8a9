import Abacus.Proofs.Grammar.Joining

/-!
# Number literals

A literal is a whole part without idle zeros in front and, if there is a point, a fraction without
idle zeros at the end. What ends a literal is a character that could not be a part of it, so behind
it there must stand no digit and no point.

Main statements: a literal is read as one token, wherever it stands (`IsLiteral.scanFrom`); without
a point it stands for the integer that its digits make up (`value?_whole`), and with one for the
binary number nearest to them (`value?_point`). So the program that shows a literal is read as it
is meant (`Grammar.parseText_showing`).
-/

namespace Abacus

namespace Numeral

/-! ## 1. Literals -/

/-- There are only digits in the text. -/
def IsDigits (cs : List Char) : Prop := ∀ c ∈ cs, c.isDigit = true

instance (cs : List Char) : Decidable (IsDigits cs) :=
  decidable_of_iff (cs.all Char.isDigit = true) List.all_eq_true

/-- The text is a literal. -/
inductive IsLiteral : List Char → Prop where
  | whole {whole : List Char} (hne : whole ≠ []) (hd : IsDigits whole)
      (hw : Lexer.wholeWellFormed whole = true) : IsLiteral whole
  | point {whole fraction : List Char} (hne : whole ≠ []) (hd : IsDigits whole)
      (hw : Lexer.wholeWellFormed whole = true) (hf : IsDigits fraction)
      (hl : Lexer.fractionWellFormed fraction = true) : IsLiteral (whole ++ '.' :: fraction)

/-- Behind a literal stands neither a digit nor a point. -/
def EndsLiteral (rest : List Char) : Prop := ∀ c ∈ rest.head?, c.isDigit = false ∧ c ≠ '.'

theorem IsDigits.notMem {cs : List Char} (h : IsDigits cs) {c : Char} (hc : c.isDigit = false) :
    c ∉ cs := by
  intro hm
  rw [h c hm] at hc
  cases hc

/-- Digits are taken up to the first character that is none. -/
theorem IsDigits.span {cs : List Char} (h : IsDigits cs) {rest : List Char}
    (hr : ∀ c ∈ rest.head?, c.isDigit = false) :
    (cs ++ rest).takeWhile Char.isDigit = cs ∧ (cs ++ rest).dropWhile Char.isDigit = rest :=
  Lexer.span_append h hr

/-- The point is looked for behind the digits of the whole part. -/
theorem IsDigits.span_point {cs : List Char} (h : IsDigits cs) {rest : List Char}
    (hr : ∀ c ∈ rest.head?, c = '.') :
    (cs ++ rest).takeWhile (· != '.') = cs ∧ (cs ++ rest).dropWhile (· != '.') = rest := by
  have hcs : ∀ c ∈ cs, (c != '.') = true := by
    intro c hc
    rw [bne_iff_ne]
    rintro rfl
    exact h.notMem (by decide) hc
  rw [List.takeWhile_append_of_pos hcs, List.dropWhile_append_of_pos hcs]
  cases rest with
  | nil => exact ⟨List.append_nil cs, rfl⟩
  | cons c rest =>
    rw [hr c rfl]
    exact ⟨List.append_nil cs, rfl⟩

theorem isAlpha_of_isDigit {c : Char} (h : c.isDigit = true) : c.isAlpha = false := by
  have hdigit : c.val ≤ '9'.val := of_decide_eq_true (Bool.and_eq_true_iff.mp h).2
  rw [Bool.eq_false_iff]
  intro halpha
  rcases Bool.or_eq_true_iff.mp halpha with hupper | hlower
  · have hletter : 'A'.val ≤ c.val := (of_decide_eq_true hupper).1
    exact absurd (UInt32.le_trans hletter hdigit) (by decide)
  · have hletter : 'a'.val ≤ c.val :=
      of_decide_eq_true (Bool.and_eq_true_iff.mp hlower).1
    exact absurd (UInt32.le_trans hletter hdigit) (by decide)

/-- A digit is neither a blank nor a line break. -/
theorem ne_gap_of_isDigit {c : Char} (h : c.isDigit = true) :
    ¬(c = ' ' ∨ c = '\t') ∧ c ≠ '\n' := by
  refine ⟨?_, ?_⟩
  · rintro (rfl | rfl)
    · exact absurd h (by decide)
    · exact absurd h (by decide)
  · rintro rfl
    exact absurd h (by decide)

/-! ## 2. Literals are tokens -/

theorem takeNumber_whole {whole rest : List Char} (hd : IsDigits whole) (hr : EndsLiteral rest) :
    Lexer.takeNumber (whole ++ rest) = (whole, rest) := by
  obtain ⟨htake, hdrop⟩ := hd.span fun c hc => (hr c hc).1
  simp only [Lexer.takeNumber, htake, hdrop]
  split
  · exact absurd rfl (hr '.' rfl).2
  · rfl

theorem takeNumber_point {whole fraction rest : List Char} (hd : IsDigits whole)
    (hf : IsDigits fraction) (hr : EndsLiteral rest) :
    Lexer.takeNumber (whole ++ '.' :: (fraction ++ rest)) = (whole ++ '.' :: fraction, rest) := by
  have hpoint : ∀ c ∈ ('.' :: (fraction ++ rest)).head?, c.isDigit = false := by
    rintro c ⟨⟩
    decide
  obtain ⟨htake, hdrop⟩ := hd.span hpoint
  obtain ⟨htake', hdrop'⟩ := hf.span fun c hc => (hr c hc).1
  simp only [Lexer.takeNumber, htake, hdrop, htake', hdrop']

theorem IsLiteral.takeNumber {cs rest : List Char} (h : IsLiteral cs) (hr : EndsLiteral rest) :
    Lexer.takeNumber (cs ++ rest) = (cs, rest) := by
  cases h with
  | whole hne hd hw => exact takeNumber_whole hd hr
  | point hne hd hw hf hl =>
    rw [List.append_assoc, List.cons_append]
    exact takeNumber_point hd hf hr

theorem IsLiteral.isWellFormed {cs : List Char} (h : IsLiteral cs) :
    Lexer.isWellFormed cs = true := by
  cases h with
  | whole hne hd hw =>
    have hspan := hd.span_point fun c (hc : c ∈ [].head?) => by cases hc
    rw [List.append_nil] at hspan
    simp only [Lexer.isWellFormed, hspan.1, hspan.2, hw, Bool.and_self]
  | @point whole fraction hne hd hw hf hl =>
    have hspan := hd.span_point fun c (hc : c ∈ ('.' :: fraction).head?) => by cases hc; rfl
    simp only [Lexer.isWellFormed, hspan.1, hspan.2, hw, hl, Bool.and_self]

/-- A literal starts with a digit. -/
theorem IsLiteral.exists_digit {cs : List Char} (h : IsLiteral cs) :
    ∃ c tail, cs = c :: tail ∧ c.isDigit = true := by
  cases h with
  | whole hne hd hw =>
    obtain ⟨c, tail, rfl⟩ := List.exists_cons_of_ne_nil hne
    exact ⟨c, tail, rfl, hd c List.mem_cons_self⟩
  | point hne hd hw hf hl =>
    obtain ⟨c, tail, rfl⟩ := List.exists_cons_of_ne_nil hne
    exact ⟨c, tail ++ '.' :: _, rfl, hd c List.mem_cons_self⟩

/-- A literal is written in digits and a point. -/
theorem IsLiteral.isDigit_or_point {cs : List Char} (h : IsLiteral cs) {c : Char} (hc : c ∈ cs) :
    c.isDigit = true ∨ c = '.' := by
  cases h with
  | whole hne hd hw => exact .inl (hd c hc)
  | point hne hd hw hf hl =>
    rcases List.mem_append.mp hc with hc | hc
    · exact .inl (hd c hc)
    · rcases List.mem_cons.mp hc with rfl | hc
      · exact .inr rfl
      · exact .inl (hf c hc)

/-- **A literal is read as one token**, and reading goes on behind it. -/
theorem IsLiteral.scanFrom {cs rest : List Char} (h : IsLiteral cs) (hr : EndsLiteral rest)
    (line : Nat) (tokens : Array Token) :
    Lexer.scanFrom line tokens (cs ++ rest) =
      Lexer.scanFrom line (tokens.push ⟨.number, String.ofList cs, line⟩) rest := by
  have hnumber := h.takeNumber hr
  have hwell := h.isWellFormed
  obtain ⟨c, tail, rfl, hc⟩ := h.exists_digit
  obtain ⟨hblank, hbreak⟩ := ne_gap_of_isDigit hc
  refine Lexer.scanFrom_token hblank hbreak (Lexer.first_eq_token_iff.mpr (.inr (.inl ?_)))
  exact ⟨isAlpha_of_isDigit hc, hc, rfl, hwell, hnumber⟩

/-! ## 3. The values of literals -/

theorem splitSign_of_isDigit {c : Char} (hc : c.isDigit = true) (cs : List Char) :
    splitSign (c :: cs) = (false, c :: cs) := by
  unfold splitSign
  split
  · rename_i h
    cases h
    exact absurd hc (by decide)
  · rename_i h
    cases h
    exact absurd hc (by decide)
  · rfl

/-- Digits in front of a text take the place of a sign. -/
theorem IsDigits.splitSign {whole : List Char} (hd : IsDigits whole) (hne : whole ≠ [])
    (rest : List Char) : splitSign (whole ++ rest) = (false, whole ++ rest) := by
  obtain ⟨c, cs, rfl⟩ := List.exists_cons_of_ne_nil hne
  exact splitSign_of_isDigit (hd c List.mem_cons_self) (cs ++ rest)

theorem natural?_of_isDigits {cs : List Char} (hne : cs ≠ []) (hd : IsDigits cs) :
    natural? cs = some (Nat.ofDigitChars 10 cs 0) := by
  have hunderscore : '_' ∉ cs := hd.notMem (by decide)
  have hkeep : cs.filter (· != '_') = cs := by
    rw [List.filter_eq_self]
    intro c hc
    rw [bne_iff_ne]
    rintro rfl
    exact hunderscore hc
  have hhead : cs.head? ≠ some '_' := fun h => hunderscore (List.mem_of_head? h)
  have hall : ∀ c ∈ cs, c.isDigit = true ∨ c = '_' := fun c hc => .inl (hd c hc)
  rw [natural?, hkeep, if_pos]
  simpa [hne, hhead] using hall

/-- **Digits alone stand for the integer that they make up.** -/
theorem value?_whole {whole : List Char} (hne : whole ≠ []) (hd : IsDigits whole) :
    value? (String.ofList whole) = some (.integer (Nat.ofDigitChars 10 whole 0 : Nat)) := by
  have hpoint : whole.contains '.' = false := by
    simpa using hd.notMem (c := '.') (by decide)
  have hsign := hd.splitSign hne []
  rw [List.append_nil] at hsign
  simp only [value?, String.toList_ofList, hpoint, integer?, hsign,
    natural?_of_isDigits hne hd]
  rfl

/-- **Digits with a point stand for the binary number nearest to them.** -/
theorem value?_point {whole fraction : List Char} (hne : whole ≠ []) (hd : IsDigits whole)
    (hf : IsDigits fraction) :
    value? (String.ofList (whole ++ '.' :: fraction)) =
      some (.float (Decimal.nearest
        ⟨Nat.ofDigitChars 10 (whole ++ fraction) 0, -(fraction.length : Int)⟩ false)) := by
  have hpoint : (whole ++ '.' :: fraction).contains '.' = true := by simp
  obtain ⟨htake, hdrop⟩ := hd.span fun c (hc : c ∈ ('.' :: fraction).head?) => by cases hc; decide
  obtain ⟨htake', hdrop'⟩ := hf.span fun c (hc : c ∈ [].head?) => by cases hc
  rw [List.append_nil] at htake' hdrop'
  have hempty : whole.isEmpty = false := by simpa using hne
  simp only [value?, String.toList_ofList, hpoint, float?, hd.splitSign hne, decimal?, htake, hdrop,
    splitFraction, htake', hdrop', hempty, exponent?]
  simp

/-- The text is a literal that stands for the value. -/
structure Denotes (cs : List Char) (v : Value) : Prop where
  isLiteral : IsLiteral cs
  value : value? (String.ofList cs) = some v

end Numeral

/-! ## 4. The program that shows a literal -/

open Numeral

/-- The tokens read before stay in front. -/
theorem Lexer.scanFrom_behind (line : Nat) (before : Array Token) (cs : List Char) :
    scanFrom line before cs =
      ⟨before ++ (scanFrom line #[] cs).tokens, (scanFrom line #[] cs).error?⟩ := by
  have hbelow := scanFrom_below 0 before line #[] cs
  have htoken : Token.below 0 = id := rfl
  have herror : SyntaxError.below 0 = id := by
    funext error
    cases error <;> rfl
  rw [htoken, herror] at hbelow
  simpa using hbelow

/-- The literal is given to a name, and the name is printed. -/
def showing (literal : String) : String := "x = " ++ literal ++ "; print(x);"

theorem Lexer.tokenize_showing {cs : List Char} (h : IsLiteral cs) :
    tokenize (showing (String.ofList cs)) =
      .ok [⟨.identifier, "x", 1⟩, ⟨.assign, "=", 1⟩, ⟨.number, String.ofList cs, 1⟩,
        ⟨.semicolon, ";", 1⟩, ⟨.print, "print", 1⟩, ⟨.lparen, "(", 1⟩, ⟨.identifier, "x", 1⟩,
        ⟨.rparen, ")", 1⟩, ⟨.semicolon, ";", 1⟩] := by
  have htext : (showing (String.ofList cs)).toList =
      'x' :: ' ' :: '=' :: ' ' :: (cs ++ "; print(x);".toList) := by
    simp [showing]
  have hname (rest : List Char) :
      first 'x' (' ' :: rest) = .token .identifier ['x'] (' ' :: rest) := rfl
  have hassign (rest : List Char) : first '=' rest = .token .assign ['='] rest := rfl
  have hend : EndsLiteral "; print(x);".toList := by
    rintro c ⟨⟩
    decide
  have hrest : scanFrom 1 #[] "; print(x);".toList =
      ⟨#[⟨.semicolon, ";", 1⟩, ⟨.print, "print", 1⟩, ⟨.lparen, "(", 1⟩, ⟨.identifier, "x", 1⟩,
        ⟨.rparen, ")", 1⟩, ⟨.semicolon, ";", 1⟩], none⟩ := by
    with_unfolding_all rfl
  have hscan : scan (showing (String.ofList cs)) =
      ⟨#[⟨.identifier, "x", 1⟩, ⟨.assign, "=", 1⟩, ⟨.number, String.ofList cs, 1⟩,
        ⟨.semicolon, ";", 1⟩, ⟨.print, "print", 1⟩, ⟨.lparen, "(", 1⟩, ⟨.identifier, "x", 1⟩,
        ⟨.rparen, ")", 1⟩, ⟨.semicolon, ";", 1⟩], none⟩ := by
    rw [scan, htext, scanFrom_token (by decide) (by decide) (hname _),
      scanFrom_blank (.inl rfl), scanFrom_token (by decide) (by decide) (hassign _),
      scanFrom_blank (.inl rfl), h.scanFrom hend, scanFrom_behind, hrest]
    rfl
  simp only [tokenize, hscan]

/-- **The program that shows a literal** gives the name its value and prints it. -/
theorem Grammar.parseText_showing {cs : List Char} {v : Value} (h : Denotes cs v) :
    parseText (showing (String.ofList cs)) = .ok [.assign "x" (.constant v), .print "x"] := by
  have hsum : IsSum [⟨.number, String.ofList cs, 1⟩] (.constant v) :=
    .product (.power (.atom (.number rfl h.value)))
  simp only [parseText, Lexer.tokenize_showing h.isLiteral]
  refine parse_of_isProgram rfl ?_
  exact .snoc (.snoc .empty (.assign rfl rfl hsum rfl)) (.print rfl rfl rfl rfl rfl)

end Abacus
