import Abacus.Proofs.Numeral.Literals
import Abacus.Proofs.Token.Places
import Mathlib.Data.List.Chain

/-!
# A text as pieces

A text that can be read is a row of pieces, each of them a gap of blanks and line breaks with the
text of one token behind it, and a last gap. This file relates such rows to what is read, in both
directions:

* a token is read back if what stands behind it could not be a part of it (`IsLexeme.first`). For
  this two words or two numbers must not touch; all other pieces may (`Separated`);
* whatever is read of a text is a row of pieces, up to its end or up to the place where no token
  starts (`scanFrom_composes`), so nothing of a text without an error is lost
  (`composes_of_tokenize`). A token is taken as long as it goes on, so the pieces are separated.

Main statement: a row of separated pieces is read as their tokens, each on the line that the line
breaks before it make up (`tokenize_text`).
-/

namespace Abacus

/-- The kind is one of words. -/
def TokenKind.IsWord (kind : TokenKind) : Prop := kind = .identifier ∨ kind = .print

/-- Tokens of these kinds would be read as one if they touched. -/
def TokenKind.RunsInto (kind next : TokenKind) : Prop :=
  kind.IsWord ∧ next.IsWord ∨ kind = .number ∧ next = .number

namespace Lexer

open Numeral

/-! ## 1. The texts of tokens -/

/-- The character that a sign is written as. -/
def signChar? : TokenKind → Option Char
  | .lparen => some '('
  | .rparen => some ')'
  | .lbrace => some '\x7b'
  | .rbrace => some '\x7d'
  | .assign => some '='
  | .plus => some '+'
  | .minus => some '-'
  | .star => some '*'
  | .slash => some '/'
  | .caret => some '^'
  | .semicolon => some ';'
  | .identifier | .number | .print | .newline => none

/-- The text is one that a token of the kind can be written as, and is read as that token alone.
    `Spells` asks less: of a number only that it starts with a digit and has no idle zeros. -/
def IsLexeme (kind : TokenKind) (cs : List Char) : Prop :=
  match kind with
  | .identifier => cs ≠ [] ∧ (∀ c ∈ cs, c.isAlpha = true) ∧ cs ≠ ['p', 'r', 'i', 'n', 't']
  | .print => cs = ['p', 'r', 'i', 'n', 't']
  | .number => IsLiteral cs
  | kind => ∃ c, signChar? kind = some c ∧ cs = [c]

theorem sign?_eq_some_iff {c : Char} {kind : TokenKind} :
    sign? c = some kind ↔ signChar? kind = some c := by
  constructor
  · intro h
    unfold sign? at h
    split at h <;> cases h <;> rfl
  · intro h
    cases kind <;> cases h <;> rfl

/-- A sign is no part of a word or of a number. -/
theorem isAlpha_of_sign? {c : Char} {kind : TokenKind} (h : sign? c = some kind) :
    c.isAlpha = false ∧ c.isDigit = false ∧ c ≠ '.' := by
  rw [sign?_eq_some_iff] at h
  cases kind <;> cases h <;> decide

/-- The three kinds of texts: words, numbers and signs. -/
theorem isLexeme_iff {kind : TokenKind} {cs : List Char} :
    IsLexeme kind cs ↔
      (cs ≠ [] ∧ (∀ c ∈ cs, c.isAlpha = true) ∧ kind = wordKind cs) ∨
      (kind = .number ∧ IsLiteral cs) ∨ ∃ c, sign? c = some kind ∧ cs = [c] := by
  have hsign : (∃ c, sign? c = some kind ∧ cs = [c]) ↔ ∃ c, signChar? kind = some c ∧ cs = [c] := by
    simp only [sign?_eq_some_iff]
  rw [hsign]
  by_cases hword : cs = ['p', 'r', 'i', 'n', 't']
  · subst hword
    cases kind <;> simp [IsLexeme, wordKind, signChar?]
  · cases kind <;> simp [IsLexeme, wordKind, signChar?, hword]

/-- Behind the text of a token of the kind the character would be read as a part of it. -/
def continues : TokenKind → Char → Bool
  | .identifier, c => c.isAlpha
  | .print, c => c.isAlpha
  | .number, c => c.isDigit
  | _, _ => false

theorem continues_wordKind (cs : List Char) (c : Char) : continues (wordKind cs) c = c.isAlpha := by
  rcases wordKind_cases cs with h | h
  · rw [h]
    rfl
  · rw [h]
    rfl

/-- How a token starts decides what it must not touch. -/
theorem IsLexeme.exists_first {kind : TokenKind} {cs : List Char} (h : IsLexeme kind cs) :
    ∃ c tail, cs = c :: tail ∧ c ≠ '.' ∧
      ∀ before, continues before c = true ↔ before.RunsInto kind := by
  rw [isLexeme_iff] at h
  obtain ⟨hne, halpha, rfl⟩ | ⟨rfl, hl⟩ | ⟨c, hs, rfl⟩ := h
  · obtain ⟨c, tail, rfl⟩ := List.exists_cons_of_ne_nil hne
    have hc : c.isAlpha = true := halpha c List.mem_cons_self
    have hd : c.isDigit = false := by
      rw [Bool.eq_false_iff]
      intro hd
      rw [isAlpha_of_isDigit hd] at hc
      cases hc
    refine ⟨c, tail, rfl, ?_, fun before => ?_⟩
    · rintro rfl
      exact absurd hc (by decide)
    · rcases wordKind_cases (c :: tail) with hk | hk <;>
        cases before <;> simp [continues, TokenKind.RunsInto, TokenKind.IsWord, hc, hd, hk]
  · obtain ⟨c, tail, rfl, hd⟩ := hl.exists_digit
    have hc : c.isAlpha = false := isAlpha_of_isDigit hd
    refine ⟨c, tail, rfl, ?_, fun before => ?_⟩
    · rintro rfl
      exact absurd hd (by decide)
    · cases before <;> simp [continues, TokenKind.RunsInto, TokenKind.IsWord, hc, hd]
  · obtain ⟨hc, hd, hpoint⟩ := isAlpha_of_sign? hs
    refine ⟨c, [], rfl, hpoint, fun before => ?_⟩
    rw [sign?_eq_some_iff] at hs
    cases kind <;> cases hs <;>
      cases before <;> simp [continues, TokenKind.RunsInto, TokenKind.IsWord, hc, hd]

/-! ## 2. Reading a token back -/

/-- **The text of a token is read back** if it does not go on behind it. -/
theorem IsLexeme.first {kind : TokenKind} {c : Char} {tail rest : List Char}
    (h : IsLexeme kind (c :: tail))
    (hr : ∀ d ∈ rest.head?, continues kind d = false ∧ d ≠ '.') :
    first c (tail ++ rest) = .token kind (c :: tail) rest := by
  rw [isLexeme_iff] at h
  rw [first_eq_token_iff]
  obtain ⟨-, halpha, rfl⟩ | ⟨rfl, hl⟩ | ⟨s, hs, hcs⟩ := h
  · have htail : ∀ d ∈ tail, d.isAlpha = true := fun d hd => halpha d (.tail _ hd)
    have hend : ∀ d ∈ rest.head?, d.isAlpha = false := by
      intro d hd
      rw [← continues_wordKind (c :: tail)]
      exact (hr d hd).1
    obtain ⟨htake, hdrop⟩ := span_append htail hend
    exact .inl ⟨halpha c List.mem_cons_self, rfl, by rw [htake], hdrop.symm⟩
  · have hc : c.isDigit = true := by
      obtain ⟨d, tail', he, hd⟩ := hl.exists_digit
      cases he
      exact hd
    exact .inr (.inl ⟨isAlpha_of_isDigit hc, hc, rfl, hl.isWellFormed, hl.takeNumber hr⟩)
  · cases hcs
    obtain ⟨hc, hd, -⟩ := isAlpha_of_sign? hs
    exact .inr (.inr ⟨hc, hd, hs, rfl, rfl⟩)

theorem ne_gap_of_first {c : Char} {cs : List Char} {kind : TokenKind} {lexeme behind : List Char}
    (h : first c cs = .token kind lexeme behind) : ¬(c = ' ' ∨ c = '\t') ∧ c ≠ '\n' := by
  refine ⟨?_, ?_⟩
  · rintro (rfl | rfl)
    · cases h
    · cases h
  · rintro rfl
    cases h

/-! ## 3. Rows of pieces -/

/-- There are only blanks and line breaks in the text. -/
def IsGap (cs : List Char) : Prop := ∀ c ∈ cs, c = ' ' ∨ c = '\t' ∨ c = '\n'

instance (cs : List Char) : Decidable (IsGap cs) :=
  decidable_of_iff (cs.all (fun c => c = ' ' ∨ c = '\t' ∨ c = '\n') = true) (by simp [IsGap])

/-- A gap and the text of a token behind it. -/
structure Piece where
  gap : List Char
  kind : TokenKind
  lexeme : List Char
  isGap : IsGap gap
  isLexeme : IsLexeme kind lexeme

/-- The text of pieces, with a gap behind the last one. -/
def text : List Piece → List Char → List Char
  | [], last => last
  | p :: pieces, last => p.gap ++ (p.lexeme ++ text pieces last)

/-- The tokens of pieces that stand behind a text. The line of a token is one more than the line
    breaks written before it. -/
def tokensBehind (before : List Char) : List Piece → List Token
  | [] => []
  | p :: pieces =>
    ⟨p.kind, String.ofList p.lexeme, (before ++ p.gap).count '\n' + 1⟩ ::
      tokensBehind (before ++ p.gap ++ p.lexeme) pieces

/-- Pieces that would be read as one do not touch. -/
def Separated (pieces : List Piece) : Prop :=
  pieces.IsChain fun p q => p.kind.RunsInto q.kind → q.gap ≠ []

theorem scanFrom_gap {gap : List Char} (h : IsGap gap) (line : Nat) (tokens : Array Token)
    (rest : List Char) :
    scanFrom line tokens (gap ++ rest) = scanFrom (line + gap.count '\n') tokens rest := by
  induction gap generalizing line with
  | nil => rfl
  | cons c gap ih =>
    have hgap : IsGap gap := fun d hd => h d (.tail _ hd)
    rw [List.cons_append]
    by_cases hc : c = '\n'
    · rw [hc, scanFrom_newline, ih hgap, List.count_cons_self]
      congr 1
      omega
    · have hb : c = ' ' ∨ c = '\t' := by
        rcases h c List.mem_cons_self with hb | hb | hb
        · exact .inl hb
        · exact .inr hb
        · exact absurd hb hc
      rw [scanFrom_blank hb, ih hgap, List.count_cons_of_ne hc]

/-- What a row of pieces starts with: if it goes on with a token before it, then that token touches
    the first piece, and they run into each other. -/
theorem head?_text {pieces : List Piece} {last : List Char} (hlast : IsGap last) {c : Char}
    (hc : c ∈ (text pieces last).head?) :
    c ≠ '.' ∧ ∀ kind, continues kind c = true →
      ∃ p rest, pieces = p :: rest ∧ p.gap = [] ∧ kind.RunsInto p.kind := by
  have hgap : c = ' ' ∨ c = '\t' ∨ c = '\n' →
      c ≠ '.' ∧ ∀ kind, continues kind c = false := by
    rintro (rfl | rfl | rfl) <;> exact ⟨by decide, fun kind => by cases kind <;> rfl⟩
  cases pieces with
  | nil =>
    obtain ⟨hpoint, hnone⟩ := hgap (hlast c (List.mem_of_head? hc))
    exact ⟨hpoint, fun kind hk => by rw [hnone] at hk; cases hk⟩
  | cons p pieces =>
    rw [text] at hc
    cases hg : p.gap with
    | nil =>
      obtain ⟨d, tail, hd, hpoint, hruns⟩ := p.isLexeme.exists_first
      rw [hg, hd] at hc
      cases hc
      exact ⟨hpoint, fun kind hk => ⟨p, pieces, rfl, hg, (hruns kind).mp hk⟩⟩
    | cons d gap =>
      rw [hg] at hc
      cases hc
      obtain ⟨hpoint, hnone⟩ := hgap (p.isGap c (by rw [hg]; exact List.mem_cons_self))
      exact ⟨hpoint, fun kind hk => by rw [hnone] at hk; cases hk⟩

/-- Reading a row of pieces that stands behind a text. -/
theorem scanFrom_text {pieces : List Piece} {last : List Char} (hlast : IsGap last)
    (h : Separated pieces) (before : List Char) (tokens : Array Token) :
    scanFrom (before.count '\n' + 1) tokens (text pieces last) =
      ⟨tokens ++ (tokensBehind before pieces).toArray, none⟩ := by
  induction pieces generalizing before tokens with
  | nil =>
    have hend := scanFrom_gap hlast (before.count '\n' + 1) tokens []
    rw [List.append_nil] at hend
    rw [text, hend, scanFrom, tokensBehind]
    simp
  | cons p pieces ih =>
    obtain ⟨c, tail, hlexeme, -, -⟩ := p.isLexeme.exists_first
    have hrow : Separated pieces := List.IsChain.of_cons h
    have hends : ∀ d ∈ (text pieces last).head?, continues p.kind d = false ∧ d ≠ '.' := by
      intro d hd
      obtain ⟨hpoint, hruns⟩ := head?_text hlast hd
      refine ⟨?_, hpoint⟩
      rw [Bool.eq_false_iff]
      intro hk
      obtain ⟨q, rest, rfl, hgap, hrun⟩ := hruns _ hk
      exact (List.isChain_cons_cons.mp h).1 hrun hgap
    have hfirst : first c (tail ++ text pieces last) =
        .token p.kind p.lexeme (text pieces last) := by
      rw [hlexeme]
      exact (hlexeme ▸ p.isLexeme).first hends
    obtain ⟨hblank, hbreak⟩ := ne_gap_of_first hfirst
    have hline : (before ++ p.gap ++ p.lexeme).count '\n' = (before ++ p.gap).count '\n' := by
      rw [List.count_append, List.count_eq_zero_of_not_mem (first_token_split hfirst).2]
      rfl
    have hstart : before.count '\n' + 1 + p.gap.count '\n' =
        (before ++ p.gap ++ p.lexeme).count '\n' + 1 := by
      rw [hline, List.count_append]
      omega
    have hcons : p.lexeme ++ text pieces last = c :: (tail ++ text pieces last) := by
      rw [hlexeme, List.cons_append]
    rw [text, scanFrom_gap p.isGap, hstart, hcons, scanFrom_token hblank hbreak hfirst, ih hrow,
      tokensBehind, hline]
    simp

/-- **A row of pieces is read as their tokens.** Whatever the gaps before, between and behind the
    tokens are, if only two words and two numbers do not touch, the text has these tokens and no
    others, each on the line that the line breaks before it make up. -/
theorem tokenize_text {pieces : List Piece} {last : List Char} (hlast : IsGap last)
    (h : Separated pieces) :
    tokenize (String.ofList (text pieces last)) = .ok (tokensBehind [] pieces) := by
  have hscan : scan (String.ofList (text pieces last)) =
      ⟨#[] ++ (tokensBehind [] pieces).toArray, none⟩ := by
    rw [scan, String.toList_ofList]
    exact scanFrom_text hlast h [] #[]
  simp only [tokenize, hscan]
  simp

/-- The text `ab12.5print`, then `3` in a line of its own behind a tabulator, and `;`. -/
def denseRow : List Piece :=
  [⟨[], .identifier, ['a', 'b'], nofun, ⟨by decide, List.all_eq_true.mp rfl, by decide⟩⟩,
    ⟨[], .number, ['1', '2', '.', '5'], nofun,
      @IsLiteral.point ['1', '2'] ['5'] (by decide) (by decide) (by decide) (by decide) (by decide)⟩,
    ⟨[], .print, ['p', 'r', 'i', 'n', 't'], nofun, rfl⟩,
    ⟨['\n', '\t'], .number, ['3'], by decide,
      .whole (by decide) (by decide) (by decide)⟩,
    ⟨[], .semicolon, [';'], nofun, ⟨';', rfl, rfl⟩⟩]

/-- Words and numbers that touch each other are told apart. -/
theorem tokenize_denseRow :
    IsGap ['\n'] ∧ Separated denseRow ∧
    String.ofList (text denseRow ['\n']) = "ab12.5print\n\t3;\n" ∧
    tokenize "ab12.5print\n\t3;\n" =
      .ok [⟨.identifier, "ab", 1⟩, ⟨.number, "12.5", 1⟩, ⟨.print, "print", 1⟩, ⟨.number, "3", 2⟩,
        ⟨.semicolon, ";", 2⟩] := by
  have hlast : IsGap ['\n'] := by decide
  have hrow : Separated denseRow := by
    simp [Separated, denseRow, TokenKind.RunsInto, TokenKind.IsWord]
  have htext : String.ofList (text denseRow ['\n']) = "ab12.5print\n\t3;\n" := rfl
  refine ⟨hlast, hrow, htext, ?_⟩
  rw [← htext, tokenize_text hlast hrow]
  rfl

/-! ## 4. Nothing is lost -/

/-- What is taken as a number has digits, with a point and further digits if there are any. -/
theorem takeNumber_cases {c : Char} (hc : c.isDigit = true) (cs : List Char) :
    ∃ whole, whole ≠ [] ∧ IsDigits whole ∧
      ((takeNumber (c :: cs)).1 = whole ∨
        ∃ fraction, IsDigits fraction ∧ (takeNumber (c :: cs)).1 = whole ++ '.' :: fraction) := by
  have hdigits (cs : List Char) : IsDigits (cs.takeWhile Char.isDigit) :=
    fun d hd => List.all_eq_true.mp List.all_takeWhile d hd
  refine ⟨(c :: cs).takeWhile Char.isDigit, ?_, hdigits _, ?_⟩
  · rw [List.takeWhile_cons, if_pos hc]
    exact List.cons_ne_nil _ _
  · simp only [takeNumber]
    split
    · exact .inr ⟨_, hdigits _, rfl⟩
    · exact .inl rfl

/-- A number without idle zeros is a literal. -/
theorem isLiteral_of_takeNumber {c : Char} {cs lexeme behind : List Char} (hc : c.isDigit = true)
    (hn : takeNumber (c :: cs) = (lexeme, behind)) (hw : isWellFormed lexeme = true) :
    IsLiteral lexeme := by
  obtain ⟨whole, hne, hd, hcases⟩ := takeNumber_cases hc cs
  rw [hn] at hcases
  rcases hcases with rfl | ⟨fraction, hf, rfl⟩
  · have hspan := hd.span_point fun d (hd : d ∈ [].head?) => by cases hd
    rw [List.append_nil] at hspan
    simp only [isWellFormed, hspan.1, hspan.2, Bool.and_true] at hw
    exact .whole hne hd hw
  · have hspan := hd.span_point fun d (hd : d ∈ ('.' :: fraction).head?) => by cases hd; rfl
    simp only [isWellFormed, hspan.1, hspan.2, Bool.and_eq_true] at hw
    exact .point hne hd hw.1 hf hw.2

theorem takeNumber_rest_head? {cs : List Char} {c : Char} (hc : c ∈ (takeNumber cs).2.head?) :
    c.isDigit = false := by
  simp only [takeNumber] at hc
  split at hc
  · exact eq_false_of_head?_dropWhile hc
  · exact eq_false_of_head?_dropWhile hc

/-- **A token is the text of one, and does not go on behind it.** -/
theorem isLexeme_of_first {c : Char} {cs : List Char} {kind : TokenKind}
    {lexeme behind : List Char} (h : first c cs = .token kind lexeme behind) :
    IsLexeme kind lexeme ∧ ∀ d ∈ behind.head?, continues kind d = false := by
  rw [isLexeme_iff]
  rw [first_eq_token_iff] at h
  obtain ⟨hc, rfl, rfl, rfl⟩ | ⟨-, hd, rfl, hw, hn⟩ | ⟨-, -, hs, rfl, rfl⟩ := h
  · refine ⟨.inl ⟨List.cons_ne_nil _ _, fun d hd => ?_, rfl⟩, fun d hd => ?_⟩
    · rcases List.mem_cons.mp hd with rfl | hd
      · exact hc
      · exact List.all_eq_true.mp List.all_takeWhile _ hd
    · rw [continues_wordKind]
      exact eq_false_of_head?_dropWhile hd
  · refine ⟨.inr (.inl ⟨rfl, isLiteral_of_takeNumber hd hn hw⟩), fun d hb => ?_⟩
    have hrest : d ∈ (takeNumber (c :: cs)).2.head? := by rwa [hn]
    exact takeNumber_rest_head? hrest
  · refine ⟨.inr (.inr ⟨c, hs, rfl⟩), fun d _ => ?_⟩
    rw [sign?_eq_some_iff] at hs
    cases kind <;> cases hs <;> rfl

/-- Behind a text there is a row of separated pieces with the given tokens. -/
def Composes (before cs : List Char) (ts : List Token) : Prop :=
  ∃ pieces last, IsGap last ∧ Separated pieces ∧ cs = text pieces last ∧
    ts = tokensBehind before pieces

theorem composes_nil (before : List Char) : Composes before [] [] :=
  ⟨[], [], fun _ hc => absurd hc List.not_mem_nil, .nil, rfl, rfl⟩

/-- A blank or a line break makes the first gap wider. -/
theorem Composes.gap {before cs : List Char} {ts : List Token} {c : Char}
    (hc : c = ' ' ∨ c = '\t' ∨ c = '\n') (h : Composes (before ++ [c]) cs ts) :
    Composes before (c :: cs) ts := by
  have hwider {gap : List Char} (hgap : IsGap gap) : IsGap (c :: gap) := by
    intro d hd
    rcases List.mem_cons.mp hd with rfl | hd
    · exact hc
    · exact hgap d hd
  obtain ⟨pieces, last, hlast, hrow, rfl, rfl⟩ := h
  cases pieces with
  | nil => exact ⟨[], c :: last, hwider hlast, .nil, rfl, rfl⟩
  | cons p pieces =>
    refine ⟨⟨c :: p.gap, p.kind, p.lexeme, hwider p.isGap, p.isLexeme⟩ :: pieces, last, hlast, ?_,
      rfl, ?_⟩
    · -- nothing stands before the first piece, and its kind is the same
      cases pieces with
      | nil => exact .singleton _
      | cons q pieces => exact List.isChain_cons_cons.mpr (List.isChain_cons_cons.mp hrow)
    · simp only [tokensBehind, List.append_assoc, List.singleton_append]

/-- A token is a piece without a gap. -/
theorem Composes.token {before behind lexeme : List Char} {ts : List Token} {kind : TokenKind}
    (hlexeme : IsLexeme kind lexeme) (hends : ∀ d ∈ behind.head?, continues kind d = false)
    (h : Composes (before ++ lexeme) behind ts) :
    Composes before (lexeme ++ behind)
      (⟨kind, String.ofList lexeme, before.count '\n' + 1⟩ :: ts) := by
  obtain ⟨pieces, last, hlast, hrow, rfl, rfl⟩ := h
  have hnone : IsGap [] := fun _ hc => absurd hc List.not_mem_nil
  refine ⟨⟨[], kind, lexeme, hnone, hlexeme⟩ :: pieces, last, hlast, ?_, rfl, ?_⟩
  · cases pieces with
    | nil => exact .singleton _
    | cons q pieces =>
      refine List.isChain_cons_cons.mpr ⟨fun hruns hgap => ?_, hrow⟩
      obtain ⟨d, tail, hd, -, hcontinues⟩ := q.isLexeme.exists_first
      have hhead : d ∈ (text (q :: pieces) last).head? := by
        rw [text, hgap, hd]
        rfl
      have hmore : continues kind d = true := (hcontinues kind).mpr hruns
      rw [hends d hhead] at hmore
      cases hmore
  · simp only [tokensBehind, List.append_nil]

/-- Behind a text reading stops: at the end of what is left, or where no token starts. -/
inductive Stops (before : List Char) : List Char → Option SyntaxError → Prop where
  | ended : Stops before [] none
  | stuck {c : Char} {cs lexeme : List Char} (hb : ¬(c = ' ' ∨ c = '\t')) (hn : c ≠ '\n')
      (h : first c cs = .illegal lexeme) :
      Stops before (c :: cs) (some (.illegal (String.ofList lexeme) (before.count '\n' + 1)))

/-- **What is read is a row of pieces**, up to where reading stops. A token does not go on behind
    it, so the row is read in the same way if the text ends with it. -/
theorem scanFrom_composes (line : Nat) (tokens : Array Token) (before cs : List Char)
    (hline : line = before.count '\n' + 1) :
    ∃ done rest ts, cs = done ++ rest ∧ Composes before done ts ∧
      (scanFrom line tokens cs).tokens.toList = tokens.toList ++ ts ∧
      Stops (before ++ done) rest (scanFrom line tokens cs).error? := by
  fun_induction scanFrom line tokens cs generalizing before with
  | case1 line tokens =>
    exact ⟨[], [], [], rfl, composes_nil before, (List.append_nil _).symm, .ended⟩
  | case2 line tokens c cs hc ih =>
    have hcount : (before ++ [c]).count '\n' = before.count '\n' := by
      rcases hc with rfl | rfl
      · simp
      · simp
    obtain ⟨done, rest, ts, rfl, hrow, hts, hstop⟩ := ih (before ++ [c]) (by rw [hline, hcount])
    rw [List.append_assoc] at hstop
    exact ⟨c :: done, rest, ts, rfl, hrow.gap (hc.elim .inl fun hc => .inr (.inl hc)), hts, hstop⟩
  | case3 line tokens cs _ ih =>
    obtain ⟨done, rest, ts, rfl, hrow, hts, hstop⟩ :=
      ih (before ++ ['\n']) (by rw [hline]; simp)
    rw [List.append_assoc] at hstop
    exact ⟨'\n' :: done, rest, ts, rfl, hrow.gap (.inr (.inr rfl)), hts, hstop⟩
  | case4 line tokens c cs hb hn kind lexeme behind hf ih =>
    obtain ⟨hsplit, hbreak⟩ := first_token_split hf
    obtain ⟨hlexeme, hends⟩ := isLexeme_of_first hf
    have hcount : (before ++ lexeme).count '\n' = before.count '\n' := by
      rw [List.count_append, List.count_eq_zero_of_not_mem hbreak, Nat.add_zero]
    obtain ⟨done, rest, ts, rfl, hrow, hts, hstop⟩ := ih (before ++ lexeme) (by rw [hline, hcount])
    have hends' : ∀ d ∈ done.head?, continues kind d = false := by
      intro d hd
      refine hends d ?_
      rw [List.head?_append, hd]
      rfl
    rw [List.append_assoc] at hstop
    refine ⟨lexeme ++ done, rest, _, ?_, hrow.token hlexeme hends', ?_, hstop⟩
    · rw [hsplit, List.append_assoc]
    · rw [hts, Array.toList_push, List.append_assoc, hline]
      rfl
  | case5 line tokens c cs hb hn lexeme hf =>
    refine ⟨[], c :: cs, [], rfl, composes_nil before, (List.append_nil _).symm, ?_⟩
    rw [List.append_nil, hline]
    exact .stuck hb hn hf

/-- **A text that is read is a row of pieces with its tokens**, and they are separated. -/
theorem composes_of_tokenize {source : String} {ts : List Token} (h : tokenize source = .ok ts) :
    Composes [] source.toList ts := by
  obtain ⟨herror, rfl⟩ := scan_of_tokenize h
  obtain ⟨done, rest, ts, htext, hrow, hts, hstop⟩ := scanFrom_composes 1 #[] [] source.toList rfl
  rw [← scan, herror] at hstop
  cases hstop
  rw [scan, hts, htext, List.append_nil]
  exact hrow

/-- The tokens of a row are written as its pieces. -/
theorem isLexeme_of_mem_tokensBehind {before : List Char} {pieces : List Piece} {t : Token}
    (h : t ∈ tokensBehind before pieces) : IsLexeme t.kind t.lexeme.toList := by
  induction pieces generalizing before with
  | nil => cases h
  | cons p pieces ih =>
    rcases List.mem_cons.mp h with rfl | h
    · rw [String.toList_ofList]
      exact p.isLexeme
    · exact ih h

theorem isLexeme_of_tokenize {source : String} {ts : List Token} (h : tokenize source = .ok ts)
    {t : Token} (ht : t ∈ ts) : IsLexeme t.kind t.lexeme.toList := by
  obtain ⟨pieces, last, -, -, -, rfl⟩ := composes_of_tokenize h
  exact isLexeme_of_mem_tokensBehind ht

/-! ## 5. The characters of a row -/

/-- Tokens are written in letters, digits, points and signs. -/
def IsTokenChar (c : Char) : Prop :=
  c.isAlpha = true ∨ c.isDigit = true ∨ c = '.' ∨ ∃ kind, sign? c = some kind

theorem IsLexeme.isTokenChar {kind : TokenKind} {cs : List Char} (h : IsLexeme kind cs) {c : Char}
    (hc : c ∈ cs) : IsTokenChar c := by
  rw [isLexeme_iff] at h
  obtain ⟨-, halpha, -⟩ | ⟨-, hl⟩ | ⟨s, hs, rfl⟩ := h
  · exact .inl (halpha c hc)
  · rcases hl.isDigit_or_point hc with hd | hd
    · exact .inr (.inl hd)
    · exact .inr (.inr (.inl hd))
  · rw [List.mem_singleton.mp hc]
    exact .inr (.inr (.inr ⟨kind, hs⟩))

/-- A token of a sign is the sign. -/
theorem IsLexeme.eq_sign {sign : TokenKind} {cs : List Char} {c : Char} (h : IsLexeme sign cs)
    (hc : signChar? sign = some c) : cs = [c] := by
  cases sign <;> cases hc <;> obtain ⟨d, hd, rfl⟩ := h <;> cases hd <;> rfl

/-- A token of another kind does not hold the sign. -/
theorem IsLexeme.notMem_sign {kind sign : TokenKind} {cs : List Char} {c : Char}
    (h : IsLexeme kind cs) (hc : signChar? sign = some c) (hk : kind ≠ sign) : c ∉ cs := by
  intro hm
  rw [← sign?_eq_some_iff] at hc
  obtain ⟨hnotAlpha, hnotDigit, hpoint⟩ := isAlpha_of_sign? hc
  rw [isLexeme_iff] at h
  obtain ⟨-, halpha, -⟩ | ⟨-, hl⟩ | ⟨s, hs, rfl⟩ := h
  · rw [halpha c hm] at hnotAlpha
    cases hnotAlpha
  · rcases hl.isDigit_or_point hm with hd | hd
    · rw [hd] at hnotDigit
      cases hnotDigit
    · exact hpoint hd
  · rw [List.mem_singleton.mp hm, hs] at hc
    exact hk (Option.some.inj hc)

theorem IsLexeme.count_sign {kind sign : TokenKind} {cs : List Char} {c : Char}
    (h : IsLexeme kind cs) (hc : signChar? sign = some c) :
    cs.count c = if kind = sign then 1 else 0 := by
  by_cases hk : kind = sign
  · subst hk
    rw [h.eq_sign hc, if_pos rfl, List.count_singleton_self]
  · rw [if_neg hk, List.count_eq_zero]
    exact h.notMem_sign hc hk

theorem IsGap.count_sign {gap : List Char} (h : IsGap gap) {sign : TokenKind} {c : Char}
    (hc : signChar? sign = some c) : gap.count c = 0 := by
  rw [List.count_eq_zero]
  intro hm
  rw [← sign?_eq_some_iff] at hc
  rcases h c hm with rfl | rfl | rfl <;> cases hc

/-- **A sign is written as often as there are tokens of it.** -/
theorem count_sign_text {last : List Char} (hlast : IsGap last) {sign : TokenKind} {c : Char}
    (hc : signChar? sign = some c) (before : List Char) (pieces : List Piece) :
    (text pieces last).count c = (tokensBehind before pieces).countP (·.kind = sign) := by
  induction pieces generalizing before with
  | nil => exact hlast.count_sign hc
  | cons p pieces ih =>
    rw [text, List.count_append, p.isGap.count_sign hc, List.count_append,
      p.isLexeme.count_sign hc, ih (before ++ p.gap ++ p.lexeme), tokensBehind, List.countP_cons]
    simp only [decide_eq_true_eq]
    omega

/-- The characters of a row are those of gaps and of tokens. -/
theorem mem_text_cases {last : List Char} (hlast : IsGap last) {pieces : List Piece} {c : Char}
    (hc : c ∈ text pieces last) : (c = ' ' ∨ c = '\t' ∨ c = '\n') ∨ IsTokenChar c := by
  induction pieces with
  | nil => exact .inl (hlast c hc)
  | cons p pieces ih =>
    rw [text, List.mem_append, List.mem_append] at hc
    rcases hc with hc | hc | hc
    · exact .inl (p.isGap c hc)
    · exact .inr (p.isLexeme.isTokenChar hc)
    · exact ih hc

theorem text_append_last (pieces : List Piece) (last more : List Char) :
    text pieces (last ++ more) = text pieces last ++ more := by
  induction pieces with
  | nil => rfl
  | cons p pieces ih => simp only [text, ih, List.append_assoc]

/-- The last piece of a row. -/
theorem text_concat (pieces : List Piece) (p : Piece) (last : List Char) :
    text (pieces ++ [p]) last = text pieces p.gap ++ (p.lexeme ++ last) := by
  induction pieces with
  | nil => rfl
  | cons q pieces ih => rw [List.cons_append, text, text, ih]; simp only [List.append_assoc]

theorem tokensBehind_concat (before : List Char) (pieces : List Piece) (p : Piece) :
    ∃ line, tokensBehind before (pieces ++ [p]) =
      tokensBehind before pieces ++ [⟨p.kind, String.ofList p.lexeme, line⟩] := by
  induction pieces generalizing before with
  | nil => exact ⟨_, rfl⟩
  | cons q pieces ih =>
    obtain ⟨line, hline⟩ := ih (before ++ q.gap ++ q.lexeme)
    exact ⟨line, by rw [List.cons_append, tokensBehind, tokensBehind, hline, List.cons_append]⟩

end Lexer

end Abacus
