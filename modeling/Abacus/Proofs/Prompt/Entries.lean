import Abacus.CommandLine
import Abacus.Proofs.Grammar.Ends
import Abacus.Proofs.Session.Joining
import Mathlib.Data.List.DropRight

/-!
# Entries that are programs

The prompt looks at the characters of an entry and not at its tokens: it counts braces, it looks for
a backslash at the end, and it looks at the last character that is not blank. Whether the entry is a
program is decided by its tokens. For entries that are programs, or lack only the end of one, both
come to the same:

* there is no backslash in such an entry, and its only blanks are those that stand between tokens
  (`Lexer.mem_text_cases`). So nothing is replaced, and the last character that is not blank belongs
  to the last token (`lacksSemicolon_text`), of which the grammar knows what it can be
  (`Grammar.IsProgram.ends`);
* each brace in the text is a token (`Lexer.count_sign_text`), and a program has as many of the one
  kind as of the other (`Grammar.IsProgram.countP_braces`).

Main statements: a program is evaluated as it was entered, and one that lacks its last semicolon as
if it had it (`complete_of_accepts`); an entry goes on in the next line exactly if it lacks closing
braces (`isIncomplete_of_accepts`).
-/

namespace Abacus

/-! ## 1. Blanks -/

namespace Text

theorem isBlank_of_gap {c : Char} (h : c = ' ' ∨ c = '\t' ∨ c = '\n') : isBlank c = true := by
  rcases h with rfl | rfl | rfl <;> decide

/-- Of the ASCII characters only controls and the space are blank. -/
theorem toNat_of_isBlank {c : Char} (h : isBlank c = true) : c.toNat ≤ 32 ∨ 127 < c.toNat := by
  have hranges : ∀ range ∈ blanks, range.2 ≤ 32 ∨ 127 < range.1 := by decide
  obtain ⟨range, hmem, hlow, hhigh⟩ := (isBlank_iff c).mp h
  rcases hranges range hmem with hascii | hother
  · exact .inl (hhigh.trans hascii)
  · exact .inr (hother.trans_le hlow)

theorem toNat_of_between {low c high : Char} (h : low.val ≤ c.val ∧ c.val ≤ high.val)
    (hlow : 32 < low.toNat) (hhigh : high.toNat ≤ 127) : 32 < c.toNat ∧ c.toNat ≤ 127 :=
  ⟨hlow.trans_le (UInt32.le_iff_toNat_le.mp h.1), (UInt32.le_iff_toNat_le.mp h.2).trans hhigh⟩

theorem toNat_of_isTokenChar {c : Char} (h : Lexer.IsTokenChar c) :
    32 < c.toNat ∧ c.toNat ≤ 127 := by
  rcases h with h | h | rfl | ⟨kind, h⟩
  · rcases Bool.or_eq_true_iff.mp h with hupper | hlower
    · have hbounds : 'A'.val ≤ c.val ∧ c.val ≤ 'Z'.val := of_decide_eq_true hupper
      exact toNat_of_between hbounds (by decide) (by decide)
    · have hbounds : 'a'.val ≤ c.val ∧ c.val ≤ 'z'.val :=
        (Bool.and_eq_true_iff.mp hlower).imp of_decide_eq_true of_decide_eq_true
      exact toNat_of_between hbounds (by decide) (by decide)
  · have hbounds : '0'.val ≤ c.val ∧ c.val ≤ '9'.val :=
      (Bool.and_eq_true_iff.mp h).imp of_decide_eq_true of_decide_eq_true
    exact toNat_of_between hbounds (by decide) (by decide)
  · decide
  · rw [Lexer.sign?_eq_some_iff] at h
    cases kind <;> cases h <;> decide

/-- No token is written with blanks. -/
theorem isBlank_of_isTokenChar {c : Char} (h : Lexer.IsTokenChar c) : isBlank c = false := by
  rw [Bool.eq_false_iff]
  intro hblank
  have hout := toNat_of_isBlank hblank
  have hin := toNat_of_isTokenChar h
  omega

theorem trimEnd_of_blank {cs : List Char} (h : ∀ c ∈ cs, isBlank c = true) : trimEnd cs = [] :=
  List.rdropWhile_eq_nil_iff.mpr h

theorem trimEnd_append_blank {c : Char} (hc : isBlank c = false) {last : List Char}
    (hlast : ∀ d ∈ last, isBlank d = true) (cs : List Char) :
    trimEnd (cs ++ c :: last) = cs ++ [c] := by
  have hreverse : (cs ++ c :: last).reverse = last.reverse ++ c :: cs.reverse := by simp
  have hblank : ∀ d ∈ last.reverse, isBlank d = true :=
    fun d hd => hlast d (List.mem_reverse.mp hd)
  rw [trimEnd, hreverse, List.dropWhile_append_of_pos hblank,
    List.dropWhile_cons_of_neg (by simp [hc]), List.reverse_cons, List.reverse_reverse]

theorem mem_dropWhile_or {p : Char → Bool} {cs : List Char} {c : Char} (hc : c ∈ cs) :
    p c = true ∨ c ∈ cs.dropWhile p := by
  rw [← List.takeWhile_append_dropWhile (p := p) (l := cs), List.mem_append] at hc
  rcases hc with hc | hc
  · exact .inl (List.all_eq_true.mp List.all_takeWhile c hc)
  · exact .inr hc

/-- Trimming takes away blanks only. -/
theorem mem_trim_or {cs : List Char} {c : Char} (hc : c ∈ cs) : isBlank c = true ∨ c ∈ trim cs := by
  rcases mem_dropWhile_or hc with hblank | hc
  · exact .inl hblank
  · rcases mem_dropWhile_or (List.mem_reverse.mpr hc) with hblank | hc
    · exact .inl hblank
    · exact .inr (List.mem_reverse.mpr hc)

theorem mem_of_mem_trim {cs : List Char} {c : Char} (hc : c ∈ trim cs) : c ∈ cs := by
  have hend : c ∈ cs.dropWhile isBlank :=
    List.mem_reverse.mp ((List.dropWhile_sublist _).mem (List.mem_reverse.mp hc))
  exact (List.dropWhile_sublist _).mem hend

end Text

/-! ## 2. The characters of a program -/

namespace Lexer

variable {pieces : List Piece} {last : List Char}

theorem backslash_notMem_text (hlast : IsGap last) : '\x5c' ∉ text pieces last := by
  intro hm
  rcases mem_text_cases hlast hm with h | h | h | h | ⟨kind, h⟩
  · exact absurd h (by decide)
  · exact absurd h (by decide)
  · exact absurd h (by decide)
  · exact absurd h (by decide)
  · cases h

/-- The last character of a token tells whether it is a certain sign. -/
theorem IsLexeme.getLast?_sign {kind sign : TokenKind} {cs : List Char} {c d : Char}
    (h : IsLexeme kind cs) (hc : signChar? sign = some c) (hd : cs.getLast? = some d) :
    d = c ↔ kind = sign := by
  constructor
  · rintro rfl
    by_contra hk
    exact h.notMem_sign hc hk (List.mem_of_getLast? hd)
  · rintro rfl
    rw [h.eq_sign hc] at hd
    exact (Option.some.inj hd).symm

/-- A row that ends in a semicolon ends in the token of one. -/
theorem exists_of_text_eq_concat {cs : List Char} (hlast : IsGap last)
    (h : text pieces last = cs ++ [';']) :
    ∃ init p, pieces = init ++ [p] ∧ p.kind = .semicolon ∧ cs = text init p.gap := by
  rcases List.eq_nil_or_concat last with rfl | ⟨gap, d, rfl⟩
  · rcases List.eq_nil_or_concat pieces with rfl | ⟨init, p, rfl⟩
    · exact absurd h (by simp [text])
    · rw [List.concat_eq_append, text_concat, List.append_nil] at h
      obtain ⟨c, tail, hlexeme, -, -⟩ := p.isLexeme.exists_first
      have hend : p.lexeme.getLast? = some ';' := by
        have := congrArg List.getLast? h
        rw [List.getLast?_append_of_ne_nil _ (by simp [hlexeme]), List.getLast?_concat] at this
        exact this
      have hk : p.kind = .semicolon := (p.isLexeme.getLast?_sign rfl hend).mp rfl
      have hsign : p.lexeme = [';'] := (hk ▸ p.isLexeme).eq_sign rfl
      rw [hsign] at h
      exact ⟨init, p, List.concat_eq_append, hk, (List.append_inj' h rfl).1.symm⟩
  · rw [List.concat_eq_append] at h hlast
    rw [text_append_last] at h
    have hd : d = ';' := by simpa using (List.append_inj' h rfl).2
    exact absurd (hlast d (by simp)) (by rw [hd]; decide)

end Lexer

/-! ## 3. Completion -/

namespace Prompt

open Grammar Lexer

variable {pieces : List Piece} {last : List Char} {program : Program}

theorem joinLines_of_notMem {cs : List Char} (h : '\x5c' ∉ cs) : joinLines cs = cs := by
  fun_induction joinLines cs with
  | case1 => rfl
  | case2 rest ih => exact absurd List.mem_cons_self h
  | case3 c rest hne ih => rw [ih fun hm => h (.tail _ hm)]

/-- Nothing is replaced in a row of pieces. -/
theorem complete_text (hlast : IsGap last) :
    complete (text pieces last) =
      if lacksSemicolon (text pieces last) then text pieces last ++ [';'] else text pieces last := by
  rw [complete, joinLines_of_notMem (backslash_notMem_text hlast)]

theorem lacksSemicolon_gap (hlast : IsGap last) : lacksSemicolon last = false := by
  rw [lacksSemicolon, Text.trimEnd_of_blank fun c hc => Text.isBlank_of_gap (hlast c hc)]
  rfl

/-- **Whether a row lacks a semicolon is decided by its last token.** -/
theorem lacksSemicolon_text (hlast : IsGap last) (pieces : List Piece) (p : Piece) :
    lacksSemicolon (text (pieces ++ [p]) last) = true ↔
      p.kind ≠ .semicolon ∧ p.kind ≠ .rbrace := by
  obtain ⟨c, tail, hlexeme, -, -⟩ := p.isLexeme.exists_first
  obtain ⟨cs, d, hcs⟩ :=
    (List.eq_nil_or_concat p.lexeme).resolve_left (by rw [hlexeme]; exact List.cons_ne_nil _ _)
  rw [List.concat_eq_append] at hcs
  have hd : p.lexeme.getLast? = some d := by rw [hcs, List.getLast?_concat]
  have hblank : Text.isBlank d = false :=
    Text.isBlank_of_isTokenChar (p.isLexeme.isTokenChar (List.mem_of_getLast? hd))
  have htrim : Text.trimEnd (text (pieces ++ [p]) last) = text pieces p.gap ++ cs ++ [d] := by
    have hrow : text (pieces ++ [p]) last = text pieces p.gap ++ cs ++ d :: last := by
      rw [text_concat, hcs]
      simp only [List.append_assoc, List.singleton_append]
    rw [hrow, Text.trimEnd_append_blank hblank fun c hc => Text.isBlank_of_gap (hlast c hc)]
  have hsemicolon : d = ';' ↔ p.kind = .semicolon := p.isLexeme.getLast?_sign rfl hd
  have hbrace : d = '\x7d' ↔ p.kind = .rbrace := p.isLexeme.getLast?_sign rfl hd
  rw [lacksSemicolon, htrim, List.getLast?_concat, Ne, Ne, ← hsemicolon, ← hbrace]
  simp

/-- A program is complete. -/
theorem complete_of_isProgram (hlast : IsGap last) (h : IsProgram (tokensBehind [] pieces) program) :
    complete (text pieces last) = text pieces last := by
  have hjoin : joinLines (text pieces last) = text pieces last :=
    joinLines_of_notMem (backslash_notMem_text hlast)
  suffices hends : lacksSemicolon (text pieces last) = false by
    rw [complete_of_ends (by rw [hjoin, hends]), hjoin]
  rcases List.eq_nil_or_concat pieces with rfl | ⟨init, p, rfl⟩
  · exact lacksSemicolon_gap hlast
  · rw [List.concat_eq_append] at h ⊢
    obtain ⟨line, htokens⟩ := tokensBehind_concat [] init p
    rw [htokens] at h
    rw [Bool.eq_false_iff]
    intro hlacks
    obtain ⟨hsemicolon, hbrace⟩ := (lacksSemicolon_text hlast init p).mp hlacks
    rcases h.ends (by simp) with ⟨us, t, heq, ht⟩ | ⟨us, u, t, heq, ht, -⟩
    · cases (List.append_inj' heq rfl).2
      exact hbrace ht
    · cases (List.append_inj' heq rfl).2
      exact hsemicolon ht

/-- A row with a semicolon behind it that is a program is completed to it. -/
theorem complete_of_isProgram_concat {p : Piece} (hp : p.kind = .semicolon)
    (h : IsProgram (tokensBehind [] (pieces ++ [p])) program) :
    complete (text pieces p.gap) = text pieces p.gap ++ [';'] := by
  rw [complete_text p.isGap]
  refine if_pos ?_
  obtain ⟨line, htokens⟩ := tokensBehind_concat [] pieces p
  rw [htokens] at h
  rcases h.ends (by simp) with ⟨us, t, heq, ht⟩ | ⟨us, u, t, heq, -, hu⟩
  · cases (List.append_inj' heq rfl).2
    rw [hp] at ht
    cases ht
  · have hinit := (List.append_inj' heq rfl).1
    rcases List.eq_nil_or_concat pieces with rfl | ⟨init, q, rfl⟩
    · exact absurd hinit (by simp [tokensBehind])
    · rw [List.concat_eq_append] at hinit ⊢
      obtain ⟨line', hinit'⟩ := tokensBehind_concat [] init q
      rw [hinit'] at hinit
      cases (List.append_inj' hinit rfl).2
      exact (lacksSemicolon_text p.isGap init q).mpr ⟨hu.1, hu.2.2⟩

/-! ## 4. Evaluation -/

/-- The prompt evaluates the entry, whatever was entered before and comes behind it, and it does so
    as if the given text had been entered. -/
def EvaluatesAs (entry : List Char) (source : String) : Prop :=
  ∀ (r : Response) (shown : Threshold) (session : Session) (ls rest : List Line),
    readEntry [] ls = (.entry entry, rest) →
    r.promptFrom shown session ls =
      (((r.logAll shown #[.awaited]).logAll shown #[.entered (String.ofList entry)]).printReport
        shown (session.eval source)).promptFrom shown (session.eval source).session rest

/-- What is evaluated is the completed entry. -/
theorem evaluatesAs_of_complete {entry : List Char} {source : String}
    (hquit : isQuit entry = false) (hcomplete : complete entry = source.toList) :
    EvaluatesAs entry source := by
  intro r shown session ls rest hread
  rw [Response.promptFrom]
  split
  · rename_i hread'
    rw [hread] at hread'
    cases hread'
  · rename_i hread'
    rw [hread] at hread'
    cases hread'
  · rename_i hread'
    rw [hread] at hread'
    cases hread'
    rw [if_neg (by simp [hquit]), hcomplete, String.ofList_toList]

/-- An entry that ends the session is no program, nor one without its last semicolon. -/
theorem isQuit_of_isProgram {cs rest : List Char} (hrest : rest = [] ∨ rest = [';'])
    (hlast : IsGap last) (htext : text pieces last = cs ++ rest)
    (h : IsProgram (tokensBehind [] pieces) program) : isQuit cs = false := by
  rw [Bool.eq_false_iff]
  intro hquit
  have htrim : Text.trim cs = ['q', 'u', 'i', 't'] := by simpa [isQuit] using hquit
  have hchars : ∀ c ∈ cs, Text.isBlank c = true ∨ c ∈ ['q', 'u', 'i', 't'] := by
    intro c hc
    rw [← htrim]
    exact Text.mem_trim_or hc
  cases pieces with
  | nil =>
    have ht : 't' ∈ text [] last := by
      rw [htext]
      exact List.mem_append_left _ (Text.mem_of_mem_trim (by simp [htrim]))
    exact absurd (hlast 't' ht) (by decide)
  | cons p pieces =>
    obtain ⟨t, ht, hkind⟩ := h.exists_sign (by simp [tokensBehind])
    have hsign {sign : TokenKind} {c : Char} (hk : t.kind = sign) (hc : signChar? sign = some c)
        (hne : c ≠ ';') : c ∈ cs := by
      have hpos : 0 < (text (p :: pieces) last).count c := by
        rw [count_sign_text hlast hc [], List.countP_pos_iff]
        exact ⟨t, ht, by simpa using hk⟩
      rw [htext, List.count_pos_iff, List.mem_append] at hpos
      rcases hpos with hm | hm
      · exact hm
      · rcases hrest with rfl | rfl
        · exact absurd hm List.not_mem_nil
        · exact absurd (List.mem_singleton.mp hm) hne
    rcases hkind with hk | hk | hk
    · exact absurd (hchars '=' (hsign hk rfl (by decide))) (by decide)
    · exact absurd (hchars '(' (hsign hk rfl (by decide))) (by decide)
    · exact absurd (hchars '\x7b' (hsign hk rfl (by decide))) (by decide)

/-- **Programs are evaluated as they were entered.** An entry that is a program is left as it is, and
    an entry that is one only with a semicolon at its end gets the semicolon. Neither ends the
    session: the prompt evaluates the one as the text that was entered, and the other as the text
    with its semicolon. -/
theorem complete_of_accepts (s : String) :
    (Accepts s → complete s.toList = s.toList ∧ EvaluatesAs s.toList s) ∧
    (Accepts (s ++ ";") →
      complete s.toList = (s ++ ";").toList ∧ EvaluatesAs s.toList (s ++ ";")) := by
  refine ⟨fun h => ?_, fun h => ?_⟩
  · obtain ⟨pieces, last, program, hlast, htext, hprogram⟩ := h.exists_row
    have hcomplete : complete s.toList = s.toList := by
      rw [htext]
      exact complete_of_isProgram hlast hprogram
    have hquit : isQuit s.toList = false :=
      isQuit_of_isProgram (.inl rfl) hlast (by rw [← htext, List.append_nil]) hprogram
    exact ⟨hcomplete, evaluatesAs_of_complete hquit hcomplete⟩
  · obtain ⟨pieces, last, program, hlast, htext, hprogram⟩ := h.exists_row
    have hsemicolon : (s ++ ";").toList = s.toList ++ [';'] := by simp
    rw [hsemicolon] at htext
    have hquit : isQuit s.toList = false :=
      isQuit_of_isProgram (.inr rfl) hlast htext.symm hprogram
    obtain ⟨init, p, rfl, hp, hinit⟩ := exists_of_text_eq_concat hlast htext.symm
    have hcomplete : complete s.toList = (s ++ ";").toList := by
      rw [hsemicolon, hinit]
      exact complete_of_isProgram_concat hp hprogram
    exact ⟨hcomplete, evaluatesAs_of_complete hquit hcomplete⟩

/-- Three lines at the prompt. The first one leaves a block open, and the last one has no semicolon
    at its end. -/
def printingLines : List Line :=
  [.text "x=1;\x7b\n".toList, .text "print(x);\x7d\n".toList, .text "\x7b\x7dprint(x)\t\n".toList]

/-- A block at the end needs no semicolon, a print statement does, and blanks do not count. The
    three lines are read as these two entries, and both print at the prompt. -/
theorem complete_printing :
    Accepts "x=1;\x7b\nprint(x);\x7d" ∧
    complete "x=1;\x7b\nprint(x);\x7d".toList = "x=1;\x7b\nprint(x);\x7d".toList ∧
    Accepts ("\x7b\x7dprint(x)\t" ++ ";") ∧
    complete "\x7b\x7dprint(x)\t".toList = "\x7b\x7dprint(x)\t;".toList ∧
    readEntry [] printingLines =
      (.entry "x=1;\x7b\nprint(x);\x7d".toList, printingLines.drop 2) ∧
    readEntry [] (printingLines.drop 2) = (.entry "\x7b\x7dprint(x)\t".toList, []) ∧
    Response.greeting.promptFrom .off Session.new printingLines =
      ((Response.greeting.print "1").print "1").print "quit" := by
  have hblock : parseText "x=1;\x7b\nprint(x);\x7d" =
      .ok [.assign "x" (.constant (.integer 1)), .block [.print "x"]] := by with_unfolding_all rfl
  have hprint : parseText ("\x7b\x7dprint(x)\t" ++ ";") = .ok [.block [], .print "x"] := by
    with_unfolding_all rfl
  have hread : readEntry [] printingLines =
      (.entry "x=1;\x7b\nprint(x);\x7d".toList, printingLines.drop 2) := by with_unfolding_all rfl
  have hreadLast : readEntry [] (printingLines.drop 2) =
      (.entry "\x7b\x7dprint(x)\t".toList, []) := by with_unfolding_all rfl
  obtain ⟨hcomplete, hevaluates⟩ := (complete_of_accepts _).1 ⟨_, hblock⟩
  obtain ⟨hcompleteLast, hevaluatesLast⟩ := (complete_of_accepts _).2 ⟨_, hprint⟩
  refine ⟨⟨_, hblock⟩, hcomplete, ⟨_, hprint⟩, hcompleteLast, hread, hreadLast, ?_⟩
  obtain ⟨hsession, hresult⟩ := Session.eval_of_parseText hblock Session.new
  have hprinted : (Session.new.eval "x=1;\x7b\nprint(x);\x7d").result = .ok [.integer 1] := hresult
  have hprintedLast : ((Session.new.eval "x=1;\x7b\nprint(x);\x7d").session.eval
      ("\x7b\x7dprint(x)\t" ++ ";")).result = .ok [.integer 1] := by
    rw [(Session.eval_of_parseText hprint _).2, hsession]
    rfl
  rw [hevaluates _ _ _ _ _ hread, hevaluatesLast _ _ _ _ _ hreadLast,
    Response.printReport_off _ hprinted, Response.printReport_off _ hprintedLast,
    Response.promptFrom]
  simp only [Response.logAll_off]
  rfl

/-! ## 5. Entries that go on -/

/-- **An entry goes on exactly if it lacks closing braces.** If an entry with some closing braces
    behind it is a program, then just these braces are missing in it, and it does not end in a
    backslash. So the next line is asked for if there are any, and only then. -/
theorem isIncomplete_of_accepts {s : String} {k : Nat}
    (h : Accepts (s ++ String.ofList (List.replicate k '\x7d'))) :
    s.toList.count '\x7b' = s.toList.count '\x7d' + k ∧ s.toList.getLast? ≠ some '\x5c' ∧
      (hasOpenBraces s.toList = true ↔ 0 < k) ∧ (isIncomplete s.toList = true ↔ 0 < k) := by
  obtain ⟨pieces, last, program, hlast, htext, hprogram⟩ := h.exists_row
  have hjoined : text pieces last = s.toList ++ List.replicate k '\x7d' := by rw [← htext]; simp
  have hcount : s.toList.count '\x7b' = s.toList.count '\x7d' + k := by
    have hopening : (text pieces last).count '\x7b' =
        (tokensBehind [] pieces).countP (·.kind = .lbrace) := count_sign_text hlast rfl [] pieces
    have hclosing : (text pieces last).count '\x7d' =
        (tokensBehind [] pieces).countP (·.kind = .rbrace) := count_sign_text hlast rfl [] pieces
    rw [← hprogram.countP_braces, ← hopening, hjoined, List.count_append, List.count_append,
      List.count_replicate_self, List.count_replicate] at hclosing
    simpa using hclosing.symm
  have hbackslash : s.toList.getLast? ≠ some '\x5c' := by
    intro hend
    have hnone : '\x5c' ∉ text pieces last := backslash_notMem_text hlast
    rw [hjoined] at hnone
    exact hnone (List.mem_append_left _ (List.mem_of_getLast? hend))
  have hopen : hasOpenBraces s.toList = true ↔ 0 < k := by
    rw [hasOpenBraces, decide_eq_true_eq]
    omega
  refine ⟨hcount, hbackslash, hopen, ?_⟩
  rw [isIncomplete, Bool.or_eq_true, beq_iff_eq, hopen]
  exact or_iff_right hbackslash

/-- Two blocks are open behind the print statement. -/
theorem isIncomplete_openBlocks :
    Accepts ("\x7bx=1;\x7bprint(x);" ++ String.ofList (List.replicate 2 '\x7d')) ∧
    isIncomplete "\x7bx=1;\x7bprint(x);".toList = true := by
  have haccepts : Accepts ("\x7bx=1;\x7bprint(x);" ++ String.ofList (List.replicate 2 '\x7d')) :=
    ⟨_, by with_unfolding_all rfl⟩
  exact ⟨haccepts, (isIncomplete_of_accepts haccepts).2.2.2.mpr (by decide)⟩

end Prompt

end Abacus
