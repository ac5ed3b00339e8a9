import Abacus.Proofs.Grammar.Walk

/-!
# Programs below each other

A program that is accepted can have any text below it, and makes no difference to it. The text is
rejected where it would be rejected alone, and for the same reason, only further down. Each of the
steps of reading has something to forget at the end of the upper program:

* the tokens below it are those of the lower text (`Lexer.tokenize_join`), and the grammar does not
  look at their lines (`parse_below`);
* the nesting check has nothing open, so it goes on as at the start (`check_append`);
* the repetition of statements goes on with the statements that it has (`many_append`);
* the walk to the place of an error is in as many blocks as it was before (`IsProgram.walk`).

Main statement: a text below a program that is accepted is read as if it stood alone, and its
statements come behind those of the program (`parseText_join`).
-/

namespace Abacus

/-! ## 1. Behind the tokens of a program -/

theorem Nesting.checkFrom_append {n : Nesting} {ts : List Token} (h : n.checkFrom ts = .ok ())
    (us : List Token) : n.checkFrom (ts ++ us) = (n.after ts).checkFrom us := by
  induction ts generalizing n with
  | nil => rfl
  | cons t ts ih =>
    simp only [List.cons_append, checkFrom, after_cons] at h ⊢
    split at h
    · cases h
    · rename_i hd
      rw [if_neg hd, ih h]

/-- What a repetition has collected already stays in front. -/
theorem Rule.foldFrom_push_append {α : Type} (r : Rule α) (before collected : Array α)
    (ts : List Token) :
    foldFrom r Array.push (before ++ collected) ts =
      (before ++ (foldFrom r Array.push collected ts).1,
        (foldFrom r Array.push collected ts).2) := by
  fun_induction foldFrom r Array.push collected ts with
  | case1 collected ts a rest h ih =>
    rw [foldFrom_of_run h, ← ih, Array.append_push]
  | case2 collected ts stuck h => rw [foldFrom_of_error h]

namespace Grammar

open Rule

/-- Behind a program the nesting check goes on as at the start. -/
theorem check_append {ts : List Token} {program : Program} (h : IsProgram ts program)
    (hn : Nesting.check ts = .ok ()) (us : List Token) :
    Nesting.check (ts ++ us) = Nesting.check us := by
  rw [Nesting.check, Nesting.checkFrom_append hn, (h.scan Nesting.start rfl).1]
  rfl

/-- Behind a program the statements of the following tokens are read. -/
theorem many_append {ts : List Token} {program : Program} (h : IsProgram ts program)
    {levels : Nat} (hd : Program.depth program ≤ levels) (us : List Token) :
    (statement levels).many (ts ++ us) =
      (program ++ ((statement levels).many us).1, ((statement levels).many us).2) := by
  have hfold := h.foldFrom levels hd #[] us
  have hcollected : #[] ++ program.toArray = program.toArray ++ #[] := by simp
  rw [hcollected, foldFrom_push_append] at hfold
  rw [many, hfold]
  simp [many]

/-- Behind a program the walk goes on in as many blocks as before. -/
theorem IsProgram.walk {ts : List Token} {program : Program} (h : IsProgram ts program)
    (hd : Program.depth program ≤ maxNesting) (blocks : Nat) (rest : List Token) :
    walk blocks (ts ++ rest) = walk blocks rest :=
  (h.walks (readsSums_expr maxNesting) hd blocks rest).walk_eq

theorem locate_append {ts : List Token} {program : Program} (h : IsProgram ts program)
    (hd : Program.depth program ≤ maxNesting) (us : List Token) :
    locate (ts ++ us) = locate us := by
  rw [locate, locate, h.walk hd]

/-! ## 2. Programs -/

theorem check_of_parse {ts : List Token} {program : Program} (h : parse ts = .ok program) :
    Nesting.check ts = .ok () := by
  unfold parse at h
  split at h
  · cases h
  · rename_i hn
    exact hn

/-- **Tokens behind a program are read as if they stood alone**, and their statements come behind
    those of the program. -/
theorem parse_append {ts : List Token} {program : Program} (h : parse ts = .ok program)
    (us : List Token) : parse (ts ++ us) = (parse us).map (program ++ ·) := by
  have hprogram := isProgram_of_parse h
  have hn := check_of_parse h
  have hd := (check_ok_iff_depth_le hprogram).mp hn
  rw [parse, parse, check_append hprogram hn, many_append hprogram hd, locate_append hprogram hd]
  cases Nesting.check us with
  | error error => rfl
  | ok done =>
    obtain ⟨rest, left⟩ := (statement maxNesting).many us
    cases left with
    | nil => rfl
    | cons t left => rfl

/-- Tokens below a program are read as if they stood alone, with an error moved down. -/
theorem parse_join {ts : List Token} {program : Program} (h : parse ts = .ok program)
    (lines : Nat) (us : List Token) :
    parse (ts ++ us.map (Token.below lines)) =
      match parse us with
      | .ok rest => .ok (program ++ rest)
      | .error error => .error (error.below lines) := by
  rw [parse_append h, parse_below]
  cases parse us with
  | error error => rfl
  | ok rest => rfl

/-! ## 3. Texts -/

/-- The program that a text stands for. -/
def parseText (source : String) : Except SyntaxError Program :=
  match Lexer.tokenize source with
  | .ok ts => parse ts
  | .error error => .error error

theorem exists_of_parseText {source : String} {program : Program}
    (h : parseText source = .ok program) :
    ∃ ts, Lexer.tokenize source = .ok ts ∧ parse ts = .ok program := by
  unfold parseText at h
  split at h
  · rename_i ts hts
    exact ⟨ts, hts, h⟩
  · cases h

/-- Two programs below each other are one program. -/
theorem parseText_append {a b : String} {program rest : Program}
    (ha : parseText a = .ok program) (hb : parseText b = .ok rest) :
    parseText (a ++ "\n" ++ b) = .ok (program ++ rest) := by
  obtain ⟨ts, hts, hprogram⟩ := exists_of_parseText ha
  obtain ⟨us, hus, hrest⟩ := exists_of_parseText hb
  rw [parseText, Lexer.tokenize_join hts, hus]
  simp only [parse_join hprogram, hrest]

/-- **A program that is accepted makes no difference to the text below it.** The statements of the
    text come behind those of the program if the text is accepted alone. Otherwise the whole is
    rejected with the error of the text alone, as many lines further down as the program has. -/
theorem parseText_join {a : String} {program : Program} (ha : parseText a = .ok program)
    (b : String) :
    parseText (a ++ "\n" ++ b) =
      match parseText b with
      | .ok rest => .ok (program ++ rest)
      | .error error => .error (error.below (a.toList.count '\n' + 1)) := by
  obtain ⟨ts, hts, hprogram⟩ := exists_of_parseText ha
  rw [parseText, Lexer.tokenize_join hts, parseText]
  cases Lexer.tokenize b with
  | error error => rfl
  | ok us => exact parse_join hprogram _ us

/-- A sign out of place inside a block, alone on line 2 and below a program of two lines on
    line 4. -/
theorem parseText_join_sign :
    parseText "x=1;\nprint(x);" = .ok [.assign "x" (.constant (.integer 1)), .print "x"] ∧
    parseText "\x7b\ny=2+;" = .error (.unexpected "+" 2) ∧
    parseText ("x=1;\nprint(x);" ++ "\n" ++ "\x7b\ny=2+;") = .error (.unexpected "+" 4) := by
  have ha : parseText "x=1;\nprint(x);" =
      .ok [.assign "x" (.constant (.integer 1)), .print "x"] := by with_unfolding_all rfl
  have hb : parseText "\x7b\ny=2+;" = .error (.unexpected "+" 2) := by with_unfolding_all rfl
  refine ⟨ha, hb, ?_⟩
  rw [parseText_join ha, hb]
  rfl

end Grammar

end Abacus
