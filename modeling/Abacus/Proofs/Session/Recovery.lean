import Abacus.Proofs.Grammar.Parsing
import Abacus.Proofs.Session.Scoping

/-!
# What a failed chunk leaves behind

A chunk can fail in two ways. It is rejected before anything runs, and then the session is as it
was. Or its run stops at a statement, perhaps deep inside blocks that it has opened and in which it
has given values and printed some. Then the open scopes are closed and the printed values thrown
away, and this undoes all of the failing statement:

* none of the scopes that were there before the statement has changed (`Machine.exec_stopped`), so
  the global scope is the one that the statements before it have left;
* the statements behind it did not run, whatever they are.

Main statement: a chunk whose run stops leaves the session as its statements before the failing one
do (`eval_session_of_error`).
-/

namespace Abacus

namespace Session

/-! ## 1. The two ways to evaluate a chunk -/

/-- A chunk is rejected, or its program runs. -/
theorem eval_cases (s : Session) (source : String) :
    (∃ error, (s.eval source).result = .error (.rejected error)) ∨
    ∃ tokens program log, Lexer.tokenize source = .ok tokens ∧
      Grammar.parse tokens = .ok program ∧ s.eval source = (s.execute log program).finish := by
  unfold eval
  simp only
  split
  · rename_i error hs
    exact .inl ⟨error, rfl⟩
  · rename_i hs
    split
    · rename_i error hp
      exact .inl ⟨error, rfl⟩
    · rename_i program hp
      refine .inr ⟨_, program, _, ?_, hp, rfl⟩
      simp only [Lexer.tokenize, hs]

/-- Chunks lead to reachable sessions. -/
theorem Reachable.eval {s : Session} (h : s.Reachable) (source : String) :
    (s.eval source).session.Reachable := by
  obtain ⟨cause, hrejected⟩ | ⟨tokens, program, log, -, -, heval⟩ := s.eval_cases source
  · rw [eval_session_of_rejected hrejected]
    exact h
  · rw [heval, Report.finish_session]
    exact h.execute log program

/-! ## 2. Runs that stop -/

theorem execute_of_done {s : Session} {log : Array Event} {program : Program} {m : Machine}
    (h : Machine.execAll ⟨⟨s.scopes, #[]⟩, log⟩ program = .done m) :
    s.execute log program = ⟨⟨m.scopes, #[]⟩, m.log, .ok m.output.toList⟩ := by
  rw [execute, h]

theorem execute_of_stopped {s : Session} {log : Array Event} {program : Program} {m : Machine}
    {error : RuntimeError}
    (h : Machine.execAll ⟨⟨s.scopes, #[]⟩, log⟩ program = .stopped error m) :
    s.execute log program = ⟨⟨m.scopes.unwind, #[]⟩, m.log, .error (.stopped error)⟩ := by
  rw [execute, h]

/-- The run behind a result that is an error. -/
theorem exists_of_execute_error {s : Session} {log : Array Event} {program : Program}
    {error : Error} (h : (s.execute log program).result = .error error) :
    ∃ cause m, error = .stopped cause ∧
      Machine.execAll ⟨⟨s.scopes, #[]⟩, log⟩ program = .stopped cause m := by
  cases hm : Machine.execAll ⟨⟨s.scopes, #[]⟩, log⟩ program with
  | done m =>
    rw [execute_of_done hm] at h
    cases h
  | stopped cause m =>
    rw [execute_of_stopped hm] at h
    cases h
    exact ⟨cause, m, rfl, rfl⟩

/-- A statement that stops a run stops it as well in a session of its own. -/
theorem execute_singleton_of_stopped {m m' : Machine} {statement : Statement}
    {cause : RuntimeError} (h : m.exec statement = .stopped cause m') (log : Array Event) :
    (execute ⟨m.scopes, #[]⟩ log [statement]).result = .error (.stopped cause) := by
  have hrun := (m.sameBehind_restart log).exec statement
  rw [h] at hrun
  rw [execute, Machine.execAll]
  generalize Machine.exec ⟨⟨m.scopes, #[]⟩, log⟩ statement = outcome at hrun ⊢
  cases hrun with
  | stopped error hm => rfl

/-- **A run that stops leaves the session as the statements before the failing one do.** -/
theorem IsIdle.execute_stopped {s : Session} (hs : s.IsIdle) {log : Array Event}
    {program : Program} {error : Error} (h : (s.execute log program).result = .error error) :
    ∃ before statement after printed, program = before ++ statement :: after ∧
      (s.execute log before).result = .ok printed ∧
      (s.execute log program).session = (s.execute log before).session ∧
      ((s.execute log before).session.execute log [statement]).result = .error error ∧
      ∀ rest, s.execute log (before ++ statement :: rest) = s.execute log program := by
  obtain ⟨cause, m, rfl, hm⟩ := exists_of_execute_error h
  obtain ⟨before, statement, after, next, rfl, hb, hst⟩ := Machine.execAll_stopped_split hm
  have hstop (rest : Program) :
      Machine.execAll ⟨⟨s.scopes, #[]⟩, log⟩ (before ++ statement :: rest) = .stopped cause m := by
    rw [Machine.execAll_append, hb]
    simp only [Machine.execAll, hst]
  have hbefore := execute_of_done hb
  have hidle := hs.execute log before
  rw [hbefore] at hidle
  refine ⟨before, statement, after, next.output.toList, rfl, ?_, ?_, ?_, ?_⟩
  · rw [hbefore]
  · -- closing the open scopes gives back the scopes from before the statement
    have hscopes : m.scopes.unwind = next.scopes := by
      rw [Scopes.unwind_of_suffix (Machine.exec_stopped statement hst)]
      exact hidle.unwind
    rw [hbefore, execute_of_stopped hm, hscopes]
  · rw [hbefore]
    exact execute_singleton_of_stopped hst log
  · intro rest
    rw [execute_of_stopped (hstop rest), execute_of_stopped hm]

/-! ## 3. Chunks -/

/-- **A failed chunk undoes what it must.** A rejected chunk leaves the session as it was. A chunk
    whose run stops does so at a first statement that fails, and leaves the session as the
    statements before it do, idle. What stands behind that statement makes no difference, and no
    chunk evaluated later can tell that anything but the statements before it has run. -/
theorem eval_session_of_error {s : Session} (hs : s.Reachable) {source : String} {error : Error}
    (h : (s.eval source).result = .error error) :
    (error.isSyntax = true → (s.eval source).session = s) ∧
    (error.isSyntax = false →
      ∃ tokens before statement after printed,
        Lexer.tokenize source = .ok tokens ∧
        Grammar.parse tokens = .ok (before ++ statement :: after) ∧
        (s.execute #[] before).result = .ok printed ∧
        ((s.execute #[] before).session.execute #[] [statement]).result = .error error ∧
        (s.eval source).session = (s.execute #[] before).session ∧
        (s.eval source).session.scopes.depth = 1 ∧ (s.eval source).session.output = #[] ∧
        (∀ rest, s.execute #[] (before ++ statement :: rest) =
          s.execute #[] (before ++ statement :: after)) ∧
        ∀ later, (s.eval source).session.evalAll later =
          (s.execute #[] before).session.evalAll later) := by
  obtain ⟨cause, hrejected⟩ | ⟨tokens, program, log, htokens, hprogram, heval⟩ :=
    s.eval_cases source
  · refine ⟨fun _ => eval_session_of_rejected hrejected, fun hsyntax => ?_⟩
    rw [hrejected] at h
    cases h
    cases hsyntax
  · rw [heval, Report.finish_result, (s.execute_log log #[] program).2] at h
    rw [heval, Report.finish_session, (s.execute_log log #[] program).1]
    obtain ⟨before, statement, after, printed, rfl, hprinted, hsession, hstatement, hrest⟩ :=
      hs.isIdle.execute_stopped h
    obtain ⟨cause, -, rfl, -⟩ := exists_of_execute_error h
    have hidle := hs.isIdle.execute #[] before
    refine ⟨fun hsyntax => absurd hsyntax Bool.false_ne_true, fun _ => ?_⟩
    refine ⟨tokens, before, statement, after, printed, htokens, hprogram, hprinted, hstatement,
      hsession, ?_, ?_, hrest, fun later => by rw [hsession]⟩
    · rw [hsession, Scopes.depth, hidle.inner]
      rfl
    · rw [hsession]
      exact hidle.output

/-- The tokens of `g=1;{print(g);y=nope;}`. -/
def unfinishedTokens : List Token :=
  [⟨.identifier, "g", 1⟩, ⟨.assign, "=", 1⟩, ⟨.number, "1", 1⟩, ⟨.semicolon, ";", 1⟩,
    ⟨.lbrace, "\x7b", 1⟩, ⟨.print, "print", 1⟩, ⟨.lparen, "(", 1⟩, ⟨.identifier, "g", 1⟩,
    ⟨.rparen, ")", 1⟩, ⟨.semicolon, ";", 1⟩, ⟨.identifier, "y", 1⟩, ⟨.assign, "=", 1⟩,
    ⟨.identifier, "nope", 1⟩, ⟨.semicolon, ";", 1⟩, ⟨.rbrace, "\x7d", 1⟩]

theorem parse_unfinishedTokens :
    Grammar.parse unfinishedTokens =
      .ok [.assign "g" (.constant (.integer 1)),
        .block [.print "g", .assign "y" (.name "nope")]] := by
  have hone : Grammar.IsSum [⟨.number, "1", 1⟩] (.constant (.integer 1)) :=
    .product (.power (.atom (.number rfl (by decide))))
  have hnope : Grammar.IsSum [⟨.identifier, "nope", 1⟩] (.name "nope") :=
    .product (.power (.atom (.name rfl)))
  have hg : Grammar.IsStatement (unfinishedTokens.take 4) (.assign "g" (.constant (.integer 1))) :=
    .assign rfl rfl hone rfl
  have hprint : Grammar.IsStatement ((unfinishedTokens.drop 5).take 5) (.print "g") :=
    .print rfl rfl rfl rfl rfl
  have hy : Grammar.IsStatement ((unfinishedTokens.drop 10).take 4) (.assign "y" (.name "nope")) :=
    .assign rfl rfl hnope rfl
  refine Grammar.parse_of_isProgram rfl ?_
  exact .snoc (.snoc .empty hg) (.block rfl (.snoc (.snoc .empty hprint) hy) rfl)

/-- A name without a value inside a block: the block is closed, and nothing stays printed. -/
theorem eval_unfinished :
    Session.new.Reachable ∧
    (Session.new.eval "g=1;\x7bprint(g);y=nope;\x7d").result =
      .error (.stopped (.undefined "nope")) ∧
    (Session.new.eval "g=1;\x7bprint(g);y=nope;\x7d").session.scopes.depth = 1 ∧
    (Session.new.eval "g=1;\x7bprint(g);y=nope;\x7d").session.output = #[] := by
  have hscan : Lexer.scan "g=1;\x7bprint(g);y=nope;\x7d" = ⟨unfinishedTokens.toArray, none⟩ := by
    decide +kernel
  have hresult : (Session.new.eval "g=1;\x7bprint(g);y=nope;\x7d").result =
      .error (.stopped (.undefined "nope")) := by
    simp only [eval, hscan, parse_unfinishedTokens]
    rfl
  obtain ⟨tokens, before, statement, after, printed, -, -, -, -, -, hdepth, houtput, -⟩ :=
    (eval_session_of_error .new hresult).2 rfl
  exact ⟨.new, hresult, hdepth, houtput⟩

end Session

end Abacus
