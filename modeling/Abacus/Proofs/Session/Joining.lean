import Abacus.Proofs.Grammar.Joining
import Abacus.Proofs.Session.Recovery

/-!
# Chunks below each other

Whether two chunks are evaluated one after the other or as one chunk, with a line break between
them, makes no difference to a session. The one chunk is read as the statements of both
(`Grammar.parseText_append`), and a run of both is a run of the first and then, unless it stops, of
the second. Both times the second part finds the scopes that the first one has left. In the one run
something may be printed already when it starts, but nothing depends on that
(`Machine.SameBehind`).

Main statement: a chunk with another one below it does what the two do one after the other
(`eval_join`).
-/

namespace Abacus

namespace Session

/-! ## 1. Runs -/

/-- The run behind a result without an error. -/
theorem exists_of_execute_ok {s : Session} {log : Array Event} {program : Program}
    {printed : List Printed} (h : (s.execute log program).result = .ok printed) :
    ∃ m, printed = m.output.toList ∧
      Machine.execAll ⟨⟨s.scopes, #[]⟩, log⟩ program = .done m := by
  cases hm : Machine.execAll ⟨⟨s.scopes, #[]⟩, log⟩ program with
  | done m =>
    rw [execute_of_done hm] at h
    cases h
    exact ⟨m, rfl, rfl⟩
  | stopped cause m =>
    rw [execute_of_stopped hm] at h
    cases h

/-- Behind a statement that stops a run nothing runs. -/
theorem execute_append_of_error {s : Session} {log : Array Event} {program : Program}
    {error : Error} (h : (s.execute log program).result = .error error) (rest : Program) :
    s.execute log (program ++ rest) = s.execute log program := by
  obtain ⟨cause, m, -, hm⟩ := exists_of_execute_error h
  have hwhole : Machine.execAll ⟨⟨s.scopes, #[]⟩, log⟩ (program ++ rest) = .stopped cause m := by
    rw [Machine.execAll_append, hm]
  rw [execute_of_stopped hm, execute_of_stopped hwhole]

/-- **Statements behind a program do what they do in the session that the program leaves**, and what
    they print comes behind what the program has printed. -/
theorem execute_append_of_ok {s : Session} {log : Array Event} {program : Program}
    {printed : List Printed} (h : (s.execute log program).result = .ok printed)
    (log' : Array Event) (rest : Program) :
    (s.execute log (program ++ rest)).session =
        ((s.execute log program).session.execute log' rest).session ∧
      (s.execute log (program ++ rest)).result =
        ((s.execute log program).session.execute log' rest).result.map (printed ++ ·) := by
  obtain ⟨m, rfl, hm⟩ := exists_of_execute_ok h
  have hrest := (m.sameBehind_restart log').execAll rest
  rw [execute_of_done hm, execute, execute, Machine.execAll_append, hm]
  simp only
  generalize Machine.execAll m rest = outcome at hrest ⊢
  generalize Machine.execAll ⟨⟨m.scopes, #[]⟩, log'⟩ rest = outcome' at hrest ⊢
  cases hrest with
  | done hlast => exact ⟨by simp only [hlast.scopes], congrArg Except.ok hlast.output⟩
  | stopped error hlast => exact ⟨by simp only [hlast.scopes], rfl⟩

/-! ## 2. Chunks -/

/-- A chunk that is accepted does what its program does. -/
theorem eval_of_parseText {source : String} {program : Program}
    (h : Grammar.parseText source = .ok program) (s : Session) :
    (s.eval source).session = (s.execute #[] program).session ∧
      (s.eval source).result = (s.execute #[] program).result := by
  obtain ⟨ts, hts, hprogram⟩ := Grammar.exists_of_parseText h
  obtain ⟨herror, htokens⟩ := Lexer.scan_of_tokenize hts
  simp only [eval, herror, htokens, hprogram, Report.finish_session, Report.finish_result]
  exact s.execute_log _ #[] program

/-- **A chunk with another one below it does what the two do one after the other.** If the upper one
    stops, its error and the session that it leaves are those of the whole. Otherwise the lower one
    runs in that session, and the whole leaves what it leaves and gives what it gives, an error or
    its output behind that of the upper one. -/
theorem eval_join (s : Session) {a b : String} {program rest : Program}
    (ha : Grammar.parseText a = .ok program) (hb : Grammar.parseText b = .ok rest) :
    match (s.eval a).result with
    | .error error =>
      (s.eval (a ++ "\n" ++ b)).result = .error error ∧
        (s.eval (a ++ "\n" ++ b)).session = (s.eval a).session
    | .ok printed =>
      (s.eval (a ++ "\n" ++ b)).result =
          ((s.eval a).session.eval b).result.map (printed ++ ·) ∧
        (s.eval (a ++ "\n" ++ b)).session = ((s.eval a).session.eval b).session := by
  obtain ⟨hsession, hresult⟩ := eval_of_parseText (Grammar.parseText_append ha hb) s
  obtain ⟨hsessiona, hresulta⟩ := eval_of_parseText ha s
  obtain ⟨hsessionb, hresultb⟩ := eval_of_parseText hb (s.eval a).session
  rw [hsession, hresult, hsessionb, hresultb, hsessiona]
  split
  · rename_i error herror
    rw [hresulta] at herror
    rw [execute_append_of_error herror]
    exact ⟨herror, rfl⟩
  · rename_i printed hprinted
    rw [hresulta] at hprinted
    exact (execute_append_of_ok hprinted #[] rest).symm

/-- The upper chunk prints a value, and the lower one gives one before it stops: the whole has the
    error of the lower one, prints nothing, and keeps what both have assigned. -/
theorem eval_join_stopped :
    Grammar.parseText "x=1;print(x);" =
      .ok [.assign "x" (.constant (.integer 1)), .print "x"] ∧
    Grammar.parseText "y=x;print(z);" = .ok [.assign "y" (.name "x"), .print "z"] ∧
    (Session.new.eval ("x=1;print(x);" ++ "\n" ++ "y=x;print(z);")).result =
      .error (.stopped (.undefined "z")) ∧
    (Session.new.eval ("x=1;print(x);" ++ "\n" ++ "y=x;print(z);")).session.scopes =
      ⟨[], [("x", .integer 1), ("y", .integer 1)]⟩ := by
  have ha : Grammar.parseText "x=1;print(x);" =
      .ok [.assign "x" (.constant (.integer 1)), .print "x"] := by with_unfolding_all rfl
  have hb : Grammar.parseText "y=x;print(z);" = .ok [.assign "y" (.name "x"), .print "z"] := by
    with_unfolding_all rfl
  have hjoin := eval_join Session.new ha hb
  obtain ⟨hsessiona, hresulta⟩ := eval_of_parseText ha Session.new
  obtain ⟨hsessionb, hresultb⟩ := eval_of_parseText hb (Session.new.eval "x=1;print(x);").session
  have hprinted : (Session.new.eval "x=1;print(x);").result = .ok [.integer 1] := hresulta
  rw [hprinted] at hjoin
  refine ⟨ha, hb, ?_, ?_⟩
  · rw [hjoin.1, hresultb, hsessiona]
    rfl
  · rw [hjoin.2, hsessionb, hsessiona]
    rfl

end Session

end Abacus
