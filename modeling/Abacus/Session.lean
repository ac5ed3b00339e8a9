import Abacus.Event
import Abacus.Grammar.Parser
import Abacus.Scopes
import Abacus.Token.Lexer

/-!
# Sessions

A session runs chunks of program text one after the other and keeps what they leave in the global
scope. This file fixes how

* an expression is evaluated: left operand, right operand, then the operation, which is noted in the
  log if it fails (`Expr.evaluate`);
* a statement runs: the machine holds the scopes, what was printed, and the log (`Statement.exec`);
* a program runs in a session: an error closes the scopes that are still open and throws away what
  was printed, but keeps the global values given before it (`Session.execute`);
* a chunk is evaluated: it is read as a whole before anything runs, so a chunk that is rejected
  changes nothing (`Session.eval`).

The value of an expression does not depend on the log (`Expr.eval`), and an evaluation that fails
leaves one line there at most (`Expr.evaluate_eq`).

Main statement: a rejected chunk leaves the session as it was (`eval_session_of_rejected`).
-/

namespace Abacus

/-! ## 1. Expressions -/

/-- Evaluates an expression, behind the events that are in the log already. The operation that fails
    is noted; those around it hand its error on. -/
def Expr.evaluate (scopes : Scopes Value) (log : Array Event) :
    Expr → Except RuntimeError Value × Array Event
  | .constant v => (.ok v, log)
  | .name x => (scopes.lookup x, log)
  | .paren e => e.evaluate scopes log
  | .binary op left right =>
    match left.evaluate scopes log with
    | (.error error, log) => (.error error, log)
    | (.ok a, log) =>
      match right.evaluate scopes log with
      | (.error error, log) => (.error error, log)
      | (.ok b, log) =>
        match op.apply a b with
        | .ok v => (.ok v, log)
        | .error fault => (.error (.arithmetic fault), log.push (.failed fault))

/-- The value of an expression. -/
def Expr.eval (scopes : Scopes Value) (e : Expr) : Except RuntimeError Value :=
  (e.evaluate scopes #[]).1

/-- The log behind an evaluation with this result: one line about the operation that failed, and
    nothing about a name without a value. -/
def noted (log : Array Event) : Except RuntimeError Value → Array Event
  | .error (.arithmetic fault) => log.push (.failed fault)
  | _ => log

theorem noted_lookup (log : Array Event) (scopes : Scopes Value) (x : String) :
    noted log (scopes.lookup x) = log := by
  unfold Scopes.lookup
  split
  · rfl
  · rfl

namespace Expr

/-- An evaluation has the same result behind every log, and what it adds to the log is read off the
    result. -/
theorem exists_evaluate (scopes : Scopes Value) (e : Expr) :
    ∃ result, ∀ log, e.evaluate scopes log = (result, noted log result) := by
  induction e with
  | constant v => exact ⟨.ok v, fun _ => rfl⟩
  | name x =>
    refine ⟨scopes.lookup x, fun log => ?_⟩
    rw [evaluate, noted_lookup]
  | paren e ih => exact ih
  | binary op left right ihl ihr =>
    obtain ⟨l, hl⟩ := ihl
    obtain ⟨r, hr⟩ := ihr
    cases l with
    | error error =>
      -- the operand has noted its failure, if it is one, and this operation adds nothing
      exact ⟨.error error, fun log => by rw [evaluate, hl]⟩
    | ok a =>
      cases r with
      | error error => exact ⟨.error error, fun log => by simp only [evaluate, hl, hr, noted]⟩
      | ok b =>
        cases h : op.apply a b with
        | ok v => exact ⟨.ok v, fun log => by simp only [evaluate, hl, hr, noted, h]⟩
        | error fault =>
          exact ⟨.error (.arithmetic fault), fun log => by simp only [evaluate, hl, hr, noted, h]⟩

/-- **An expression notes one failure at most**: the operation that fails does so once, and the
    operations around it add nothing. -/
theorem evaluate_eq (scopes : Scopes Value) (log : Array Event) (e : Expr) :
    e.evaluate scopes log = (e.eval scopes, noted log (e.eval scopes)) := by
  obtain ⟨result, h⟩ := e.exists_evaluate scopes
  rw [eval, h #[], h log]

@[simp] theorem eval_constant (scopes : Scopes Value) (v : Value) :
    (constant v).eval scopes = .ok v := rfl

@[simp] theorem eval_name (scopes : Scopes Value) (x : String) :
    (name x).eval scopes = scopes.lookup x := rfl

@[simp] theorem eval_paren (scopes : Scopes Value) (e : Expr) :
    (paren e).eval scopes = e.eval scopes := rfl

theorem eval_binary (scopes : Scopes Value) (op : Operator) (left right : Expr) :
    (binary op left right).eval scopes =
      match left.eval scopes with
      | .error error => .error error
      | .ok a =>
        match right.eval scopes with
        | .error error => .error error
        | .ok b =>
          match op.apply a b with
          | .ok v => .ok v
          | .error fault => .error (.arithmetic fault) := by
  rw [eval, evaluate, left.evaluate_eq]
  cases left.eval scopes with
  | error error => rfl
  | ok a =>
    simp only [right.evaluate_eq]
    cases right.eval scopes with
    | error error => rfl
    | ok b =>
      cases h : op.apply a b with
      | ok v => simp only [h]
      | error fault => simp only [h]

end Expr

/-! ## 2. The machine -/

/-- What a session keeps: the scopes, and what was printed since its last answer. -/
structure Session where
  scopes : Scopes Value
  output : Array Printed

/-- A session while it runs, with its log. -/
structure Machine extends Session where
  log : Array Event

namespace Machine

/-- Gives a name a value. -/
def assign (m : Machine) (x : String) (v : Value) : Machine :=
  ⟨⟨m.scopes.insert x v, m.output⟩, m.log.push (.assigned x v)⟩

/-- Prints a value. -/
def print (m : Machine) (x : String) (p : Printed) : Machine :=
  ⟨⟨m.scopes, m.output.push p⟩, m.log.push (.shown x p)⟩

/-- Opens a scope. -/
def enter (m : Machine) : Machine :=
  let scopes := m.scopes.push
  ⟨⟨scopes, m.output⟩, m.log.push (.opened scopes.depth)⟩

end Machine

/-- How a run ends: at its end, or at an error. The machine is kept in both cases. -/
inductive Outcome where
  | done (m : Machine)
  | stopped (error : RuntimeError) (m : Machine)

namespace Machine

/-- Closes the innermost scope. -/
def leave (m : Machine) : Outcome :=
  match m.scopes.pop? with
  | some scopes => .done ⟨⟨scopes, m.output⟩, m.log.push (.closed scopes.depth)⟩
  | none => .stopped .globalClosed m

/-! ## 3. Statements -/

mutual

/-- Runs a statement. -/
def exec (m : Machine) : Statement → Outcome
  | .assign x e =>
    match e.evaluate m.scopes m.log with
    | (.ok v, log) => .done (assign { m with log := log } x v)
    | (.error error, log) => .stopped error { m with log := log }
  | .print x =>
    match m.scopes.lookup x with
    | .ok v => .done (m.print x v.toPrinted)
    | .error error => .stopped error m
  | .block body =>
    match execAll m.enter body with
    | .done inside => inside.leave
    | .stopped error inside => .stopped error inside

/-- Runs statements one after the other, up to the first error. -/
def execAll (m : Machine) : List Statement → Outcome
  | [] => .done m
  | s :: rest =>
    match exec m s with
    | .done next => execAll next rest
    | .stopped error next => .stopped error next

end

/-- An assignment by the value of its expression. -/
theorem exec_assign (m : Machine) (x : String) (e : Expr) :
    exec m (.assign x e) =
      match e.eval m.scopes with
      | .ok v => .done (m.assign x v)
      | .error error => .stopped error { m with log := noted m.log (.error error) } := by
  rw [exec, e.evaluate_eq]
  cases e.eval m.scopes with
  | ok v => rfl
  | error error => rfl

end Machine

/-! ## 4. Sessions -/

/-- What the evaluation of a chunk gives: the session behind it, the log, and the printed values or
    the error. -/
structure Report where
  session : Session
  log : Array Event
  result : Except Error (List Printed)

/-- Notes the end of a run that had no error. -/
def Report.finish (report : Report) : Report :=
  match report.result with
  | .ok printed => { report with log := report.log.push (.finished printed.length) }
  | .error _ => report

@[simp] theorem Report.finish_result (report : Report) : report.finish.result = report.result := by
  unfold Report.finish
  split <;> rfl

@[simp] theorem Report.finish_session (report : Report) :
    report.finish.session = report.session := by
  unfold Report.finish
  split <;> rfl

namespace Session

/-- A session without values. -/
def new : Session := ⟨Scopes.empty, #[]⟩

/-- Runs a program, behind the events that are in the log already. -/
def execute (s : Session) (log : Array Event) (program : Program) : Report :=
  match Machine.execAll ⟨⟨s.scopes, #[]⟩, log⟩ program with
  | .done m => ⟨⟨m.scopes, #[]⟩, m.log, .ok m.output.toList⟩
  | .stopped error m => ⟨⟨m.scopes.unwind, #[]⟩, m.log, .error (.stopped error)⟩

/-- A program that runs is not rejected. -/
theorem execute_result_ne_rejected (s : Session) (log : Array Event) (program : Program)
    (error : SyntaxError) : (s.execute log program).result ≠ .error (.rejected error) := by
  unfold execute
  split <;> simp

/-- Evaluates a chunk of program text. -/
def eval (s : Session) (source : String) : Report :=
  let scan := Lexer.scan source
  let log := scan.tokens.map Event.token
  match scan.error? with
  | some error => ⟨s, log, .error (.rejected error)⟩
  | none =>
    let tokens := scan.tokens.toList
    match Grammar.parse tokens with
    | .error error => ⟨s, log, .error (.rejected error)⟩
    | .ok program =>
      (s.execute (log.push (.parsed program.length tokens.length)) program).finish

/-- **A rejected chunk leaves the session as it was.** -/
theorem eval_session_of_rejected {s : Session} {source : String} {error : SyntaxError}
    (h : (s.eval source).result = .error (.rejected error)) : (s.eval source).session = s := by
  unfold eval at h ⊢
  simp only at h ⊢
  split
  · rfl
  · rename_i hs
    simp only [hs] at h
    split
    · rfl
    · rename_i program hp
      simp only [hp, Report.finish_result] at h
      exact absurd h (execute_result_ne_rejected _ _ _ _)

/-- Evaluates chunks one after the other, whether or not the ones before had errors. -/
def evalAll (s : Session) : List String → List Report
  | [] => []
  | source :: rest =>
    let report := s.eval source
    report :: evalAll report.session rest

end Session

/-- Evaluates a program in a session of its own. -/
def run (source : String) : Report := Session.new.eval source

end Abacus
