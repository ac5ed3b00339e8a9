import Abacus.Proofs.Session.Scoping
import Mathlib.Data.Finmap

/-!
# Programs without scopes

What a program means can be said without scopes: an environment is one finite map from names to
values, an assignment gives the environment with one name changed, and a block gives back the
environment that it was given. Nothing is ever opened or closed (`Program.meaning`).

The machine holds a stack of scopes instead, and changes it in place. This file relates the two: an
environment shows what the scopes show if each name has the same value in both (`Shows`). Along a
run this is kept by every statement. At the end of a block it is the scopes that matter: those
around the block are the same as before (`Machine.execAll_done`), so they still show the
environment from before.

Main statement: a run gives what the program means, and leaves the environment behind as the global
scope (`execute_agrees`).
-/

namespace Abacus

/-! ## 1. Environments -/

/-- The values of all names that have one. -/
abbrev Environment : Type := Finmap fun _ : String => Value

/-- The value of a name, or the error that it has none. -/
def Environment.read (env : Environment) (x : String) : Except RuntimeError Value :=
  match env.lookup x with
  | some v => .ok v
  | none => .error (.undefined x)

/-- The environment that a scope stands for. -/
def Frame.toEnvironment : Frame Value → Environment
  | [] => ∅
  | (x, v) :: frame => (toEnvironment frame).insert x v

/-! ## 2. Meanings -/

/-- The meaning of an expression: left operand, right operand, then the operation. -/
def Expr.meaning (env : Environment) : Expr → Except RuntimeError Value
  | .constant v => .ok v
  | .name x => env.read x
  | .paren e => e.meaning env
  | .binary op left right => do
    let a ← left.meaning env
    let b ← right.meaning env
    (op.apply a b).mapError .arithmetic

mutual

/-- The meaning of a statement: the environment behind it, and what it prints. -/
def Statement.meaning (env : Environment) :
    Statement → Except RuntimeError (Environment × List Printed)
  | .assign x e => do
    let v ← e.meaning env
    return (env.insert x v, [])
  | .print x => do
    let v ← env.read x
    return (env, [v.toPrinted])
  | .block body => do
    let (_, printed) ← Program.meaning env body
    return (env, printed)

/-- The meaning of a program. -/
def Program.meaning (env : Environment) :
    Program → Except RuntimeError (Environment × List Printed)
  | [] => return (env, [])
  | s :: rest => do
    let (next, printed) ← s.meaning env
    let (last, further) ← Program.meaning next rest
    return (last, printed ++ further)

end

/-! ## 3. Scopes that show an environment -/

theorem Frame.lookup_toEnvironment (frame : Frame Value) (x : String) :
    frame.toEnvironment.lookup x = frame.get? x := by
  induction frame with
  | nil => rfl
  | cons entry frame ih =>
    obtain ⟨y, w⟩ := entry
    rw [toEnvironment, get?]
    by_cases h : y = x
    · rw [if_pos h, h, Finmap.lookup_insert]
    · rw [if_neg h, Finmap.lookup_insert_of_ne _ (Ne.symm h), ih]

/-- Each name has the same value in the scopes and in the environment. -/
def Shows (scopes : Scopes Value) (env : Environment) : Prop :=
  ∀ x, scopes.get? x = env.lookup x

namespace Shows

variable {scopes : Scopes Value} {env : Environment}

theorem globals (frame : Frame Value) : Shows ⟨[], frame⟩ frame.toEnvironment := by
  intro x
  rw [Frame.lookup_toEnvironment]
  simp [Scopes.get?, Scopes.frames]

/-- The global scope alone stands for the environment that it shows. -/
theorem toEnvironment_eq {frame : Frame Value} (h : Shows ⟨[], frame⟩ env) :
    frame.toEnvironment = env :=
  Finmap.ext_lookup fun x => by rw [← globals frame x, h x]

theorem push (h : Shows scopes env) : Shows scopes.push env := by
  intro x
  rw [← h x]
  rfl

theorem insert (h : Shows scopes env) (x : String) (v : Value) :
    Shows (scopes.insert x v) (env.insert x v) := by
  intro y
  by_cases hy : x = y
  · rw [hy, Scopes.get?_insert_self, Finmap.lookup_insert]
  · rw [Scopes.get?_insert_of_ne _ _ hy, Finmap.lookup_insert_of_ne _ (Ne.symm hy), h y]

theorem lookup_eq_read (h : Shows scopes env) (x : String) : scopes.lookup x = env.read x := by
  rw [Scopes.lookup, Environment.read, h x]
  cases env.lookup x with
  | none => rfl
  | some v => rfl

/-- Expressions have the same value. -/
theorem eval_eq_meaning (h : Shows scopes env) (e : Expr) : e.eval scopes = e.meaning env := by
  induction e with
  | constant v => rfl
  | name x => exact h.lookup_eq_read x
  | paren e ih => exact ih
  | binary op left right ihl ihr =>
    rw [Expr.eval_binary, Expr.meaning, ihl, ihr]
    cases left.meaning env with
    | error error => rfl
    | ok a =>
      cases right.meaning env with
      | error error => rfl
      | ok b =>
        simp only [bind, Except.bind]
        cases op.apply a b with
        | error fault => rfl
        | ok v => rfl

end Shows

/-! ## 4. Runs -/

/-- The outcome of a run from a machine is what a meaning says: it shows the environment and has
    printed the values, or it stops at the error. -/
inductive Outcome.Agrees (m : Machine) :
    Outcome → Except RuntimeError (Environment × List Printed) → Prop where
  | done {m' : Machine} {env : Environment} {printed : List Printed} (hs : Shows m'.scopes env)
      (ho : m'.output.toList = m.output.toList ++ printed) : Agrees m (.done m') (.ok (env, printed))
  | stopped {m' : Machine} {error : RuntimeError} : Agrees m (.stopped error m') (.error error)

namespace Machine

mutual

/-- **A statement does what it means.** -/
theorem exec_agrees {m : Machine} {env : Environment} (hm : Shows m.scopes env) :
    ∀ s : Statement, (exec m s).Agrees m (s.meaning env)
  | .assign x e => by
      rw [exec_assign, Statement.meaning, hm.eval_eq_meaning e]
      cases e.meaning env with
      | error error => exact .stopped
      | ok v => exact .done (hm.insert x v) (List.append_nil _).symm
  | .print x => by
      rw [exec, Statement.meaning, hm.lookup_eq_read x]
      cases env.read x with
      | error error => exact .stopped
      | ok v => exact .done hm Array.toList_push
  | .block body => by
      have hpush : Shows m.enter.scopes env := hm.push
      have hbody := execAll_agrees hpush body
      rw [exec, Statement.meaning]
      generalize Program.meaning env body = meaning at hbody ⊢
      cases ho : execAll m.enter body with
      | done inside =>
        -- the scopes inside show another environment, those around the block still show `env`
        have hout : inside.scopes.outside = m.scopes.frames := execAll_done body ho
        rw [ho] at hbody
        simp only [leave_of_outside hout]
        cases hbody with
        | done _ hprinted => exact .done hm hprinted
      | stopped error inside =>
        rw [ho] at hbody
        cases hbody with
        | stopped => exact .stopped

/-- **A program does what it means.** -/
theorem execAll_agrees {m : Machine} {env : Environment} (hm : Shows m.scopes env) :
    ∀ program : Program, (execAll m program).Agrees m (Program.meaning env program)
  | [] => by
      rw [execAll, Program.meaning]
      exact .done hm (List.append_nil _).symm
  | s :: rest => by
      have hs := exec_agrees hm s
      rw [execAll, Program.meaning]
      generalize exec m s = outcome at hs ⊢
      generalize s.meaning env = meaning at hs ⊢
      cases hs with
      | @done next env' printed hnext hprinted =>
        have hrest := execAll_agrees hnext rest
        simp only [bind, Except.bind]
        generalize execAll next rest = outcome at hrest ⊢
        generalize Program.meaning env' rest = meaning at hrest ⊢
        cases hrest with
        | done hlast hfurther =>
          refine .done hlast ?_
          rw [hfurther, hprinted, List.append_assoc]
        | stopped => exact .stopped
      | stopped => exact .stopped

end

end Machine

/-- The global scope of an idle session shows its environment. -/
theorem Session.IsIdle.shows {s : Session} (h : s.IsIdle) :
    Shows s.scopes s.scopes.globals.toEnvironment := by
  obtain ⟨⟨inner, globals⟩, output⟩ := s
  cases h.inner
  exact Shows.globals globals

/-- An idle session that shows an environment has it as its global scope. -/
theorem Session.IsIdle.toEnvironment_eq {s : Session} (h : s.IsIdle) {env : Environment}
    (hs : Shows s.scopes env) : s.scopes.globals.toEnvironment = env := by
  obtain ⟨⟨inner, globals⟩, output⟩ := s
  cases h.inner
  exact hs.toEnvironment_eq

/-- **A run gives what the program means**, and leaves the environment behind as the global
    scope. -/
theorem execute_agrees {s : Session} (hs : s.Reachable) (log : Array Event) (program : Program) :
    match Program.meaning s.scopes.globals.toEnvironment program with
    | .ok (env, printed) =>
      (s.execute log program).result = .ok printed ∧
        (s.execute log program).session.scopes.globals.toEnvironment = env
    | .error error => (s.execute log program).result = .error (.stopped error) := by
  have hidle := hs.isIdle.execute log program
  have hrun := Machine.execAll_agrees (m := ⟨⟨s.scopes, #[]⟩, log⟩) hs.isIdle.shows program
  rw [Session.execute] at hidle ⊢
  generalize Machine.execAll ⟨⟨s.scopes, #[]⟩, log⟩ program = outcome at hrun hidle ⊢
  generalize Program.meaning s.scopes.globals.toEnvironment program = meaning at hrun ⊢
  cases hrun with
  | done hshows hprinted => exact ⟨congrArg Except.ok hprinted, hidle.toEnvironment_eq hshows⟩
  | stopped => exact rfl

/-- The program `x = 1; { x = 2; print(x); } print(x);`. -/
def shadowing : Program :=
  [.assign "x" (.constant (.integer 1)),
    .block [.assign "x" (.constant (.integer 2)), .print "x"], .print "x"]

/-- A block shadows a name and does not change it. -/
theorem execute_shadowing :
    Session.new.Reachable ∧
    (Session.new.execute #[] shadowing).result = .ok [.integer 2, .integer 1] := by
  have hmeaning : Program.meaning Session.new.scopes.globals.toEnvironment shadowing =
      .ok (Finmap.insert "x" (.integer 1) ∅, [.integer 2, .integer 1]) := rfl
  have h := execute_agrees .new #[] shadowing
  rw [hmeaning] at h
  exact ⟨.new, h.1⟩

end Abacus
