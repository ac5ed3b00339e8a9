import Abacus.Proofs.Session.Environment

/-!
# Names without a value

Which name a run will miss can be read off the program, without running it. The names that are known
at a place are those of the global scope and those assigned before, in the same block or in a block
around it. What a block assigns is forgotten at its end, and an assignment does not know its own
name yet. The first name that is read and not known, in the order of execution, is the one that the
run stops at (`Program.unknown?`), unless an operation without a result stops it earlier.

The argument needs no scopes: it goes through the meaning of a program (`Program.meaning`), where the
names that have a value are those of one environment. What carries the induction is that known names
are exactly the names of the environment (`Knows`).

Main statement: a run stops at a name without a value only if that name is the first unknown one, and
gives its output only if there is none; without an unknown name it gives its output or stops at an
operation (`execute_undefined_decided`).
-/

namespace Abacus

/-! ## 1. The first unknown name -/

/-- The first name that an expression reads and that is not known. -/
def Expr.unknown? (known : List String) : Expr → Option String
  | .constant _ => none
  | .name x => if x ∈ known then none else some x
  | .paren e => e.unknown? known
  | .binary _ left right => (left.unknown? known).or (right.unknown? known)

/-- The names that a statement makes known to those behind it; a block forgets its own. -/
def Statement.assigned : Statement → List String
  | .assign x _ => [x]
  | .print _ => []
  | .block _ => []

mutual

/-- The first name that a statement reads and that is not known. -/
def Statement.unknown? (known : List String) : Statement → Option String
  | .assign _ e => e.unknown? known
  | .print x => if x ∈ known then none else some x
  | .block body => Program.unknown? known body

/-- The first name that a program reads and that is not known. -/
def Program.unknown? (known : List String) : Program → Option String
  | [] => none
  | s :: rest => (s.unknown? known).or (Program.unknown? (s.assigned ++ known) rest)

end

/-- The names of a scope. -/
def Frame.names {α : Type} (frame : Frame α) : List String := frame.map Prod.fst

/-! ## 2. Known names and environments -/

/-- The known names are those that have a value. -/
def Knows (known : List String) (env : Environment) : Prop := ∀ x, x ∈ known ↔ x ∈ env

theorem knows_names (frame : Frame Value) : Knows frame.names frame.toEnvironment := by
  intro x
  induction frame with
  | nil => exact iff_of_false List.not_mem_nil Finmap.notMem_empty
  | cons entry frame ih =>
    obtain ⟨y, v⟩ := entry
    rw [Frame.toEnvironment, Finmap.mem_insert, ← ih]
    exact List.mem_cons

/-- A computation that gives a value has a first part that does. -/
theorem exists_of_bind_eq_ok {α β : Type} {r : Except RuntimeError α}
    {f : α → Except RuntimeError β} {b : β} (h : r >>= f = .ok b) : ∃ a, f a = .ok b := by
  cases r with
  | error error => cases h
  | ok a => exact ⟨a, h⟩

namespace Knows

variable {known : List String} {env : Environment}

theorem insert (h : Knows known env) (x : String) (v : Value) :
    Knows (x :: known) (env.insert x v) := by
  intro y
  rw [Finmap.mem_insert, ← h y]
  exact List.mem_cons

/-- What is known behind a statement. -/
theorem meaning (h : Knows known env) {s : Statement} {next : Environment}
    {printed : List Printed} (hs : s.meaning env = .ok (next, printed)) :
    Knows (s.assigned ++ known) next := by
  cases s with
  | assign x e =>
    rw [Statement.meaning] at hs
    obtain ⟨v, hv⟩ := exists_of_bind_eq_ok hs
    cases hv
    exact h.insert x v
  | print x =>
    rw [Statement.meaning] at hs
    obtain ⟨v, hv⟩ := exists_of_bind_eq_ok hs
    cases hv
    exact h
  | block body =>
    rw [Statement.meaning] at hs
    obtain ⟨result, hresult⟩ := exists_of_bind_eq_ok hs
    cases hresult
    exact h

end Knows

/-! ## 3. Meanings and unknown names -/

/-- What a meaning has to do with the first unknown name: there is none if it is a value, it is the
    name without a value if one is missing, and nothing is said if an operation has no result. -/
inductive Decides {α : Type} : Option String → Except RuntimeError α → Prop where
  | ok (a : α) : Decides none (.ok a)
  | undefined (x : String) : Decides (some x) (.error (.undefined x))
  | arithmetic (unknown : Option String) (fault : Fault) :
      Decides unknown (.error (.arithmetic fault))

namespace Decides

variable {α β : Type} {known : List String} {env : Environment}

/-- One computation behind the other: the second one counts only if the first one gives a value. -/
theorem bind {unknown unknown' : Option String} {r : Except RuntimeError α}
    {f : α → Except RuntimeError β} (h : Decides unknown r)
    (hf : ∀ a, r = .ok a → Decides unknown' (f a)) : Decides (unknown.or unknown') (r >>= f) := by
  cases h with
  | ok a =>
    rw [Option.none_or]
    exact hf a rfl
  | undefined x => exact .undefined x
  | arithmetic unknown fault => exact .arithmetic _ fault

/-- A computation that goes on without reading a name. -/
theorem map {unknown : Option String} {r : Except RuntimeError α} (h : Decides unknown r)
    (f : α → β) : Decides unknown (r >>= fun a => pure (f a)) := by
  rw [← Option.or_none (o := unknown)]
  exact h.bind fun a _ => .ok (f a)

theorem read (h : Knows known env) (x : String) :
    Decides (if x ∈ known then none else some x) (env.read x) := by
  rw [Environment.read]
  by_cases hx : x ∈ known
  · obtain ⟨v, hv⟩ := Finmap.mem_iff.mp ((h x).mp hx)
    rw [if_pos hx, hv]
    exact .ok v
  · have hv : env.lookup x = none := Finmap.lookup_eq_none.mpr fun hm => hx ((h x).mpr hm)
    rw [if_neg hx, hv]
    exact .undefined x

theorem apply (op : Operator) (a b : Value) :
    Decides none ((op.apply a b).mapError RuntimeError.arithmetic) := by
  cases op.apply a b with
  | error fault => exact .arithmetic none fault
  | ok v => exact .ok v

theorem expr (h : Knows known env) (e : Expr) : Decides (e.unknown? known) (e.meaning env) := by
  induction e with
  | constant v => exact .ok v
  | name x => exact read h x
  | paren e ih => exact ih
  | binary op left right ihl ihr =>
    rw [Expr.unknown?, Expr.meaning]
    refine ihl.bind fun a _ => ?_
    rw [← Option.or_none (o := right.unknown? known)]
    exact ihr.bind fun b _ => apply op a b

mutual

theorem statement {known : List String} {env : Environment} (h : Knows known env) :
    ∀ s : Statement, Decides (s.unknown? known) (s.meaning env)
  | .assign x e => by
      rw [Statement.unknown?, Statement.meaning]
      exact (expr h e).map _
  | .print x => by
      rw [Statement.unknown?, Statement.meaning]
      exact (read h x).map _
  | .block body => by
      -- what the block assigns is known inside it, and forgotten with its environment
      rw [Statement.unknown?, Statement.meaning]
      exact (program h body).map _

/-- **The first unknown name decides what a program means.** -/
theorem program {known : List String} {env : Environment} (h : Knows known env) :
    ∀ p : Program, Decides (Program.unknown? known p) (Program.meaning env p)
  | [] => by
      rw [Program.unknown?, Program.meaning]
      exact .ok _
  | s :: rest => by
      rw [Program.unknown?, Program.meaning]
      refine (statement h s).bind fun result hs => ?_
      exact (program (h.meaning hs) rest).map _

end

end Decides

/-! ## 4. Runs -/

/-- The result of a run is what the program prints by its meaning, or the error of its meaning. -/
theorem Session.Reachable.execute_result {s : Session} (hs : s.Reachable) (log : Array Event)
    (program : Program) :
    (s.execute log program).result =
      ((Program.meaning s.scopes.globals.toEnvironment program).map Prod.snd).mapError
        Error.stopped := by
  have hrun := Machine.execAll_agrees (m := ⟨⟨s.scopes, #[]⟩, log⟩) hs.isIdle.shows program
  rw [Session.execute]
  generalize Machine.execAll ⟨⟨s.scopes, #[]⟩, log⟩ program = outcome at hrun ⊢
  generalize Program.meaning s.scopes.globals.toEnvironment program = meaning at hrun ⊢
  cases hrun with
  | done _ hprinted => exact congrArg Except.ok hprinted
  | stopped => rfl

/-- **Names without a value are decided by the program alone.** If a run stops at a name without a
    value, it is the first name that the program reads and that is neither global nor assigned
    before. If a run gives its output, there is no such name. If there is none, the run gives its
    output or stops at an operation without a result. -/
theorem execute_undefined_decided {s : Session} (hs : s.Reachable) (log : Array Event)
    (program : Program) :
    (∀ x, (s.execute log program).result = .error (.stopped (.undefined x)) →
      Program.unknown? s.scopes.globals.names program = some x) ∧
    (∀ printed, (s.execute log program).result = .ok printed →
      Program.unknown? s.scopes.globals.names program = none) ∧
    (Program.unknown? s.scopes.globals.names program = none →
      (∃ printed, (s.execute log program).result = .ok printed) ∨
        ∃ fault, (s.execute log program).result = .error (.stopped (.arithmetic fault))) := by
  have hdecides := Decides.program (knows_names s.scopes.globals) program
  rw [hs.execute_result log program]
  generalize Program.meaning s.scopes.globals.toEnvironment program = meaning at hdecides ⊢
  generalize Program.unknown? s.scopes.globals.names program = unknown at hdecides ⊢
  cases hdecides with
  | ok result => exact ⟨nofun, fun _ _ => rfl, fun _ => .inl ⟨_, rfl⟩⟩
  | undefined x =>
    refine ⟨fun y h => ?_, nofun, nofun⟩
    cases h
    rfl
  | arithmetic unknown fault => exact ⟨nofun, nofun, fun _ => .inr ⟨fault, rfl⟩⟩

/-- The program `a = 1; { b = a; } c = c + b;`. -/
def forgottenName : Program :=
  [.assign "a" (.constant (.integer 1)), .block [.assign "b" (.name "a")],
    .assign "c" (.binary .add (.name "c") (.name "b"))]

/-- An assignment does not know its own name, and it is read before the name that the block has
    forgotten. -/
theorem execute_forgottenName :
    Session.new.Reachable ∧
    (Session.new.execute #[] forgottenName).result = .error (.stopped (.undefined "c")) ∧
    Program.unknown? [] forgottenName = some "c" := by
  have hresult : (Session.new.execute #[] forgottenName).result =
      .error (.stopped (.undefined "c")) := rfl
  exact ⟨.new, hresult, (execute_undefined_decided .new #[] forgottenName).1 "c" hresult⟩

end Abacus
