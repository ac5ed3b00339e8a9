import Abacus.Proofs.Session.Balance
import Abacus.Proofs.Session.Joining
import Abacus.Proofs.Session.Resolution

/-!
# What a run depends on, and what it changes

Of the values that a session holds a program reads some and changes some, and both can be told from
the program alone. It reads its free names: those that it may read before it has assigned them, in
the same block or in a block around it (`Program.free`). An assignment inside a block binds a name
up to the end of the block, so the name may still be free behind it. It changes the names that it
assigns outside of all blocks (`Program.assigned`).

* That nothing else is read is an argument about two runs: environments that agree on the names
  which are read from here on still agree behind a statement (`Statement.sameOn`). Behind an
  assignment they agree on one name more, whatever they held before.
* That nothing else is changed is an argument about one run, which may stop anywhere: then it leaves
  what the statements before the failing one have left (`Session.IsIdle.execute_stopped`).

Main statement: sessions that agree on the free names of a program give it the same result, and a
global name that it does not assign keeps its value (`execute_depends_on_free`).
-/

namespace Abacus

/-! ## 1. Free names and assigned names -/

/-- The names that an expression reads. -/
def Expr.free : Expr → List String
  | .constant _ => []
  | .name x => [x]
  | .paren e => e.free
  | .binary _ left right => left.free ++ right.free

mutual

/-- The names that a statement may read before it has assigned them. -/
def Statement.free : Statement → List String
  | .assign _ e => e.free
  | .print x => [x]
  | .block body => Program.free body

/-- The names that a program may read before it has assigned them. What a block assigns does not
    count behind the block. -/
def Program.free : Program → List String
  | [] => []
  | s :: rest => s.free ++ (Program.free rest).filter (· ∉ s.assigned)

end

/-- The names that a program assigns outside of all blocks. -/
def Program.assigned (program : Program) : List String := program.flatMap Statement.assigned

/-! ## 2. Environments that agree -/

/-- The names have the same values in both environments, or none in both. -/
def Environment.AgreeOn (names : List String) (env env' : Environment) : Prop :=
  ∀ x ∈ names, env.lookup x = env'.lookup x

/-- The meanings are the same error, or they print the same and leave environments that agree on the
    names. -/
inductive SameOn (names : List String) :
    Except RuntimeError (Environment × List Printed) →
      Except RuntimeError (Environment × List Printed) → Prop where
  | ok {env env' : Environment} (h : env.AgreeOn names env') (printed : List Printed) :
      SameOn names (.ok (env, printed)) (.ok (env', printed))
  | error (error : RuntimeError) : SameOn names (.error error) (.error error)

namespace Environment.AgreeOn

variable {names : List String} {env env' : Environment}

theorem nil (env env' : Environment) : env.AgreeOn [] env' := fun _ hx => absurd hx List.not_mem_nil

theorem mono {names' : List String} (h : env.AgreeOn names env') (hsub : names' ⊆ names) :
    env.AgreeOn names' env' := fun x hx => h x (hsub hx)

/-- The names that matter behind a statement matter before it, if it assigns none. -/
theorem of_assigned_nil {s : Statement}
    (h : env.AgreeOn (s.free ++ names.filter (· ∉ s.assigned)) env') (hs : s.assigned = []) :
    env.AgreeOn names env' := by
  rw [hs] at h
  exact h.mono fun x hx => List.mem_append_right _ (List.mem_filter.mpr ⟨hx, by simp⟩)

theorem read_eq {x : String} (h : env.AgreeOn [x] env') : env.read x = env'.read x := by
  rw [read, read, h x List.mem_cons_self]

/-- Behind an assignment the environments agree on the name, whatever it was before. -/
theorem insert {x : String} (h : env.AgreeOn (names.filter (· ∉ [x])) env') (v : Value) :
    AgreeOn names (env.insert x v) (env'.insert x v) := by
  intro y hy
  by_cases hyx : y = x
  · rw [hyx, Finmap.lookup_insert, Finmap.lookup_insert]
  · rw [Finmap.lookup_insert_of_ne _ hyx, Finmap.lookup_insert_of_ne _ hyx]
    exact h y (List.mem_filter.mpr ⟨hy, by simpa using hyx⟩)

/-- An expression means the same if the names that it reads do. -/
theorem meaning_eq (e : Expr) (h : env.AgreeOn e.free env') : e.meaning env = e.meaning env' := by
  induction e with
  | constant v => rfl
  | name x => exact h.read_eq
  | paren e ih => exact ih h
  | binary op left right ihl ihr =>
    rw [Expr.meaning, Expr.meaning, ihl (h.mono (List.subset_append_left _ _)),
      ihr (h.mono (List.subset_append_right _ _))]

end Environment.AgreeOn

/-! ## 3. Two runs -/

mutual

/-- **A statement means the same where the names agree that are read in it or behind it.** -/
theorem Statement.sameOn {names : List String} {env env' : Environment} :
    ∀ s : Statement, env.AgreeOn (s.free ++ names.filter (· ∉ s.assigned)) env' →
      SameOn names (s.meaning env) (s.meaning env')
  | .assign x e, h => by
      have he : e.meaning env = e.meaning env' :=
        (h.mono (List.subset_append_left _ _)).meaning_eq e
      rw [Statement.meaning, Statement.meaning, he]
      cases e.meaning env' with
      | error error => exact .error error
      | ok v => exact .ok ((h.mono (List.subset_append_right _ _)).insert v) []
  | .print x, h => by
      have hx : env.read x = env'.read x := (h.mono (List.subset_append_left _ _)).read_eq
      have hnames : env.AgreeOn names env' := h.of_assigned_nil rfl
      rw [Statement.meaning, Statement.meaning, hx]
      cases env'.read x with
      | error error => exact .error error
      | ok v => exact .ok hnames [v.toPrinted]
  | .block body, h => by
      have hbody := Program.sameOn body (h.mono (List.subset_append_left _ _))
      have hnames : env.AgreeOn names env' := h.of_assigned_nil rfl
      rw [Statement.meaning, Statement.meaning]
      generalize Program.meaning env body = meaning at hbody ⊢
      generalize Program.meaning env' body = meaning' at hbody ⊢
      cases hbody with
      | error error => exact .error error
      | ok _ printed => exact .ok hnames printed

/-- **A program means the same where its free names agree.** -/
theorem Program.sameOn {env env' : Environment} :
    ∀ program : Program, env.AgreeOn (Program.free program) env' →
      SameOn [] (Program.meaning env program) (Program.meaning env' program)
  | [], _ => by
      rw [Program.meaning, Program.meaning]
      exact .ok (.nil env env') []
  | s :: rest, h => by
      -- the names that matter behind the statement are the free ones of the rest
      have hs : SameOn (Program.free rest) (s.meaning env) (s.meaning env') :=
        Statement.sameOn s (by rwa [Program.free] at h)
      rw [Program.meaning, Program.meaning]
      generalize s.meaning env = meaning at hs ⊢
      generalize s.meaning env' = meaning' at hs ⊢
      cases hs with
      | error error => exact .error error
      | @ok next next' hnext printed =>
        have hrest := Program.sameOn rest hnext
        simp only [bind, Except.bind]
        generalize Program.meaning next rest = meaning at hrest ⊢
        generalize Program.meaning next' rest = meaning' at hrest ⊢
        cases hrest with
        | error error => exact .error error
        | ok _ further => exact .ok (.nil _ _) (printed ++ further)

end

theorem Session.Reachable.execute_result_eq {s s' : Session} (hs : s.Reachable)
    (hs' : s'.Reachable) {program : Program}
    (h : ∀ x ∈ Program.free program, s.scopes.globals.get? x = s'.scopes.globals.get? x)
    (log log' : Array Event) :
    (s.execute log program).result = (s'.execute log' program).result := by
  have hagree : s.scopes.globals.toEnvironment.AgreeOn (Program.free program)
      s'.scopes.globals.toEnvironment := by
    intro x hx
    rw [Frame.lookup_toEnvironment, Frame.lookup_toEnvironment, h x hx]
  have hsame := Program.sameOn program hagree
  rw [hs.execute_result, hs'.execute_result]
  generalize Program.meaning s.scopes.globals.toEnvironment program = meaning at hsame ⊢
  generalize Program.meaning s'.scopes.globals.toEnvironment program = meaning' at hsame ⊢
  cases hsame with
  | error error => rfl
  | ok _ printed => rfl

/-! ## 4. Names that keep their value -/

namespace Machine

/-- A name that a statement does not assign keeps its value, also where a block has shadowed it. -/
theorem get?_of_done {m m' : Machine} {s : Statement} (h : exec m s = .done m') {x : String}
    (hx : x ∉ s.assigned) : m'.scopes.get? x = m.scopes.get? x := by
  cases s with
  | assign y e =>
    have hy : y ≠ x := fun hyx => hx (List.mem_singleton.mpr hyx.symm)
    rw [exec_assign] at h
    split at h
    · cases h
      exact Scopes.get?_insert_of_ne _ _ hy
    · cases h
  | print y =>
    rw [exec] at h
    split at h
    · cases h
      rfl
    · cases h
  | block body => rw [scopes_of_block_done h]

theorem get?_of_execAll_done {m m' : Machine} {program : Program}
    (h : execAll m program = .done m') {x : String} (hx : x ∉ Program.assigned program) :
    m'.scopes.get? x = m.scopes.get? x := by
  induction program generalizing m with
  | nil =>
    rw [execAll] at h
    cases h
    rfl
  | cons s rest ih =>
    rw [Program.assigned, List.flatMap_cons, List.mem_append, not_or] at hx
    rw [execAll] at h
    split at h
    · rename_i next hn
      rw [ih h hx.2, get?_of_done hn hx.1]
    · cases h

end Machine

namespace Session

theorem IsIdle.get?_globals {s : Session} (h : s.IsIdle) (x : String) :
    s.scopes.globals.get? x = s.scopes.get? x := by
  rw [Scopes.get?, Scopes.frames, h.inner]
  simp

/-- A run that gives its output leaves all names but the assigned ones as they were. -/
theorem IsIdle.execute_keeps_of_ok {s : Session} (hs : s.IsIdle) {log : Array Event}
    {program : Program} {printed : List Printed} (h : (s.execute log program).result = .ok printed)
    {x : String} (hx : x ∉ Program.assigned program) :
    (s.execute log program).session.scopes.globals.get? x = s.scopes.globals.get? x := by
  obtain ⟨m, -, hm⟩ := exists_of_execute_ok h
  rw [(hs.execute log program).get?_globals, hs.get?_globals, execute_of_done hm]
  exact Machine.get?_of_execAll_done hm hx

/-- **A run leaves all names but the assigned ones as they were**, however it ends. -/
theorem IsIdle.execute_keeps {s : Session} (hs : s.IsIdle) (log : Array Event) {program : Program}
    {x : String} (hx : x ∉ Program.assigned program) :
    (s.execute log program).session.scopes.globals.get? x = s.scopes.globals.get? x := by
  cases hr : (s.execute log program).result with
  | ok printed => exact hs.execute_keeps_of_ok hr hx
  | error error =>
    obtain ⟨before, statement, after, printed, rfl, hprinted, hsession, -⟩ := hs.execute_stopped hr
    have hbefore : x ∉ Program.assigned before := by
      rw [Program.assigned, List.flatMap_append, List.mem_append, not_or] at hx
      exact hx.1
    rw [hsession]
    exact hs.execute_keeps_of_ok hprinted hbefore

end Session

/-! ## 5. Both together -/

/-- **A run depends on the free names of its program alone, and changes no name but those that it
    assigns.** Two sessions that give the free names of a program the same values, or none, give it
    the same output or the same error. Whether a run gives its output or stops, a global name that
    the program assigns in no statement outside of all blocks has the value that it had, or none if
    it had none. -/
theorem execute_depends_on_free (program : Program) :
    (∀ s s' : Session, s.Reachable → s'.Reachable →
      (∀ x ∈ Program.free program, s.scopes.globals.get? x = s'.scopes.globals.get? x) →
      ∀ log log' : Array Event,
        (s.execute log program).result = (s'.execute log' program).result) ∧
    ∀ s : Session, s.Reachable → ∀ (log : Array Event) (x : String),
      x ∉ Program.assigned program →
      (s.execute log program).session.scopes.globals.get? x = s.scopes.globals.get? x :=
  ⟨fun _ _ hs hs' h log log' => hs.execute_result_eq hs' h log log',
    fun _ hs log _ hx => hs.isIdle.execute_keeps log hx⟩

/-- The program `{ x = z; print(x); } x = 2; { y = x; print(y); }`. -/
def boundNames : Program :=
  [.block [.assign "x" (.name "z"), .print "x"], .assign "x" (.constant (.integer 2)),
    .block [.assign "y" (.name "x"), .print "y"]]

/-- The session behind the assignments of integers to names. -/
def assigning (values : List (String × Int)) : Session :=
  (Session.new.execute #[] (values.map fun (x, n) => .assign x (.constant (.integer n)))).session

/-- Of three names that the program reads one is free. Sessions that differ in the others print the
    same, and a name that is assigned in a block keeps its value. -/
theorem execute_boundNames :
    Program.free boundNames = ["z"] ∧
    (assigning [("x", 7), ("y", 5), ("z", 3)]).Reachable ∧ (assigning [("z", 3)]).Reachable ∧
    ((assigning [("x", 7), ("y", 5), ("z", 3)]).execute #[] boundNames).result =
      ((assigning [("z", 3)]).execute #[] boundNames).result ∧
    ((assigning [("x", 7), ("y", 5), ("z", 3)]).execute #[] boundNames).session.scopes.globals.get?
      "y" = some (.integer 5) := by
  have hfree : Program.free boundNames = ["z"] := by decide +kernel
  have hreach (values : List (String × Int)) : (assigning values).Reachable := .execute .new #[] _
  obtain ⟨hsame, hkeeps⟩ := execute_depends_on_free boundNames
  refine ⟨hfree, hreach _, hreach _, hsame _ _ (hreach _) (hreach _) ?_ #[] #[], ?_⟩
  · intro x hx
    rw [hfree, List.mem_singleton] at hx
    rw [hx]
    rfl
  · have hy : "y" ∉ Program.assigned boundNames := by decide +kernel
    rw [hkeeps _ (hreach _) #[] "y" hy]
    rfl

end Abacus
