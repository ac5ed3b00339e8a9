import Abacus.Proofs.Session.Scoping

/-!
# Scopes that are opened are closed

The global scope must never be closed, and closing a scope asks for one to be open inside it
(`Machine.leave`). Between the two ends of a block stand statements of any kind, further blocks
among them, and each of them may stop the run before the end is reached. What makes the end of a
block safe is what its statements keep: the scopes around the innermost one
(`Machine.execAll_done`). So the scope that the block has opened is still there, and closing it
gives back the scopes from before the block (`Machine.exec_block`).

Main statement: a statement opens and closes scopes in pairs or stops with more of them open, and
no sequence of runs closes the global scope (`scopes_balanced`).
-/

namespace Abacus

/-! ## 1. The end of a block -/

/-- No expression closes a scope. -/
theorem Expr.eval_ne_globalClosed (scopes : Scopes Value) (e : Expr) :
    e.eval scopes ≠ .error .globalClosed := by
  induction e with
  | constant v => simp
  | name x =>
    rw [Expr.eval_name, Scopes.lookup]
    split
    · simp
    · simp
  | paren e ih => exact ih
  | binary op left right ihl ihr =>
    intro h
    rw [Expr.eval_binary] at h
    split at h
    · rename_i error hl
      cases h
      exact ihl hl
    · split at h
      · rename_i error hr
        cases h
        exact ihr hr
      · split at h
        · cases h
        · cases h

namespace Machine

/-- **The end of a block gives back the scopes from before it**, whatever the block has printed. -/
theorem exec_block (m : Machine) (body : List Statement) :
    exec m (.block body) =
      match execAll m.enter body with
      | .done inside =>
        .done ⟨⟨m.scopes, inside.output⟩, inside.log.push (.closed m.scopes.depth)⟩
      | .stopped error inside => .stopped error inside := by
  rw [exec]
  cases hi : execAll m.enter body with
  | done inside => exact leave_of_outside (execAll_done body hi)
  | stopped error inside => rfl

mutual

/-- **A statement never closes the global scope.** -/
theorem exec_ne_globalClosed {m m' : Machine} :
    ∀ s : Statement, exec m s ≠ .stopped .globalClosed m'
  | .assign x e => by
      intro h
      rw [exec_assign] at h
      split at h
      · cases h
      · rename_i error he
        cases h
        exact e.eval_ne_globalClosed _ he
  | .print x => by
      intro h
      rw [exec] at h
      split at h
      · cases h
      · rename_i error hx
        cases h
        exact (Expr.name x).eval_ne_globalClosed _ hx
  | .block body => by
      intro h
      rw [exec_block] at h
      split at h
      · cases h
      · rename_i error inside hi
        cases h
        exact execAll_ne_globalClosed body hi

theorem execAll_ne_globalClosed {m m' : Machine} :
    ∀ program : Program, execAll m program ≠ .stopped .globalClosed m'
  | [] => by
      intro h
      rw [execAll] at h
      cases h
  | s :: rest => by
      intro h
      rw [execAll] at h
      split at h
      · exact execAll_ne_globalClosed rest h
      · rename_i error next hn
        cases h
        exact exec_ne_globalClosed s hn

end

/-! ## 2. What a statement leaves behind -/

theorem depth_of_done {m m' : Machine} {s : Statement} (h : exec m s = .done m') :
    m'.scopes.depth = m.scopes.depth := by
  have hlen := congrArg List.length (exec_done s h)
  rw [Scopes.length_outside, Scopes.length_outside] at hlen
  rw [Scopes.depth, Scopes.depth, hlen]

/-- What was printed stays, and what a statement prints comes behind it. -/
theorem output_of_done {m m' : Machine} {s : Statement} (h : exec m s = .done m') :
    m.output.toList <+: m'.output.toList := by
  have hrun := (m.sameBehind_restart #[]).exec s
  rw [h] at hrun
  generalize exec ⟨⟨m.scopes, #[]⟩, #[]⟩ s = outcome at hrun
  cases hrun with
  | done hm => exact ⟨_, hm.output.symm⟩

theorem scopes_of_block_done {m m' : Machine} {body : List Statement}
    (h : exec m (.block body) = .done m') : m'.scopes = m.scopes := by
  rw [exec_block] at h
  split at h
  · cases h
    rfl
  · cases h

end Machine

/-! ## 3. Runs -/

namespace Session

/-- A run never closes the global scope. -/
theorem execute_ne_globalClosed (s : Session) (log : Array Event) (program : Program) :
    (s.execute log program).result ≠ .error (.stopped .globalClosed) := by
  unfold execute
  split
  · simp
  · rename_i error m hm
    intro h
    cases h
    exact Machine.execAll_ne_globalClosed program hm

theorem IsIdle.depth {s : Session} (h : s.IsIdle) : s.scopes.depth = 1 := by
  rw [Scopes.depth, h.inner]
  rfl

end Session

/-- **Scopes are closed as they were opened.** A statement that is done leaves as many scopes as
    there were and changes the innermost one at most, a block not even that, and only adds to what
    was printed. A statement that stops the run leaves the scopes unchanged below those that it
    opened. So no sequence of runs, failed ones among them, ever closes the global scope, and each
    run ends with the global scope alone and nothing left to print. -/
theorem scopes_balanced :
    (∀ (m : Machine) (statement : Statement),
      match m.exec statement with
      | .done m' =>
        m'.scopes.depth = m.scopes.depth ∧ m'.scopes.outside = m.scopes.outside ∧
          m.output.toList <+: m'.output.toList ∧
          ∀ body, statement = .block body → m'.scopes = m.scopes
      | .stopped error m' => error ≠ .globalClosed ∧ m.scopes.frames <:+ m'.scopes.frames) ∧
    ∀ s : Session, s.Reachable → ∀ (log : Array Event) (program : Program),
      (s.execute log program).result ≠ .error (.stopped .globalClosed) ∧
        (s.execute log program).session.scopes.depth = 1 ∧
        (s.execute log program).session.output = #[] := by
  refine ⟨fun m statement => ?_, fun s hs log program => ?_⟩
  · split
    · rename_i m' hm
      refine ⟨Machine.depth_of_done hm, Machine.exec_done statement hm,
        Machine.output_of_done hm, ?_⟩
      rintro body rfl
      exact Machine.scopes_of_block_done hm
    · rename_i error m' hm
      refine ⟨?_, Machine.exec_stopped statement hm⟩
      rintro rfl
      exact Machine.exec_ne_globalClosed statement hm
  · have hidle := hs.isIdle.execute log program
    exact ⟨s.execute_ne_globalClosed log program, hidle.depth, hidle.output⟩

/-- The statement `{ x = 1; { print(x); y = nope; } }`. -/
def unfinishedBlocks : Statement :=
  .block [.assign "x" (.constant (.integer 1)),
    .block [.print "x", .assign "y" (.name "nope")]]

/-- A run that stops two blocks deep has both of their scopes open, and ends with neither. -/
theorem exec_unfinishedBlocks :
    (∃ m', Machine.exec ⟨Session.new, #[]⟩ unfinishedBlocks = .stopped (.undefined "nope") m' ∧
      m'.scopes.depth = 3 ∧ Session.new.scopes.frames <:+ m'.scopes.frames) ∧
    Session.new.Reachable ∧
    (Session.new.execute #[] [unfinishedBlocks]).session.scopes.depth = 1 := by
  obtain ⟨hstatement, hruns⟩ := scopes_balanced
  refine ⟨⟨_, rfl, rfl, (hstatement ⟨Session.new, #[]⟩ unfinishedBlocks).2⟩, .new, ?_⟩
  exact (hruns Session.new .new #[] [unfinishedBlocks]).2.1

end Abacus
