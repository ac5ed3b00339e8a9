import Abacus.Session

/-!
# What a run does to the scopes

A block opens a scope and closes it at its end, and the statements in between may stop the run
before that end. What holds on every path:

* a statement that is done has changed the innermost scope at most: the scopes around it
  (`Scopes.outside`) are the same ones. A block that is done has changed nothing;
* a statement that stops the run has changed none of the scopes: they are still there, below those
  that unfinished blocks have opened (`exec_stopped`). A list of statements may have changed the
  innermost scope before it stopped, so less is known of it (`execAll_stopped`).

Main statements: between two runs the global scope is the only one (`Reachable.isIdle`), and a run
that stops does so at a first statement, behind others that are done (`execAll_stopped_split`).
-/

namespace Abacus

/-! ## 1. The scopes around the innermost one -/

namespace Scopes

variable {α : Type}

/-- The scopes around the innermost one. -/
def outside (s : Scopes α) : List (Frame α) := s.frames.tail

theorem length_outside (s : Scopes α) : s.outside.length = s.inner.length := by
  simp [outside, frames]

theorem outside_suffix (s : Scopes α) : s.outside <:+ s.frames := List.tail_suffix _

@[simp] theorem outside_insert (s : Scopes α) (x : String) (v : α) :
    (s.insert x v).outside = s.outside := by
  unfold insert outside frames
  split
  · rename_i h
    rw [h]
    rfl
  · rename_i frame inner h
    rw [h]
    rfl

/-- The scopes are determined by their list. -/
theorem eq_of_frames {s t : Scopes α} (h : s.frames = t.frames) : s = t := by
  obtain ⟨inner, globals⟩ := s
  obtain ⟨inner', globals'⟩ := t
  obtain ⟨h1, h2⟩ := List.append_inj' h rfl
  cases h1
  cases h2
  rfl

/-- Closing a scope gives back the scopes around it. -/
theorem pop?_of_outside {s t : Scopes α} (h : s.outside = t.frames) : s.pop? = some t := by
  obtain ⟨inner, globals⟩ := s
  cases inner with
  | nil =>
    obtain ⟨inner', globals'⟩ := t
    have hlen := congrArg List.length h
    simp [outside, frames] at hlen
  | cons frame inner =>
    have ht : (⟨inner, globals⟩ : Scopes α) = t := eq_of_frames h
    rw [← ht]
    rfl

/-- Scopes on top of others have the same global scope. -/
theorem unwind_of_suffix {s t : Scopes α} (h : s.frames <:+ t.frames) : t.unwind = s.unwind := by
  obtain ⟨above, ha⟩ := h
  have hlast := congrArg List.getLast? ha
  simp only [frames, ← List.append_assoc, List.getLast?_concat, Option.some.injEq] at hlast
  rw [unwind, unwind, hlast]

end Scopes

/-! ## 2. Statements -/

namespace Machine

/-- Leaving a block whose surroundings are known. -/
theorem leave_of_outside {m : Machine} {scopes : Scopes Value}
    (h : m.scopes.outside = scopes.frames) :
    m.leave = .done ⟨⟨scopes, m.output⟩, m.log.push (.closed scopes.depth)⟩ := by
  rw [leave, Scopes.pop?_of_outside h]

mutual

/-- **A statement that is done keeps the scopes around the innermost one.** -/
theorem exec_done {m m' : Machine} :
    ∀ s : Statement, exec m s = .done m' → m'.scopes.outside = m.scopes.outside
  | .assign x e, h => by
      rw [exec_assign] at h
      split at h
      · cases h
        exact Scopes.outside_insert _ _ _
      · cases h
  | .print x, h => by
      rw [exec] at h
      split at h
      · cases h
        rfl
      · cases h
  | .block body, h => by
      rw [exec] at h
      split at h
      · rename_i inside hi
        have ho : inside.scopes.outside = m.scopes.frames := execAll_done body hi
        rw [leave_of_outside ho] at h
        cases h
        rfl
      · cases h

theorem execAll_done {m m' : Machine} :
    ∀ program : Program, execAll m program = .done m' → m'.scopes.outside = m.scopes.outside
  | [], h => by
      rw [execAll] at h
      cases h
      rfl
  | s :: rest, h => by
      rw [execAll] at h
      split at h
      · rename_i next hn
        rw [execAll_done rest h, exec_done s hn]
      · cases h

end

mutual

/-- **A statement that stops the run leaves the scopes below those that it opened.** -/
theorem exec_stopped {m m' : Machine} {error : RuntimeError} :
    ∀ s : Statement, exec m s = .stopped error m' → m.scopes.frames <:+ m'.scopes.frames
  | .assign x e, h => by
      rw [exec_assign] at h
      split at h
      · cases h
      · cases h
        exact List.suffix_refl _
  | .print x, h => by
      rw [exec] at h
      split at h
      · cases h
      · cases h
        exact List.suffix_refl _
  | .block body, h => by
      rw [exec] at h
      split at h
      · rename_i inside hi
        have ho : inside.scopes.outside = m.scopes.frames := execAll_done body hi
        rw [leave_of_outside ho] at h
        cases h
      · rename_i error' inside hi
        cases h
        exact execAll_stopped body hi

theorem execAll_stopped {m m' : Machine} {error : RuntimeError} :
    ∀ program : Program, execAll m program = .stopped error m' →
      m.scopes.outside <:+ m'.scopes.frames
  | [], h => by
      rw [execAll] at h
      cases h
  | s :: rest, h => by
      rw [execAll] at h
      split at h
      · rename_i next hn
        rw [← exec_done s hn]
        exact execAll_stopped rest h
      · rename_i error' next hn
        cases h
        exact (Scopes.outside_suffix _).trans (exec_stopped s hn)

end

/-! ## 3. The statement at which a run stops -/

theorem execAll_append (m : Machine) (program rest : Program) :
    execAll m (program ++ rest) =
      match execAll m program with
      | .done next => execAll next rest
      | .stopped error next => .stopped error next := by
  induction program generalizing m with
  | nil => simp [execAll]
  | cons s program ih =>
    rw [List.cons_append, execAll, execAll]
    split
    · exact ih _
    · rfl

/-- **A run stops at a first statement**, behind others that are done. -/
theorem execAll_stopped_split {m m' : Machine} {error : RuntimeError} {program : Program}
    (h : execAll m program = .stopped error m') :
    ∃ before s after next, program = before ++ s :: after ∧ execAll m before = .done next ∧
      exec next s = .stopped error m' := by
  induction program generalizing m with
  | nil =>
    rw [execAll] at h
    cases h
  | cons s program ih =>
    rw [execAll] at h
    split at h
    · rename_i next hn
      obtain ⟨before, t, after, last, rfl, hb, ht⟩ := ih h
      refine ⟨s :: before, t, after, last, rfl, ?_, ht⟩
      rw [execAll, hn]
      exact hb
    · rename_i error' next hn
      cases h
      exact ⟨[], s, program, m, rfl, by rw [execAll], hn⟩

end Machine

/-! ## 4. What a run does not depend on -/

/-- The machines have the same scopes, and the first one has printed some values earlier. Nothing is
    said of their logs. -/
structure Machine.SameBehind (earlier : List Printed) (m m' : Machine) : Prop where
  scopes : m.scopes = m'.scopes
  output : m.output.toList = earlier ++ m'.output.toList

/-- The runs end in the same way, but for the log and the values printed earlier. -/
inductive Outcome.SameBehind (earlier : List Printed) : Outcome → Outcome → Prop where
  | done {m m' : Machine} (h : m.SameBehind earlier m') : SameBehind earlier (.done m) (.done m')
  | stopped {m m' : Machine} (error : RuntimeError) (h : m.SameBehind earlier m') :
      SameBehind earlier (.stopped error m) (.stopped error m')

namespace Machine

variable {earlier : List Printed}

/-- A machine and the one that starts where it is, with nothing printed. -/
theorem sameBehind_restart (m : Machine) (log : Array Event) :
    m.SameBehind m.output.toList ⟨⟨m.scopes, #[]⟩, log⟩ := ⟨rfl, (List.append_nil _).symm⟩

theorem SameBehind.leave {m m' : Machine} (h : m.SameBehind earlier m') :
    m.leave.SameBehind earlier m'.leave := by
  rw [Machine.leave, Machine.leave, h.scopes]
  cases m'.scopes.pop? with
  | none => exact .stopped _ h
  | some scopes => exact .done ⟨rfl, h.output⟩

mutual

/-- A statement does the same whatever was logged and printed before. -/
theorem SameBehind.exec {m m' : Machine} (h : m.SameBehind earlier m') :
    ∀ s : Statement, (exec m s).SameBehind earlier (exec m' s)
  | .assign x e => by
      rw [exec_assign, exec_assign, h.scopes]
      cases e.eval m'.scopes with
      | error error => exact .stopped error ⟨h.scopes, h.output⟩
      | ok v => exact .done ⟨congrArg (·.insert x v) h.scopes, h.output⟩
  | .print x => by
      rw [Machine.exec, Machine.exec, h.scopes]
      cases m'.scopes.lookup x with
      | error error => exact .stopped error h
      | ok v =>
        refine .done ⟨h.scopes, ?_⟩
        simp [print, h.output]
  | .block body => by
      have henter : m.enter.SameBehind earlier m'.enter :=
        ⟨congrArg Scopes.push h.scopes, h.output⟩
      have hbody := henter.execAll body
      rw [Machine.exec, Machine.exec]
      generalize Machine.execAll m.enter body = outcome at hbody ⊢
      generalize Machine.execAll m'.enter body = outcome' at hbody ⊢
      cases hbody with
      | done hinside => exact hinside.leave
      | stopped error hinside => exact .stopped error hinside

/-- A program does the same whatever was logged and printed before. -/
theorem SameBehind.execAll {m m' : Machine} (h : m.SameBehind earlier m') :
    ∀ program : Program, (execAll m program).SameBehind earlier (execAll m' program)
  | [] => by
      rw [Machine.execAll, Machine.execAll]
      exact .done h
  | s :: rest => by
      have hs := h.exec s
      rw [Machine.execAll, Machine.execAll]
      generalize Machine.exec m s = outcome at hs ⊢
      generalize Machine.exec m' s = outcome' at hs ⊢
      cases hs with
      | done hnext => exact hnext.execAll rest
      | stopped error hnext => exact .stopped error hnext

end

end Machine

/-- **The log changes nothing**: not what a run leaves behind, and not its result. -/
theorem Session.execute_log (s : Session) (log log' : Array Event) (program : Program) :
    (s.execute log program).session = (s.execute log' program).session ∧
      (s.execute log program).result = (s.execute log' program).result := by
  have hstart : Machine.SameBehind [] ⟨⟨s.scopes, #[]⟩, log⟩ ⟨⟨s.scopes, #[]⟩, log'⟩ := ⟨rfl, rfl⟩
  have h := hstart.execAll program
  rw [execute, execute]
  generalize Machine.execAll ⟨⟨s.scopes, #[]⟩, log⟩ program = outcome at h ⊢
  generalize Machine.execAll ⟨⟨s.scopes, #[]⟩, log'⟩ program = outcome' at h ⊢
  cases h with
  | done hm => exact ⟨by simp only [hm.scopes], congrArg Except.ok hm.output⟩
  | stopped error hm => exact ⟨by simp only [hm.scopes], rfl⟩

/-! ## 5. Sessions between two runs -/

namespace Session

/-- Nothing is open but the global scope, and no printed value waits. -/
structure IsIdle (s : Session) : Prop where
  inner : s.scopes.inner = []
  output : s.output = #[]

/-- The sessions that runs of programs lead to. -/
inductive Reachable : Session → Prop where
  | new : Reachable Session.new
  | execute {s : Session} (h : Reachable s) (log : Array Event) (program : Program) :
      Reachable (s.execute log program).session

theorem IsIdle.unwind {s : Session} (h : s.IsIdle) : s.scopes.unwind = s.scopes := by
  rw [Scopes.unwind, ← h.inner]

/-- A run of an idle session ends in an idle session. -/
theorem IsIdle.execute {s : Session} (h : s.IsIdle) (log : Array Event) (program : Program) :
    (s.execute log program).session.IsIdle := by
  unfold Session.execute
  split
  · rename_i m hm
    have hlen := congrArg List.length (Machine.execAll_done program hm)
    rw [Scopes.length_outside, Scopes.length_outside, h.inner] at hlen
    exact ⟨List.length_eq_zero_iff.mp hlen, rfl⟩
  · exact ⟨rfl, rfl⟩

/-- **Between two runs the global scope is the only one.** -/
theorem Reachable.isIdle {s : Session} (h : s.Reachable) : s.IsIdle := by
  induction h with
  | new => exact ⟨rfl, rfl⟩
  | execute _ log program ih => exact ih.execute log program

end Session

end Abacus
