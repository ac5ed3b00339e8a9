import Abacus.Proofs.Decimal.Text
import Abacus.Proofs.Session.Balance
import Mathlib.Data.List.DropRight

/-!
# The log tells what happened

Whoever sees the log of a run sees lines of text, and this file says what can be read off them
(`debugLines`):

* the lines about scopes count the open ones: a counter goes along with them, and each line has to
  show the counter that it leads to (`followScopes`);
* the lines about printing show the printed texts behind an arrow (`shownText?`);
* a line about a failure starts with the operator in quotes (`IsFailure`).

The lines follow a run if the counter has arrived at the number of open scopes, the texts are those
that were printed, and no line is about a failure (`Follows`). Whatever a statement does keeps this
(`Machine.IsFollowed.exec`). An operation that fails is noted once, where it is evaluated, and the
operations around it add nothing (`Expr.evaluate_eq`). Then the run stops with blocks still open,
and none of them is closed in the log. So the lines of a run that was stopped are lines that follow
it and at most this one behind them (`Outcome.IsFollowed`).

Main statement: the lines of a run follow it up to its end or to the operation that failed, and show
which of the two it was (`debugLines_run`).
-/

namespace Abacus

/-! ## 1. Lines -/

/-- The lines of a log that is shown down to the level for debugging. -/
def debugLines (log : Array Event) : List String :=
  ((Threshold.upTo .debug).select log).map Event.message

/-- What stands in front of the first blank of a line. -/
def firstWord (line : String) : String := String.ofList (line.toList.takeWhile (· ≠ ' '))

/-- The number of open scopes behind a line. A line about a scope has to show this number, and the
    last scope is not closed. -/
def followScopes (depth : Nat) (line : String) : Option Nat :=
  if firstWord line = "push" then
    if line = "push scope, depth=" ++ toString (depth + 1) then some (depth + 1) else none
  else if firstWord line = "pop" then
    if 1 < depth ∧ line = "pop scope, depth=" ++ toString (depth - 1) then some (depth - 1)
    else none
  else some depth

/-- The text behind the arrow of a line about printing, and behind the blank that follows it. -/
def shownText? (line : String) : Option String :=
  if firstWord line = "print" then
    some (String.ofList ((line.toList.rtakeWhile (· ≠ '>')).drop 1))
  else none

/-- The line says that an operation has failed. -/
def IsFailure (line : String) : Prop :=
  ∃ symbol cause : String, line = "`" ++ symbol ++ "` failed: " ++ cause

/-- The lines follow a run from one open scope: they count up to the open scopes, show what was
    printed and no failure. -/
structure Follows (lines : List String) (depth : Nat) (printed : List Printed) : Prop where
  scopes : lines.foldlM followScopes 1 = some depth
  shown : lines.filterMap shownText? = printed.map Printed.text
  failure : ∀ line ∈ lines, ¬IsFailure line

theorem Follows.append {lines : List String} {line : String} {depth depth' : Nat}
    {printed behind : List Printed} (h : Follows lines depth printed)
    (hscopes : followScopes depth line = some depth')
    (hshown : (shownText? line).toList = behind.map Printed.text) (hf : ¬IsFailure line) :
    Follows (lines ++ [line]) depth' (printed ++ behind) := by
  refine ⟨?_, ?_, ?_⟩
  · rw [List.foldlM_append, h.scopes]
    simp [hscopes]
  · rw [List.filterMap_append, h.shown, List.map_append, ← hshown]
    cases hline : shownText? line with
    | none => simp [hline]
    | some text => simp [hline]
  · intro other hother
    rcases List.mem_append.mp hother with hother | hother
    · exact h.failure other hother
    · rw [List.mem_singleton.mp hother]
      exact hf

/-! ## 2. The lines of events -/

/-- A line about a failure starts with a quote. -/
theorem not_isFailure_of_firstWord {line word : String} (hword : firstWord line = word)
    (hquote : word.toList.head? ≠ some '`') : ¬IsFailure line := by
  intro hfailure
  obtain ⟨symbol, cause, rfl⟩ := hfailure
  rw [← hword] at hquote
  exact hquote (by simp [firstWord])

theorem IsFailure.followScopes {line : String} (h : IsFailure line) (depth : Nat) :
    followScopes depth line = some depth := by
  have hother (word : String) (hquote : word.toList.head? ≠ some '`') : firstWord line ≠ word :=
    fun hword => not_isFailure_of_firstWord hword hquote h
  rw [Abacus.followScopes, if_neg (hother "push" (by decide)), if_neg (hother "pop" (by decide))]

/-- A line that is neither about printing nor about a failure. -/
theorem Follows.append_silent {lines : List String} {line word : String} {depth depth' : Nat}
    {printed : List Printed} (h : Follows lines depth printed)
    (hscopes : followScopes depth line = some depth') (hword : firstWord line = word)
    (hsilent : word ≠ "print" ∧ word.toList.head? ≠ some '`') :
    Follows (lines ++ [line]) depth' printed := by
  have hshown : (shownText? line).toList = [].map Printed.text := by
    rw [shownText?, hword, if_neg hsilent.1]
    rfl
  have hnext := h.append hscopes hshown (not_isFailure_of_firstWord hword hsilent.2)
  rw [List.append_nil] at hnext
  exact hnext

/-- A line that is not about scopes either. -/
theorem Follows.append_other {lines : List String} {line word : String} {depth : Nat}
    {printed : List Printed} (h : Follows lines depth printed) (hword : firstWord line = word)
    (hscopes : word ≠ "push" ∧ word ≠ "pop")
    (hsilent : word ≠ "print" ∧ word.toList.head? ≠ some '`') :
    Follows (lines ++ [line]) depth printed := by
  refine h.append_silent ?_ hword hsilent
  rw [followScopes, hword, if_neg hscopes.1, if_neg hscopes.2]

namespace Event

theorem firstWord_parsed (statements tokens : Nat) :
    firstWord (parsed statements tokens).message = "parsed" := by
  have hmessage : (parsed statements tokens).message =
      "parsed " ++ toString statements ++ " statements from " ++ toString tokens ++ " tokens" := rfl
  rw [hmessage, firstWord]
  simp

theorem firstWord_finished (n : Nat) : firstWord (finished n).message = "printed" := by
  have hmessage : (finished n).message = "printed " ++ toString n ++ " values" := rfl
  rw [hmessage, firstWord]
  simp

theorem firstWord_assigned (x : String) (v : Value) :
    firstWord (assigned x v).message = "assign" := by
  have hmessage : (assigned x v).message = "assign " ++ x ++ " = " ++ v.describe := rfl
  rw [hmessage, firstWord]
  simp

theorem message_shown (x : String) (p : Printed) :
    (shown x p).message = "print " ++ x ++ " -> " ++ p.text := rfl

theorem message_opened (depth : Nat) :
    (opened depth).message = "push scope, depth=" ++ toString depth := rfl

theorem message_closed (depth : Nat) :
    (closed depth).message = "pop scope, depth=" ++ toString depth := rfl

theorem firstWord_shown (x : String) (p : Printed) : firstWord (shown x p).message = "print" := by
  rw [message_shown, firstWord]
  simp

theorem firstWord_opened (depth : Nat) : firstWord (opened depth).message = "push" := by
  rw [message_opened, firstWord]
  simp

theorem firstWord_closed (depth : Nat) : firstWord (closed depth).message = "pop" := by
  rw [message_closed, firstWord]
  simp

theorem isFailure_failed (fault : Fault) : IsFailure (failed fault).message :=
  ⟨fault.operator.symbol, (RuntimeError.arithmetic fault).message, rfl⟩

end Event

/-! ## 3. Lines about scopes and printing -/

/-- The text of a printed value has no arrow. -/
theorem Printed.arrow_notMem_text (p : Printed) : '>' ∉ p.text.toList := by
  intro hmem
  cases p with
  | integer n =>
    rw [text, Int.repr_eq_if] at hmem
    have hdigits (n : Nat) : '>' ∉ n.repr.toList := by
      rw [Nat.toList_repr]
      exact (Numeral.isDigits_toDigits n).notMem (by decide)
    split at hmem
    · exact hdigits _ hmem
    · rw [String.toList_append, List.mem_append] at hmem
      exact hmem.elim (by decide) (hdigits _)
  | float x =>
    rcases Layout.mem_number hmem with hdigit | hmark
    · exact absurd hdigit (by decide)
    · exact absurd hmark (by decide)

/-- A line about printing shows the printed text. -/
theorem shownText?_shown (x : String) (p : Printed) :
    shownText? (Event.shown x p).message = some p.text := by
  have hline : (Event.shown x p).message.toList =
      ("print " ++ x ++ " -").toList ++ '>' :: ' ' :: p.text.toList := by
    rw [Event.message_shown]
    simp
  have harrow : ∀ c ∈ (' ' :: p.text.toList).reverse, decide (c ≠ '>') = true := by
    intro c hc
    rw [decide_eq_true_eq]
    intro harrow
    rw [harrow, List.mem_reverse, List.mem_cons] at hc
    exact hc.elim (by decide) p.arrow_notMem_text
  rw [shownText?, if_pos (Event.firstWord_shown x p), hline, List.rtakeWhile, List.reverse_append,
    List.reverse_cons, List.append_assoc, List.takeWhile_append_of_pos harrow]
  simp

namespace Follows

variable {lines : List String} {depth : Nat} {printed : List Printed}

theorem append_shown (h : Follows lines depth printed) (x : String) (p : Printed) :
    Follows (lines ++ [(Event.shown x p).message]) depth (printed ++ [p]) := by
  have hword := Event.firstWord_shown x p
  refine h.append ?_ ?_ (not_isFailure_of_firstWord hword (by decide))
  · rw [followScopes, hword]
    rfl
  · rw [shownText?_shown]
    rfl

theorem append_opened (h : Follows lines depth printed) :
    Follows (lines ++ [(Event.opened (depth + 1)).message]) (depth + 1) printed := by
  have hword := Event.firstWord_opened (depth + 1)
  refine h.append_silent ?_ hword (by decide)
  rw [followScopes, if_pos hword]
  exact if_pos rfl

theorem append_closed (h : Follows lines (depth + 1) printed) (hd : 1 ≤ depth) :
    Follows (lines ++ [(Event.closed depth).message]) depth printed := by
  have hword := Event.firstWord_closed depth
  refine h.append_silent ?_ hword (by decide)
  rw [followScopes, hword, if_neg (by decide), if_pos rfl, if_pos ⟨Nat.lt_succ_of_le hd, rfl⟩]
  rfl

end Follows

/-! ## 4. Statements -/

theorem Scopes.depth_of_pop? {α : Type} {s t : Scopes α} (h : s.pop? = some t) :
    s.depth = t.depth + 1 := by
  unfold pop? at h
  split at h
  · cases h
  · rename_i frame inner hinner
    cases h
    rw [depth, depth, hinner]
    rfl

theorem debugLines_push {event : Event} (h : (Threshold.upTo .debug).admits event.level = true)
    (log : Array Event) : debugLines (log.push event) = debugLines log ++ [event.message] := by
  simp [debugLines, Threshold.select, h]

/-- The log follows what the machine did. -/
def Machine.IsFollowed (m : Machine) : Prop :=
  Follows (debugLines m.log) m.scopes.depth m.output.toList

/-- The log follows what was done, up to the note of the error that has stopped the run. -/
def Outcome.IsFollowed : Outcome → Prop
  | .done m => m.IsFollowed
  | .stopped error m =>
    ∃ before : Machine, before.IsFollowed ∧ m.log = noted before.log (.error error)

namespace Machine

variable {m : Machine}

theorem IsFollowed.assign (h : m.IsFollowed) (x : String) (v : Value) :
    (m.assign x v).IsFollowed := by
  have hnext := h.append_other (Event.firstWord_assigned x v) (by decide) (by decide)
  show Follows (debugLines (m.log.push _)) (m.scopes.insert x v).depth m.output.toList
  rw [debugLines_push rfl, Scopes.depth_insert]
  exact hnext

theorem IsFollowed.print (h : m.IsFollowed) (x : String) (p : Printed) :
    (m.print x p).IsFollowed := by
  show Follows (debugLines (m.log.push _)) m.scopes.depth (m.output.push p).toList
  rw [debugLines_push rfl, Array.toList_push]
  exact h.append_shown x p

theorem IsFollowed.enter (h : m.IsFollowed) : m.enter.IsFollowed := by
  show Follows (debugLines (m.log.push (.opened (m.scopes.depth + 1)))) (m.scopes.depth + 1)
    m.output.toList
  rw [debugLines_push rfl]
  exact h.append_opened

/-- Closing a scope is followed, and where only the global scope is open nothing is closed. -/
theorem IsFollowed.leave (h : m.IsFollowed) : m.leave.IsFollowed := by
  rw [Machine.leave]
  cases hpop : m.scopes.pop? with
  | none => exact ⟨m, h, rfl⟩
  | some scopes =>
    have hdepth := Scopes.depth_of_pop? hpop
    rw [IsFollowed, hdepth] at h
    show Follows (debugLines (m.log.push _)) scopes.depth m.output.toList
    rw [debugLines_push rfl]
    exact h.append_closed (Nat.succ_pos _)

mutual

/-- **A statement is followed by its log**, whether it is done or stops the run. -/
theorem IsFollowed.exec {m : Machine} (h : m.IsFollowed) :
    ∀ s : Statement, (Machine.exec m s).IsFollowed
  | .assign x e => by
      rw [exec_assign]
      split
      · exact h.assign x _
      · exact ⟨m, h, rfl⟩
  | .print x => by
      rw [Machine.exec]
      split
      · exact h.print x _
      · rename_i error hx
        have hsilent := noted_lookup m.log m.scopes x
        rw [hx] at hsilent
        exact ⟨m, h, hsilent.symm⟩
  | .block body => by
      rw [Machine.exec]
      have hbody := h.enter.execAll body
      split
      · rename_i inside hinside
        rw [hinside] at hbody
        exact IsFollowed.leave hbody
      · rename_i error inside hinside
        rw [hinside] at hbody
        exact hbody

theorem IsFollowed.execAll {m : Machine} (h : m.IsFollowed) :
    ∀ program : Program, (Machine.execAll m program).IsFollowed
  | [] => h
  | s :: rest => by
      rw [Machine.execAll]
      have hs := h.exec s
      split
      · rename_i next hnext
        rw [hnext] at hs
        exact IsFollowed.execAll hs rest
      · rename_i error next hnext
        rw [hnext] at hs
        exact hs

end

end Machine

/-! ## 5. Runs -/

theorem debugLines_tokens (tokens : Array Token) : debugLines (tokens.map Event.token) = [] := by
  have hnone : ∀ event ∈ (tokens.map Event.token).toList,
      ¬((Threshold.upTo .debug).admits event.level = true) := by
    intro event hevent
    rw [Array.toList_map, List.mem_map] at hevent
    obtain ⟨t, -, rfl⟩ := hevent
    exact Bool.false_ne_true
  rw [debugLines, Threshold.select, List.filter_eq_nil_iff.mpr hnone, List.map_nil]

/-- Before a program runs, nothing was done and nothing is in the log but that it was read. -/
theorem Machine.isFollowed_new (tokens : Array Token) (statements count : Nat) :
    Machine.IsFollowed
      ⟨Session.new, (tokens.map Event.token).push (.parsed statements count)⟩ := by
  have hnew : Follows [] 1 [] := ⟨rfl, rfl, fun line hline => by cases hline⟩
  show Follows (debugLines (Array.push _ _)) 1 []
  rw [debugLines_push rfl, debugLines_tokens]
  exact hnew.append_other (Event.firstWord_parsed statements count) (by decide) (by decide)

/-- Why the lines of a run end where they end: at its end, or at what has stopped it. -/
def ExplainsEnd (lines : List String) (depth : Nat) : Except Error (List Printed) → Prop
  | .ok printed =>
    depth = 1 ∧ lines.filterMap shownText? = printed.map Printed.text ∧
      ∀ line ∈ lines, ¬IsFailure line
  | .error (.stopped (.arithmetic fault)) =>
    ∃ before last, lines = before ++ [last] ∧ IsFailure last ∧
      last = "`" ++ fault.operator.symbol ++ "` failed: " ++
        (RuntimeError.arithmetic fault).message ∧
      ∀ line ∈ before, ¬IsFailure line
  | .error (.stopped (.undefined _)) => ∀ line ∈ lines, ¬IsFailure line
  | .error _ => False

namespace Session

/-- The log of a program that has run to its end. -/
theorem explainsEnd_done {m : Machine} (h : m.IsFollowed) (hd : m.scopes.depth = 1) :
    ∃ depth,
      (debugLines (m.log.push (.finished m.output.toList.length))).foldlM followScopes 1 =
        some depth ∧
      ExplainsEnd (debugLines (m.log.push (.finished m.output.toList.length))) depth
        (.ok m.output.toList) := by
  rw [Machine.IsFollowed, hd] at h
  have hend := h.append_other (Event.firstWord_finished m.output.toList.length) (by decide)
    (by decide)
  rw [debugLines_push rfl]
  exact ⟨1, hend.scopes, rfl, hend.shown, hend.failure⟩

/-- The log of a program that was stopped. -/
theorem explainsEnd_stopped {error : RuntimeError} {m : Machine}
    (h : (Outcome.stopped error m).IsFollowed) (hne : error ≠ .globalClosed) :
    ∃ depth, (debugLines m.log).foldlM followScopes 1 = some depth ∧
      ExplainsEnd (debugLines m.log) depth (.error (.stopped error)) := by
  obtain ⟨before, hbefore, hlog⟩ := h
  rw [hlog]
  cases error with
  | undefined name => exact ⟨before.scopes.depth, hbefore.scopes, hbefore.failure⟩
  | globalClosed => exact absurd rfl hne
  | arithmetic fault =>
    have hfailed := Event.isFailure_failed fault
    show ∃ depth, (debugLines (before.log.push (.failed fault))).foldlM followScopes 1 =
      some depth ∧ ExplainsEnd (debugLines (before.log.push (.failed fault))) depth _
    rw [debugLines_push rfl, List.foldlM_append, hbefore.scopes]
    refine ⟨before.scopes.depth, ?_, _, _, rfl, hfailed, rfl, hbefore.failure⟩
    simp [hfailed.followScopes]

end Session

/-- **The log of a program tells what it did.** The lines about scopes follow a counter that starts
    at one and never goes below. At the end of the program it is one again, the lines about printing
    show the printed texts in their order, and no line is about a failure. If an operation has
    failed, the last line and no other is about the failure; if a name had no value, no line is
    about a failure. -/
theorem debugLines_run {source : String} {program : Program}
    (h : Grammar.parseText source = .ok program) :
    ∃ depth, (debugLines (run source).log).foldlM followScopes 1 = some depth ∧
      ExplainsEnd (debugLines (run source).log) depth (run source).result := by
  obtain ⟨ts, hts, hprogram⟩ := Grammar.exists_of_parseText h
  obtain ⟨herror, htokens⟩ := Lexer.scan_of_tokenize hts
  have hrun : run source = (Session.new.execute
      (((Lexer.scan source).tokens.map Event.token).push (.parsed program.length ts.length))
      program).finish := by
    rw [run, Session.eval]
    simp only [herror, htokens, hprogram]
  have hstart := Machine.isFollowed_new (Lexer.scan source).tokens program.length ts.length
  have hfollowed := hstart.execAll program
  rw [hrun]
  cases hm : Machine.execAll ⟨Session.new,
      ((Lexer.scan source).tokens.map Event.token).push (.parsed program.length ts.length)⟩
      program with
  | done m =>
    rw [hm] at hfollowed
    rw [Session.execute_of_done hm]
    refine Session.explainsEnd_done hfollowed ?_
    have houtside := congrArg List.length (Machine.execAll_done program hm)
    rw [Scopes.length_outside, Scopes.length_outside] at houtside
    exact congrArg (· + 1) houtside
  | stopped error m =>
    rw [hm] at hfollowed
    rw [Session.execute_of_stopped hm]
    refine Session.explainsEnd_stopped hfollowed ?_
    intro hclosed
    rw [hclosed] at hm
    exact Machine.execAll_ne_globalClosed program hm

/-- A block prints a value, and then a division in it has no result: the failure is the last line,
    although the scope of the block was never closed. -/
theorem debugLines_run_division :
    Grammar.parseText "x=1;\x7bprint(x);y=x/0;\x7d" =
      .ok [.assign "x" (.constant (.integer 1)), .block [.print "x",
        .assign "y" (.binary .div (.name "x") (.constant (.integer 0)))]] ∧
    (run "x=1;\x7bprint(x);y=x/0;\x7d").result =
      .error (.stopped (.arithmetic .divisionByZero)) ∧
    ∃ before, debugLines (run "x=1;\x7bprint(x);y=x/0;\x7d").log =
        before ++ ["`/` failed: arithmetic error: division by zero"] ∧
      ∀ line ∈ before, ¬IsFailure line := by
  have hparse : Grammar.parseText "x=1;\x7bprint(x);y=x/0;\x7d" =
      .ok [.assign "x" (.constant (.integer 1)), .block [.print "x",
        .assign "y" (.binary .div (.name "x") (.constant (.integer 0)))]] := by
    with_unfolding_all rfl
  have hresult : (run "x=1;\x7bprint(x);y=x/0;\x7d").result =
      .error (.stopped (.arithmetic .divisionByZero)) := by
    rw [run, (Session.eval_of_parseText hparse Session.new).2]
    rfl
  obtain ⟨depth, -, hend⟩ := debugLines_run hparse
  rw [hresult] at hend
  obtain ⟨before, last, hlines, -, hlast, hbefore⟩ := hend
  have htext : last = "`/` failed: arithmetic error: division by zero" := hlast.trans (by decide)
  rw [htext] at hlines
  exact ⟨hparse, hresult, before, hlines, hbefore⟩

end Abacus
