import Abacus.Proofs.Numeral.Literals
import Abacus.Proofs.Session.Joining
import Abacus.Proofs.Token.Places

/-!
# Where infinity comes from

A binary number need not be finite, and an integer beyond the finite numbers becomes infinite when
it is computed with. None of this reaches a program: an operation whose result is not finite stops
the run (`Operator.apply_isFinite`). What is left are the literals of the text. They have no sign,
so none of them is below zero or no number, but a literal of more than 308 digits is infinite.

This file follows the numbers of a session from the literals on. A property of all finite numbers
that the literals have as well is kept by every statement, by every chunk, whether it fails or not,
and so by every sequence of chunks (`evalAll_all`). It holds of the values that are left in a
scope, of those that were printed, and of all that were ever assigned or shown on the way, which
the log tells.

Main statement: no value is below all numbers or no number, and one is infinite only if a literal
is (`evalAll_numbers`).
-/

namespace Abacus

/-! ## 1. The binary numbers of a session -/

section All

variable (P : Binary64 → Prop)

/-- The value is an integer, or a binary number with the property. -/
def Value.All : Value → Prop
  | .integer _ => True
  | .float x => P x

/-- The printed value is an integer, or a binary number with the property. -/
def Printed.All : Printed → Prop
  | .integer _ => True
  | .float x => P x

/-- The value that the event tells of, if any, is an integer or has the property. -/
def Event.All : Event → Prop
  | .assigned _ v => v.All P
  | .shown _ p => p.All P
  | _ => True

/-- All values in the scopes have the property, also those that are shadowed. -/
def Scopes.All {α : Type} (Q : α → Prop) (s : Scopes α) : Prop :=
  ∀ frame ∈ s.frames, ∀ entry ∈ frame, Q entry.2

/-- All binary numbers that the machine holds or has logged have the property. -/
structure Machine.All (m : Machine) : Prop where
  scopes : m.scopes.All (Value.All P)
  output : ∀ p ∈ m.output, p.All P
  log : ∀ event ∈ m.log, event.All P

/-- All binary numbers have the property at the end of a run, however it ends. -/
def Outcome.All : Outcome → Prop
  | .done m => m.All P
  | .stopped _ m => m.All P

/-- All binary numbers that a chunk has left in a scope, printed, or assigned and shown on the way
    have the property. -/
structure Report.All (report : Report) : Prop where
  bound : report.session.scopes.All (Value.All P)
  printed : ∀ printed, report.result = .ok printed → ∀ p ∈ printed, p.All P
  log : ∀ event ∈ report.log, event.All P

end All

section Scopes

variable {α : Type} {Q : α → Prop} {s : Scopes α}

theorem Frame.mem_insert {frame : Frame α} {x : String} {v : α} {entry : String × α}
    (h : entry ∈ frame.insert x v) : entry = (x, v) ∨ entry ∈ frame := by
  induction frame with
  | nil => exact .inl (List.mem_singleton.mp h)
  | cons first frame ih =>
    unfold Frame.insert at h
    split at h
    · rcases List.mem_cons.mp h with h | h
      · exact .inl h
      · exact .inr (List.mem_cons_of_mem _ h)
    · rcases List.mem_cons.mp h with rfl | h
      · exact .inr List.mem_cons_self
      · exact (ih h).imp_right (List.mem_cons_of_mem _)

theorem Frame.mem_of_get? {frame : Frame α} {x : String} {v : α} (h : frame.get? x = some v) :
    (x, v) ∈ frame := by
  induction frame with
  | nil => cases h
  | cons first frame ih =>
    unfold Frame.get? at h
    split at h
    · rename_i hx
      cases h
      rw [← hx]
      exact List.mem_cons_self
    · exact List.mem_cons_of_mem _ (ih h)

namespace Scopes

theorem all_empty : (empty : Scopes α).All Q := by
  intro frame hf entry he
  cases List.mem_singleton.mp hf
  cases he

/-- Scopes among others keep what all of them have. -/
theorem All.of_subset {t : Scopes α} (h : s.All Q) (hsub : t.frames ⊆ s.frames) : t.All Q :=
  fun frame hf => h frame (hsub hf)

theorem All.push (h : s.All Q) : s.push.All Q := by
  intro frame hf
  rcases List.mem_cons.mp hf with rfl | hf
  · intro entry he
    cases he
  · exact h frame hf

theorem All.unwind (h : s.All Q) : s.unwind.All Q :=
  h.of_subset (List.subset_append_right s.inner [s.globals])

theorem All.pop {t : Scopes α} (h : s.All Q) (hp : s.pop? = some t) : t.All Q := by
  obtain ⟨inner, globals⟩ := s
  cases inner with
  | nil => cases hp
  | cons frame inner =>
    cases hp
    exact h.of_subset (List.subset_cons_self frame (inner ++ [globals]))

theorem All.insert (h : s.All Q) (x : String) {v : α} (hv : Q v) : (s.insert x v).All Q := by
  have hframe {frame : Frame α} (hf : frame ∈ s.frames) :
      ∀ entry ∈ frame.insert x v, Q entry.2 := by
    intro entry he
    rcases Frame.mem_insert he with rfl | he
    · exact hv
    · exact h frame hf entry he
  obtain ⟨inner, globals⟩ := s
  cases inner with
  | nil =>
    intro frame hf
    cases List.mem_singleton.mp hf
    exact hframe (List.mem_singleton_self globals)
  | cons innermost inner =>
    intro frame hf
    rcases List.mem_cons.mp hf with rfl | hf
    · exact hframe List.mem_cons_self
    · exact h frame (List.mem_cons_of_mem _ hf)

theorem All.lookup (h : s.All Q) {x : String} {v : α} (hx : s.lookup x = .ok v) : Q v := by
  unfold Scopes.lookup Scopes.get? at hx
  split at hx
  · rename_i w hw
    cases hx
    obtain ⟨frame, hf, hget⟩ := List.exists_of_findSome?_eq_some hw
    exact h frame hf _ (Frame.mem_of_get? hget)
  · cases hx

end Scopes

end Scopes

/-! ## 2. Operations -/

theorem Value.all_of_checked {op : Operator} {x : Binary64} {v : Value}
    (h : Value.checked op x = .ok v) : v.All (·.isFinite = true) := by
  obtain ⟨rfl, hx⟩ := Value.checked_isFinite h
  exact hx

/-- **An operation gives an integer or a finite number**, whatever its operands are. -/
theorem Operator.apply_isFinite {op : Operator} {a b v : Value} (h : op.apply a b = .ok v) :
    v.All (·.isFinite = true) := by
  cases op with
  | add | sub | mul =>
    simp only [Operator.apply, Value.add, Value.sub, Value.mul] at h
    split at h
    · cases h
      trivial
    · exact Value.all_of_checked h
  | div =>
    simp only [Operator.apply, Value.div] at h
    split at h
    · cases h
    · exact Value.all_of_checked h
  | pow =>
    simp only [Operator.apply, Value.pow] at h
    split at h
    · cases h
    · unfold Value.powDefined at h
      split at h
      · split at h
        · cases h
          trivial
        · exact Value.all_of_checked h
      · exact Value.all_of_checked h

theorem Value.All.mono {P Q : Binary64 → Prop} (hPQ : ∀ x, P x → Q x) :
    ∀ {v : Value}, v.All P → v.All Q
  | .integer _, _ => trivial
  | .float x, h => hPQ x h

theorem Value.All.toPrinted {P : Binary64 → Prop} {v : Value} (h : v.All P) : v.toPrinted.All P := by
  cases v with
  | integer n => trivial
  | float x =>
    simp only [Value.toPrinted]
    split
    · trivial
    · exact h

/-! ## 3. The constants of a program -/

/-- The constants of an expression. -/
def Expr.constants : Expr → List Value
  | .constant v => [v]
  | .name _ => []
  | .paren e => e.constants
  | .binary _ l r => l.constants ++ r.constants

mutual

/-- The constants of a statement. -/
def Statement.constants : Statement → List Value
  | .assign _ e => e.constants
  | .print _ => []
  | .block body => Program.constants body

/-- The constants of a program. -/
def Program.constants : Program → List Value
  | [] => []
  | s :: rest => s.constants ++ Program.constants rest

end

theorem Program.constants_append (program rest : Program) :
    Program.constants (program ++ rest) = Program.constants program ++ Program.constants rest := by
  induction program with
  | nil => simp [Program.constants]
  | cons s program ih => simp [Program.constants, ih]

namespace Grammar

/-- The value is that of a number among the tokens. -/
def Writes (ts : List Token) (v : Value) : Prop :=
  ∃ t ∈ ts, t.kind = .number ∧ Numeral.value? t.lexeme = some v

theorem Writes.mono {ts us : List Token} {v : Value} (h : Writes ts v) (hsub : ts ⊆ us) :
    Writes us v := by
  obtain ⟨t, ht, hk, hv⟩ := h
  exact ⟨t, hsub ht, hk, hv⟩

/-- The parts of two operands with a sign between them. -/
theorem forall_writes_append {us vs : List Token} {t : Token} {ls rs : List Value}
    (hl : ∀ v ∈ ls, Writes us v) (hr : ∀ v ∈ rs, Writes vs v) :
    ∀ v ∈ ls ++ rs, Writes (us ++ t :: vs) v := by
  intro v hv
  rcases List.mem_append.mp hv with hv | hv
  · exact (hl v hv).mono (List.subset_append_left _ _)
  · exact (hr v hv).mono (List.Subset.trans (List.subset_cons_self t vs) (List.subset_append_right _ _))

theorem subset_inside (l r : Token) (ts : List Token) : ts ⊆ l :: (ts ++ [r]) :=
  List.Subset.trans (List.subset_append_left ts [r]) (List.subset_cons_self l _)

mutual

theorem IsAtom.writes {ts : List Token} {e : Expr} :
    IsAtom ts e → ∀ v ∈ e.constants, Writes ts v
  | .paren _ h _, v, hv => (h.writes v hv).mono (subset_inside _ _ _)
  | .number ht hw, v, hv => by
      cases List.mem_singleton.mp hv
      exact ⟨_, List.mem_singleton_self _, ht, hw⟩
  | .name _, v, hv => by cases hv

theorem IsPower.writes {ts : List Token} {e : Expr} :
    IsPower ts e → ∀ v ∈ e.constants, Writes ts v
  | .raise hb _ he, v, hv => forall_writes_append hb.writes he.writes v hv
  | .atom h, v, hv => h.writes v hv

theorem IsProduct.writes {ts : List Token} {e : Expr} :
    IsProduct ts e → ∀ v ∈ e.constants, Writes ts v
  | .join hl _ hr, v, hv => forall_writes_append hl.writes hr.writes v hv
  | .power h, v, hv => h.writes v hv

theorem IsSum.writes {ts : List Token} {e : Expr} :
    IsSum ts e → ∀ v ∈ e.constants, Writes ts v
  | .join hl _ hr, v, hv => forall_writes_append hl.writes hr.writes v hv
  | .product h, v, hv => h.writes v hv

end

mutual

theorem IsStatement.writes {ts : List Token} {s : Statement} :
    IsStatement ts s → ∀ v ∈ s.constants, Writes ts v
  | .assign _ _ h _, v, hv => by
      rw [Statement.constants] at hv
      exact (h.writes v hv).mono (List.Subset.trans (subset_inside _ _ _) (List.subset_cons_self _ _))
  | .print _ _ _ _ _, v, hv => by
      rw [Statement.constants] at hv
      cases hv
  | .block _ h _, v, hv => by
      rw [Statement.constants] at hv
      exact (h.writes v hv).mono (subset_inside _ _ _)

/-- **The constants of a program are the numbers among its tokens.** -/
theorem IsProgram.writes {ts : List Token} {program : Program} :
    IsProgram ts program → ∀ v ∈ Program.constants program, Writes ts v
  | .empty, v, hv => by
      rw [Program.constants] at hv
      cases hv
  | .snoc h hs, v, hv => by
      rw [Program.constants_append, Program.constants, Program.constants, List.append_nil] at hv
      rcases List.mem_append.mp hv with hv | hv
      · exact (h.writes v hv).mono (List.subset_append_left _ _)
      · exact (hs.writes v hv).mono (List.subset_append_right _ _)

end

end Grammar

/-! ## 4. Literals -/

/-- The text has a literal that stands for the binary number. -/
def HasLiteral (source : String) (x : Binary64) : Prop :=
  ∃ ts, Lexer.tokenize source = .ok ts ∧ Grammar.Writes ts (.float x)

/-- **A literal has no sign**, and it is always a number. -/
theorem HasLiteral.unsigned {source : String} {x : Binary64} (h : HasLiteral source x) :
    x.negative = false ∧ x.isNaN = false := by
  obtain ⟨ts, hts, t, ht, hk, hv⟩ := h
  have hspells := (Lexer.places_of_tokenize hts t ht).spells
  rw [hk] at hspells
  obtain ⟨c, cs, hcs, hc⟩ := hspells.exists_digit
  simp only [Numeral.value?, hcs] at hv
  split at hv
  · simp only [Numeral.float?, Numeral.splitSign_of_isDigit hc, Option.map_map] at hv
    obtain ⟨d, -, hd⟩ := Option.map_eq_some_iff.mp hv
    cases hd
    exact ⟨d.nearest_negative false, Binary64.isNaN_ofUnits _ _ _⟩
  · obtain ⟨n, -, hn⟩ := Option.map_eq_some_iff.mp hv
    cases hn

/-! ## 5. Runs -/

section Runs

variable {P : Binary64 → Prop} {m : Machine}

/-- The line about a failure shows no number. -/
theorem Machine.All.noted (hm : m.All P) (error : RuntimeError) :
    Machine.All P { m with log := noted m.log (.error error) } := by
  cases error with
  | arithmetic fault =>
    exact ⟨hm.scopes, hm.output, Array.forall_mem_push.mpr ⟨trivial, hm.log⟩⟩
  | undefined x => exact hm
  | globalClosed => exact hm

theorem Machine.All.assign (hm : m.All P) (x : String) {v : Value} (hv : v.All P) :
    (m.assign x v).All P :=
  ⟨hm.scopes.insert x hv, hm.output, Array.forall_mem_push.mpr ⟨hv, hm.log⟩⟩

theorem Machine.All.print (hm : m.All P) (x : String) {p : Printed} (hp : p.All P) :
    (m.print x p).All P :=
  ⟨hm.scopes, Array.forall_mem_push.mpr ⟨hp, hm.output⟩,
    Array.forall_mem_push.mpr ⟨hp, hm.log⟩⟩

theorem Machine.All.enter (hm : m.All P) : m.enter.All P :=
  ⟨hm.scopes.push, hm.output, Array.forall_mem_push.mpr ⟨trivial, hm.log⟩⟩

theorem Machine.All.leave (hm : m.All P) : m.leave.All P := by
  unfold Machine.leave
  split
  · rename_i scopes hpop
    exact ⟨hm.scopes.pop hpop, hm.output, Array.forall_mem_push.mpr ⟨trivial, hm.log⟩⟩
  · exact hm

/-- An expression gives a number with the property if its constants and the scopes have it. -/
theorem Expr.eval_all (hP : ∀ x, x.isFinite = true → P x) {scopes : Scopes Value}
    (hs : scopes.All (Value.All P)) (e : Expr) (hc : ∀ v ∈ e.constants, v.All P) {v : Value}
    (h : e.eval scopes = .ok v) : v.All P := by
  cases e with
  | constant w =>
    cases h
    exact hc v (List.mem_singleton_self v)
  | name x => exact hs.lookup h
  | paren e => exact e.eval_all hP hs hc h
  | binary op l r =>
    -- the operands do not matter, only that the operation gives a result
    rw [Expr.eval_binary] at h
    split at h
    · cases h
    · split at h
      · cases h
      · split at h
        · rename_i w hw
          cases h
          exact (Operator.apply_isFinite hw).mono hP
        · cases h

mutual

/-- **A statement keeps a property of the finite numbers** that its constants have, on every path
    through it. -/
theorem Machine.All.exec (hP : ∀ x, x.isFinite = true → P x) {m : Machine} (hm : m.All P) :
    ∀ s : Statement, (∀ v ∈ s.constants, v.All P) → (m.exec s).All P
  | .assign x e, hc => by
      rw [Statement.constants] at hc
      rw [exec_assign]
      cases he : e.eval m.scopes with
      | error error => exact hm.noted error
      | ok v => exact hm.assign x (e.eval_all hP hm.scopes hc he)
  | .print x, _ => by
      rw [Machine.exec]
      cases hx : m.scopes.lookup x with
      | error error => exact hm
      | ok v => exact hm.print x (hm.scopes.lookup hx).toPrinted
  | .block body, hc => by
      rw [Statement.constants] at hc
      have hbody := hm.enter.execAll hP body hc
      rw [Machine.exec]
      generalize Machine.execAll m.enter body = outcome at hbody ⊢
      cases outcome with
      | done inside => exact Machine.All.leave hbody
      | stopped error inside => exact hbody

theorem Machine.All.execAll (hP : ∀ x, x.isFinite = true → P x) {m : Machine} (hm : m.All P) :
    ∀ program : Program, (∀ v ∈ Program.constants program, v.All P) → (m.execAll program).All P
  | [], _ => by
      rw [Machine.execAll]
      exact hm
  | s :: rest, hc => by
      rw [Program.constants, List.forall_mem_append] at hc
      have hs := hm.exec hP s hc.1
      rw [Machine.execAll]
      generalize Machine.exec m s = outcome at hs ⊢
      cases outcome with
      | done next => exact Machine.All.execAll hP hs rest hc.2
      | stopped error next => exact hs

end

/-! ## 6. Sessions -/

/-- A run keeps the property, whether it ends or stops. -/
theorem Session.execute_all (hP : ∀ x, x.isFinite = true → P x) {s : Session}
    (hs : s.scopes.All (Value.All P)) {log : Array Event} (hlog : ∀ event ∈ log, event.All P)
    {program : Program} (hc : ∀ v ∈ Program.constants program, v.All P) :
    (s.execute log program).All P := by
  have hstart : Machine.All P ⟨⟨s.scopes, #[]⟩, log⟩ := ⟨hs, (fun p hp => by simp at hp), hlog⟩
  have hrun := hstart.execAll hP program hc
  unfold Session.execute
  generalize Machine.execAll ⟨⟨s.scopes, #[]⟩, log⟩ program = outcome at hrun ⊢
  cases outcome with
  | done m =>
    refine ⟨hrun.scopes, fun printed hprinted p hp => ?_, hrun.log⟩
    cases hprinted
    exact hrun.output p (Array.mem_toList_iff.mp hp)
  | stopped error m => exact ⟨hrun.scopes.unwind, (fun _ h => by cases h), hrun.log⟩

theorem Report.All.finish {report : Report} (h : report.All P) : report.finish.All P := by
  unfold Report.finish
  split
  · exact ⟨h.bound, h.printed, Array.forall_mem_push.mpr ⟨trivial, h.log⟩⟩
  · exact h

/-- A chunk keeps a property of the finite numbers that its literals have. -/
theorem Session.eval_all (hP : ∀ x, x.isFinite = true → P x) {s : Session}
    (hs : s.scopes.All (Value.All P)) {source : String}
    (hliteral : ∀ x, HasLiteral source x → P x) : (s.eval source).All P := by
  have hread : ∀ event ∈ (Lexer.scan source).tokens.map Event.token, event.All P := by
    intro event he
    obtain ⟨t, -, rfl⟩ := Array.mem_map.mp he
    trivial
  have hrejected (error : SyntaxError) :
      Report.All P ⟨s, (Lexer.scan source).tokens.map Event.token, .error (.rejected error)⟩ :=
    ⟨hs, (fun _ h => by cases h), hread⟩
  unfold Session.eval
  simp only
  split
  · exact hrejected _
  · rename_i herror
    split
    · exact hrejected _
    · rename_i program hprogram
      have htokens : Lexer.tokenize source = .ok (Lexer.scan source).tokens.toList := by
        simp only [Lexer.tokenize, herror]
      refine (Session.execute_all hP hs ?_ fun v hv => ?_).finish
      · exact Array.forall_mem_push.mpr ⟨trivial, hread⟩
      · have hwrites := (Grammar.isProgram_of_parse hprogram).writes v hv
        cases v with
        | integer n => trivial
        | float x => exact hliteral x ⟨_, htokens, hwrites⟩

/-- **Every chunk of a session keeps a property of the finite numbers** that the literals of the
    chunks up to it have. -/
theorem Session.evalAll_all (hP : ∀ x, x.isFinite = true → P x) {s : Session}
    (hs : s.scopes.All (Value.All P)) {sources : List String} {i : Nat} {report : Report}
    (h : (s.evalAll sources)[i]? = some report)
    (hliteral : ∀ source ∈ sources.take (i + 1), ∀ x, HasLiteral source x → P x) :
    report.All P := by
  induction sources generalizing s i with
  | nil => cases h
  | cons source sources ih =>
    rw [List.take_succ_cons, List.forall_mem_cons] at hliteral
    have hfirst := Session.eval_all hP hs hliteral.1
    cases i with
    | zero =>
      cases h
      exact hfirst
    | succ i => exact ih hfirst.bound h hliteral.2

end Runs

/-- **Infinity comes from literals alone.** After each chunk of a session, failed ones among them,
    no value that is bound, printed, or was assigned or shown on the way is no number or negative
    infinity. One is infinity only if a literal of the chunks so far is. So if all literals so far
    are finite, all values are integers or finite numbers. -/
theorem Session.evalAll_numbers {sources : List String} {i : Nat} {report : Report}
    (h : (Session.new.evalAll sources)[i]? = some report) :
    report.All (fun x => x.isNaN = false ∧ x ≠ .infinity true ∧
      (x = .infinity false →
        ∃ source ∈ sources.take (i + 1), HasLiteral source (.infinity false))) ∧
    ((∀ source ∈ sources.take (i + 1), ∀ x, HasLiteral source x → x.isFinite = true) →
      report.All (·.isFinite = true)) := by
  have hnew {P : Binary64 → Prop} : Session.new.scopes.All (Value.All P) := Scopes.all_empty
  refine ⟨Session.evalAll_all ?_ hnew h ?_, fun hfinite => ?_⟩
  · intro x hx
    have hinfinite := Binary64.isFinite_isInfinite hx
    refine ⟨Binary64.isFinite_isNaN hx, ?_, ?_⟩
    · rintro rfl
      cases hinfinite
    · rintro rfl
      cases hinfinite
  · intro source hsource x hx
    obtain ⟨hsign, hnumber⟩ := hx.unsigned
    refine ⟨hnumber, ?_, ?_⟩
    · rintro rfl
      cases hsign
    · rintro rfl
      exact ⟨source, hsource, hx⟩
  · exact Session.evalAll_all (fun _ hx => hx) hnew h hfinite

/-- A literal of 310 digits before the point. -/
def hugeLiteral : List Char := '1' :: (List.replicate 309 '0' ++ ['.', '5'])

/-- A name is given a literal that is too large. The difference of infinities stops the second run,
    and the third one prints the value. -/
def hugeChunks : List String :=
  [showing (String.ofList hugeLiteral), "y=x-x;", "print(x);"]

/-- **Infinity goes through a run that stops, and it comes from a literal.** -/
theorem Session.evalAll_hugeChunks :
    ∃ report, (Session.new.evalAll hugeChunks)[2]? = some report ∧
      report.result = .ok [.float (.infinity false)] ∧
      ∃ source ∈ hugeChunks, HasLiteral source (.infinity false) := by
  have hliteral : Numeral.IsLiteral hugeLiteral :=
    @Numeral.IsLiteral.point ('1' :: List.replicate 309 '0') ['5'] (by decide) (by decide +kernel)
      rfl (by decide) rfl
  have hvalue : Numeral.value? (String.ofList hugeLiteral) = some (.float (.infinity false)) := by
    rw [Numeral.value?, String.toList_ofList]
    decide +kernel
  have hfirst := Grammar.parseText_showing ⟨hliteral, hvalue⟩
  have hsecond : Grammar.parseText "y=x-x;" =
      .ok [.assign "y" (.binary .sub (.name "x") (.name "x"))] := by with_unfolding_all rfl
  have hthird : Grammar.parseText "print(x);" = .ok [.print "x"] := by with_unfolding_all rfl
  have hresult : (((Session.new.eval (showing (String.ofList hugeLiteral))).session.eval
      "y=x-x;").session.eval "print(x);").result = .ok [.float (.infinity false)] := by
    rw [(eval_of_parseText hthird _).2, (eval_of_parseText hsecond _).1,
      (eval_of_parseText hfirst _).1]
    with_unfolding_all rfl
  refine ⟨_, rfl, hresult, ?_⟩
  have hnumbers := (Session.evalAll_numbers (rfl : (Session.new.evalAll hugeChunks)[2]? = _)).1
  exact (hnumbers.printed _ hresult _ (List.mem_singleton_self _)).2.2 rfl

end Abacus
