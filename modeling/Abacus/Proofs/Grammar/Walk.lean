import Abacus.Proofs.Grammar.Lines
import Abacus.Proofs.Grammar.Unlimited
import Mathlib.Logic.Relation

/-!
# The walk through the statements

Tokens are read as statements in two ways. The parser reads a block as one statement, with the
statements inside it. The walk that looks for the place of an error goes in and out of blocks and
counts those that are open, and all that it reads as a phrase are statements without a block. This
file shows that both accept the same tokens:

* a step of the walk enters a block, leaves one or passes a statement (`Step`). It takes at least
  one token (`Step.advances`), and the walk comes to its end by such steps (`walk_eq_ok_iff`);
* where the walk is stuck it has come to by such steps too (`walk_eq_error_iff`), and then none
  leads to the end (`StopsAt.not_walks`);
* the walk passes through a program and is in as many blocks as before (`IsProgram.walks`);
* what brings the walk to an end outside all blocks is a program. Tokens that bring it there from
  inside some blocks are programs with a closing brace behind each but the last (`Closes`), and this
  is what every step keeps, seen from its end (`Closes.of_step`);
* what the walk has gone through, wherever it is, begins a program (`Enters.of_walks`).

Main statement: the parser and the walk accept the same tokens, and where the parser rejects them
the walk has gone forward with every step, is stuck at the token that is reported, or comes to its
end inside a block (`walk_recognises`).
-/

namespace Abacus

namespace Grammar

open Rule Relation

/-! ## 1. Steps -/

/-- Where the walk is: the number of open blocks and the tokens that are left. -/
structure Place where
  blocks : Nat
  tokens : List Token

/-- The statement without a block that starts with a token of the given kind, if the rule reads
    expressions. -/
def simpleWith (value : Rule Expr) (kind : TokenKind) : Rule Statement :=
  if kind = .print then printing else assignment value

/-- A step of the walk. -/
inductive Step (value : Rule Expr) : Place → Place → Prop where
  | enter {blocks : Nat} {t : Token} {ts : List Token} (ht : t.kind = .lbrace) :
      Step value ⟨blocks, t :: ts⟩ ⟨blocks + 1, ts⟩
  | leave {blocks : Nat} {t : Token} {ts : List Token} (ht : t.kind = .rbrace) :
      Step value ⟨blocks + 1, t :: ts⟩ ⟨blocks, ts⟩
  | pass {blocks : Nat} {t : Token} {ts rest : List Token} {s : Statement}
      (hl : t.kind ≠ .lbrace) (hr : ¬(t.kind = .rbrace ∧ 0 < blocks))
      (h : (simpleWith value t.kind).run (t :: ts) = .ok (s, rest)) :
      Step value ⟨blocks, t :: ts⟩ ⟨blocks, rest⟩

/-- The walk gets from one place to another. -/
abbrev Walks (value : Rule Expr) : Place → Place → Prop := ReflTransGen (Step value)

section Steps

variable {value : Rule Expr} {p q : Place}

theorem simpleWith_reads (hv : value.Reads IsSum) (kind : TokenKind) :
    (simpleWith value kind).Reads IsStatement := by
  unfold simpleWith
  split
  · exact printing_reads
  · exact assignment_reads hv

/-- **Every step takes at least one token.** -/
theorem Step.advances (hv : value.Reads IsSum) (h : Step value p q) :
    ∃ read, read ≠ [] ∧ p.tokens = read ++ q.tokens := by
  cases h with
  | @enter blocks t ts ht => exact ⟨[t], List.cons_ne_nil _ _, rfl⟩
  | @leave blocks t ts ht => exact ⟨[t], List.cons_ne_nil _ _, rfl⟩
  | @pass blocks t ts rest s hl hr h =>
    obtain ⟨phrase, hts, -⟩ := simpleWith_reads hv _ _ _ _ h
    refine ⟨phrase, ?_, hts⟩
    rintro rfl
    have hless := (simpleWith value t.kind).shrinks h
    rw [hts] at hless
    exact Nat.lt_irrefl _ hless

end Steps

/-- A step does not change what the walk comes to. -/
theorem Step.walk_eq {p q : Place} (h : Step (expr maxNesting) p q) :
    walk p.blocks p.tokens = walk q.blocks q.tokens := by
  cases h with
  | enter ht => exact walk_lbrace ht
  | leave ht => exact walk_rbrace ht (Nat.succ_pos _)
  | pass hl hr h => exact walk_of_run hl hr h

theorem Walks.walk_eq {p q : Place} (h : Walks (expr maxNesting) p q) :
    walk p.blocks p.tokens = walk q.blocks q.tokens := by
  induction h with
  | refl => rfl
  | tail _ hs ih => exact ih.trans hs.walk_eq

/-- **The walk comes to the end of the tokens step by step.** -/
theorem walk_eq_ok_iff {blocks n : Nat} {ts : List Token} :
    walk blocks ts = .ok n ↔ Walks (expr maxNesting) ⟨blocks, ts⟩ ⟨n, []⟩ := by
  constructor
  · intro h
    fun_induction walk blocks ts with
    | case1 blocks =>
      cases h
      exact .refl
    | case2 blocks t ts hl ih => exact .head (.enter hl) (ih h)
    | case3 blocks t ts hl hr ih =>
      obtain ⟨k, rfl⟩ := Nat.exists_eq_succ_of_ne_zero (Nat.ne_of_gt hr.2)
      exact .head (.leave hr.1) (ih h)
    | case4 blocks t ts hl hr s rest hs ih => exact .head (.pass hl hr hs) (ih h)
    | case5 => cases h
  · intro h
    rw [h.walk_eq, walk]

/-- The walk stops at the place: the statement there cannot be read, and its rule is stuck at the
    given tokens. -/
def StopsAt (value : Rule Expr) (p : Place) (stuck : List Token) : Prop :=
  ∃ t ts, p.tokens = t :: ts ∧ t.kind ≠ .lbrace ∧ ¬(t.kind = .rbrace ∧ 0 < p.blocks) ∧
    (simpleWith value t.kind).run (t :: ts) = .error stuck

/-- The walk is stuck where it has come to step by step. -/
theorem walk_eq_error_iff {blocks : Nat} {ts stuck : List Token} :
    walk blocks ts = .error stuck ↔
      ∃ p, Walks (expr maxNesting) ⟨blocks, ts⟩ p ∧ StopsAt (expr maxNesting) p stuck := by
  constructor
  · intro h
    fun_induction walk blocks ts with
    | case1 => cases h
    | case2 blocks t ts hl ih =>
      obtain ⟨p, hp, hstops⟩ := ih h
      exact ⟨p, .head (.enter hl) hp, hstops⟩
    | case3 blocks t ts hl hr ih =>
      obtain ⟨k, rfl⟩ := Nat.exists_eq_succ_of_ne_zero (Nat.ne_of_gt hr.2)
      obtain ⟨p, hp, hstops⟩ := ih h
      exact ⟨p, .head (.leave hr.1) hp, hstops⟩
    | case4 blocks t ts hl hr s rest hs ih =>
      obtain ⟨p, hp, hstops⟩ := ih h
      exact ⟨p, .head (.pass hl hr hs) hp, hstops⟩
    | case5 blocks t ts hl hr stuck' hs =>
      cases h
      exact ⟨_, .refl, t, ts, rfl, hl, hr, hs⟩
  · intro h
    obtain ⟨p, hp, t, us, htokens, hl, hr, hstuck⟩ := h
    rw [hp.walk_eq, htokens]
    exact walk_of_stuck hl hr hstuck

/-- There is one way to go on. -/
theorem Step.unique {value : Rule Expr} {p q q' : Place} (h : Step value p q)
    (h' : Step value p q') : q = q' := by
  cases h with
  | enter ht =>
    cases h' with
    | enter => rfl
    | leave ht' => cases ht.symm.trans ht'
    | pass hl _ _ => exact absurd ht hl
  | leave ht =>
    cases h' with
    | enter ht' => cases ht.symm.trans ht'
    | leave => rfl
    | pass _ hr _ => exact absurd ⟨ht, Nat.succ_pos _⟩ hr
  | pass hl hr hrun =>
    cases h' with
    | enter ht' => exact absurd ht' hl
    | leave ht' => exact absurd ⟨ht', Nat.succ_pos _⟩ hr
    | pass _ _ hrun' =>
      rw [hrun] at hrun'
      cases hrun'
      rfl

/-- There is no way to go on where the walk stops. -/
theorem StopsAt.not_step {value : Rule Expr} {p q : Place} {stuck : List Token}
    (h : StopsAt value p stuck) : ¬Step value p q := by
  obtain ⟨t, ts, htokens, hl, hr, hrun⟩ := h
  intro hs
  cases hs with
  | enter ht =>
    cases htokens
    exact hl ht
  | leave ht =>
    cases htokens
    exact hr ⟨ht, Nat.succ_pos _⟩
  | pass _ _ hrun' =>
    cases htokens
    rw [hrun] at hrun'
    cases hrun'

/-- **A walk that stops does not come to the end.** -/
theorem StopsAt.not_walks {value : Rule Expr} {p q : Place} {stuck : List Token}
    (h : StopsAt value q stuck) (hq : Walks value p q) (blocks : Nat) :
    ¬Walks value p ⟨blocks, []⟩ := by
  intro hend
  have hne : q ≠ ⟨blocks, []⟩ := by
    obtain ⟨t, ts, htokens, -⟩ := h
    intro heq
    rw [heq] at htokens
    cases htokens
  have hunique : Relator.RightUnique (Step value) := fun _ _ _ => Step.unique
  rcases ReflTransGen.total_of_right_unique hunique hq hend with hwalks | hwalks
  · rcases hwalks.cases_head with heq | ⟨q', hs, -⟩
    · exact hne heq
    · exact h.not_step hs
  · rcases hwalks.cases_head with heq | ⟨q', hs, -⟩
    · exact hne heq.symm
    · cases hs

/-! ## 2. Programs are passed through -/

/-- The rule reads all sums up to the depth, with anything behind them that does not go on with
    one. -/
def ReadsSums (value : Rule Expr) (depth : Nat) : Prop :=
  ∀ {ts : List Token} {e : Expr}, IsSum ts e → e.depth ≤ depth → ∀ {rest : List Token},
    Avoids rest [.caret, .star, .slash, .plus, .minus] → value.run (ts ++ rest) = .ok (e, rest)

theorem readsSums_expr (levels : Nat) : ReadsSums (expr levels) levels :=
  fun h hd _ hrest => h.run hd hrest

theorem readsSums_unlimited (depth : Nat) : ReadsSums (unlimited expr) depth :=
  fun h _ _ hrest => h.run_unlimited hrest

mutual

/-- The walk goes through a statement and is in as many blocks as before. -/
theorem IsStatement.walks {value : Rule Expr} {depth : Nat} (hv : ReadsSums value depth)
    {ts : List Token} {s : Statement} :
    IsStatement ts s → s.depth ≤ depth → ∀ (blocks : Nat) (rest : List Token),
      Walks value ⟨blocks, ts ++ rest⟩ ⟨blocks, rest⟩
  | @IsStatement.assign t a s us e ht ha h hs, hd, blocks, rest => by
      rw [Statement.depth] at hd
      have hend : Avoids (s :: rest) [.caret, .star, .slash, .plus, .minus] :=
        avoids_cons (by rw [hs]; decide)
      have hrun : (simpleWith value t.kind).run (t :: a :: (us ++ s :: rest)) =
          .ok (.assign t.lexeme e, rest) := by
        have hsimple : simpleWith value t.kind = assignment value := by rw [ht]; rfl
        rw [hsimple]
        exact run_assignment ht ha (hv h hd hend) hs
      rw [List.cons_append, List.cons_append, List.append_assoc, List.singleton_append]
      exact .single (.pass (by rw [ht]; decide) (by simp [ht]) hrun)
  | @IsStatement.print p l t r s hp hl ht hr hs, _, blocks, rest => by
      have hrun : (simpleWith value p.kind).run (p :: l :: t :: r :: s :: rest) =
          .ok (.print t.lexeme, rest) := by
        have hsimple : simpleWith value p.kind = printing := by rw [hp]; rfl
        rw [hsimple]
        exact run_printing hp hl ht hr hs rest
      exact .single (.pass (by rw [hp]; decide) (by simp [hp]) hrun)
  | @IsStatement.block l r us body hl h hr, hd, blocks, rest => by
      rw [Statement.depth] at hd
      have hbody := h.walks hv (by omega) (blocks + 1) (r :: rest)
      rw [List.cons_append, List.append_assoc, List.singleton_append]
      exact .head (.enter hl) (hbody.tail (.leave hr))

/-- **The walk goes through a program** and is in as many blocks as before. -/
theorem IsProgram.walks {value : Rule Expr} {depth : Nat} (hv : ReadsSums value depth)
    {ts : List Token} {program : Program} :
    IsProgram ts program → Program.depth program ≤ depth →
      ∀ (blocks : Nat) (rest : List Token), Walks value ⟨blocks, ts ++ rest⟩ ⟨blocks, rest⟩
  | .empty, _, _, _ => .refl
  | .snoc h hs, hd, blocks, rest => by
      rw [Program.depth_append, Program.depth, Program.depth] at hd
      rw [List.append_assoc]
      exact (h.walks hv (by omega) blocks _).trans (hs.walks hv (by omega) blocks rest)

end

/-! ## 3. What the walk passes through is a program -/

theorem IsProgram.cons {us vs : List Token} {s : Statement} {program : Program}
    (hs : IsStatement us s) : IsProgram vs program → IsProgram (us ++ vs) (s :: program)
  | .empty => by
      rw [List.append_nil]
      exact .snoc .empty hs
  | .snoc h hs' => by
      rw [← List.append_assoc]
      exact .snoc (h.cons hs) hs'

/-- The tokens close the given number of blocks: there are programs, with a closing brace behind
    each but the last. -/
inductive Closes : Nat → List Token → Prop where
  | outside {ts : List Token} {program : Program} (h : IsProgram ts program) : Closes 0 ts
  | inside {blocks : Nat} {r : Token} {ts rest : List Token} {program : Program}
      (h : IsProgram ts program) (hr : r.kind = .rbrace) (hrest : Closes blocks rest) :
      Closes (blocks + 1) (ts ++ r :: rest)

/-- A statement in front belongs to the innermost program. -/
theorem Closes.statement {blocks : Nat} {us ts : List Token} {s : Statement}
    (hs : IsStatement us s) (h : Closes blocks ts) : Closes blocks (us ++ ts) := by
  cases h with
  | outside h => exact .outside (h.cons hs)
  | inside h hr hrest =>
    rw [← List.append_assoc]
    exact .inside (h.cons hs) hr hrest

/-- An opening brace in front makes the innermost program a block. -/
theorem Closes.block {blocks : Nat} {l : Token} {ts : List Token} (hl : l.kind = .lbrace)
    (h : Closes (blocks + 1) ts) : Closes blocks (l :: ts) := by
  cases h with
  | @inside _ r us rest body h hr hrest =>
    have hblock := hrest.statement (.block hl h hr)
    rwa [List.cons_append, List.append_assoc, List.singleton_append] at hblock

/-- **What closes the blocks behind a step closes them before it.** -/
theorem Closes.of_step {value : Rule Expr} (hv : value.Reads IsSum) {p q : Place}
    (h : Step value p q) (hq : Closes q.blocks q.tokens) : Closes p.blocks p.tokens := by
  cases h with
  | enter ht => exact hq.block ht
  | leave ht => exact .inside .empty ht hq
  | pass hl hr h =>
    obtain ⟨phrase, hts, hs⟩ := simpleWith_reads hv _ _ _ _ h
    change Closes _ (_ :: _)
    rw [hts]
    exact hq.statement hs

theorem Closes.of_walks {value : Rule Expr} (hv : value.Reads IsSum) {p q : Place}
    (h : Walks value p q) (hq : Closes q.blocks q.tokens) : Closes p.blocks p.tokens := by
  induction h using ReflTransGen.head_induction_on with
  | refl => exact hq
  | head hs _ ih => exact .of_step hv hs ih

/-- What brings the walk to the end outside all blocks is a program. -/
theorem exists_of_walks {value : Rule Expr} (hv : value.Reads IsSum) {ts : List Token}
    (h : Walks value ⟨0, ts⟩ ⟨0, []⟩) : ∃ program, IsProgram ts program := by
  have hcloses : Closes 0 ts := .of_walks hv h (.outside .empty)
  cases hcloses with
  | outside h => exact ⟨_, h⟩

/-! ## 4. What the walk leaves behind -/

/-- The tokens begin a program and end at a brace or behind a statement, with the given number of
    blocks open. -/
inductive Enters : Nat → List Token → Prop where
  | start : Enters 0 []
  | enter {blocks : Nat} {us : List Token} {l : Token} (h : Enters blocks us)
      (hl : l.kind = .lbrace) : Enters (blocks + 1) (us ++ [l])
  | leave {blocks : Nat} {us : List Token} {r : Token} (h : Enters (blocks + 1) us)
      (hr : r.kind = .rbrace) : Enters blocks (us ++ [r])
  | pass {blocks : Nat} {us vs : List Token} {s : Statement} (h : Enters blocks us)
      (hs : IsStatement vs s) : Enters blocks (us ++ vs)

theorem Enters.of_step {value : Rule Expr} (hv : value.Reads IsSum) {p q : Place}
    {us : List Token} (hp : Enters p.blocks us) (h : Step value p q) :
    ∃ read, p.tokens = read ++ q.tokens ∧ Enters q.blocks (us ++ read) := by
  cases h with
  | @enter blocks t ts ht => exact ⟨[t], rfl, hp.enter ht⟩
  | @leave blocks t ts ht => exact ⟨[t], rfl, hp.leave ht⟩
  | pass hl hr h =>
    obtain ⟨phrase, hts, hs⟩ := simpleWith_reads hv _ _ _ _ h
    exact ⟨phrase, hts, hp.pass hs⟩

/-- **What the walk has gone through begins a program.** -/
theorem Enters.of_walks {value : Rule Expr} (hv : value.Reads IsSum) {ts : List Token} {q : Place}
    (h : Walks value ⟨0, ts⟩ q) : ∃ read, ts = read ++ q.tokens ∧ Enters q.blocks read := by
  induction h with
  | refl => exact ⟨[], rfl, .start⟩
  | tail _ hs ih =>
    obtain ⟨read, hts, hread⟩ := ih
    obtain ⟨more, htokens, hmore⟩ := hread.of_step hv hs
    refine ⟨read ++ more, ?_, hmore⟩
    rw [List.append_assoc, ← htokens, hts]

/-- Behind a beginning the walk is in the blocks that are open, whatever follows. -/
theorem Enters.walks {blocks : Nat} {us : List Token} (h : Enters blocks us) (rest : List Token) :
    Walks (unlimited expr) ⟨0, us ++ rest⟩ ⟨blocks, rest⟩ := by
  induction h generalizing rest with
  | start => exact .refl
  | enter _ hl ih =>
    rw [List.append_assoc]
    exact (ih _).tail (.enter hl)
  | leave _ hr ih =>
    rw [List.append_assoc]
    exact (ih _).tail (.leave hr)
  | pass _ hs ih =>
    rw [List.append_assoc]
    exact (ih _).trans (hs.walks (readsSums_unlimited _) (Nat.le_refl _) _ rest)

/-- What closes the open blocks makes a beginning a program. -/
theorem Enters.closes {blocks : Nat} {us : List Token} (h : Enters blocks us) {rest : List Token}
    (hrest : Closes blocks rest) : Closes 0 (us ++ rest) := by
  induction h generalizing rest with
  | start => exact hrest
  | enter _ hl ih =>
    rw [List.append_assoc]
    exact ih (hrest.block hl)
  | leave _ hr ih =>
    rw [List.append_assoc]
    exact ih (.inside .empty hr hrest)
  | pass _ hs ih =>
    rw [List.append_assoc]
    exact ih (hrest.statement hs)

/-! ## 5. The parser and the walk -/

/-- Without a limit the walk goes through exactly the programs. -/
theorem walks_unlimited_iff {ts : List Token} :
    Walks (unlimited expr) ⟨0, ts⟩ ⟨0, []⟩ ↔ ∃ program, IsProgram ts program := by
  constructor
  · exact exists_of_walks (reads_unlimited expr_reads)
  · rintro ⟨program, h⟩
    have hwalks := h.walks (readsSums_unlimited _) (Nat.le_refl _) 0 []
    rwa [List.append_nil] at hwalks

/-- The walk goes through exactly the programs, among tokens that are not nested too deep. -/
theorem walk_eq_ok_zero_iff {ts : List Token} (hn : Nesting.check ts = .ok ()) :
    walk 0 ts = .ok 0 ↔ ∃ program, IsProgram ts program := by
  rw [walk_eq_ok_iff]
  constructor
  · exact exists_of_walks (expr_reads maxNesting)
  · rintro ⟨program, h⟩
    have hd := (check_ok_iff_depth_le h).mp hn
    have hwalks := h.walks (readsSums_expr maxNesting) hd 0 []
    rwa [List.append_nil] at hwalks

theorem many_unlimited_eq_nil_iff {ts : List Token} :
    ((unlimited statement).many ts).2 = [] ↔ ∃ program, IsProgram ts program := by
  constructor
  · exact fun h => ⟨_, isProgram_of_many (reads_unlimited statement_reads) h⟩
  · rintro ⟨program, h⟩
    rw [many_unlimited_iff.mpr h]

theorem many_eq_nil_iff {ts : List Token} (hn : Nesting.check ts = .ok ()) :
    ((statement maxNesting).many ts).2 = [] ↔ ∃ program, IsProgram ts program := by
  constructor
  · exact fun h => ⟨_, isProgram_of_many (statement_reads maxNesting) h⟩
  · rintro ⟨program, h⟩
    rw [h.many ((check_ok_iff_depth_le h).mp hn)]

/-- Tokens that are not nested too deep are rejected with the error that the walk finds, and only if
    they are no program. -/
theorem locate_of_parse {ts : List Token} {error : SyntaxError} (hn : Nesting.check ts = .ok ())
    (h : parse ts = .error error) : error = locate ts ∧ ¬∃ program, IsProgram ts program := by
  refine ⟨?_, ?_⟩
  · simp only [parse, hn] at h
    split at h
    · cases h
    · cases h
      rfl
  · rintro ⟨program, hprogram⟩
    rw [parse_of_isProgram hn hprogram] at h
    cases h

/-- **The parser and the walk accept the same tokens.** Without a limit on the nesting they do so
    for all tokens, and with it for those that are not nested too deep. If such tokens are rejected,
    the error is the one that the walk finds: every step on the way there takes a token at least.
    Where the walk is stuck, the error is about the first token there, and where it comes to its end
    a block is open and the end is unexpected. -/
theorem walk_recognises (ts : List Token) :
    (((unlimited statement).many ts).2 = [] ↔ Walks (unlimited expr) ⟨0, ts⟩ ⟨0, []⟩) ∧
    (Nesting.check ts = .ok () →
      (((statement maxNesting).many ts).2 = [] ↔ walk 0 ts = .ok 0) ∧
      ∀ error, parse ts = .error error →
        error = locate ts ∧
        (∀ p q, Walks (expr maxNesting) ⟨0, ts⟩ p → Step (expr maxNesting) p q →
          ∃ read, read ≠ [] ∧ p.tokens = read ++ q.tokens) ∧
        (∀ stuck, walk 0 ts = .error stuck → error = errorAt stuck) ∧
        ∀ blocks, walk 0 ts = .ok blocks → 0 < blocks ∧ error = .unexpectedEnd) := by
  refine ⟨many_unlimited_eq_nil_iff.trans walks_unlimited_iff.symm, fun hn => ⟨?_, ?_⟩⟩
  · exact (many_eq_nil_iff hn).trans (walk_eq_ok_zero_iff hn).symm
  · intro error h
    obtain ⟨herror, hnone⟩ := locate_of_parse hn h
    refine ⟨herror, fun p q _ hs => hs.advances (expr_reads maxNesting), fun stuck hw => ?_,
      fun blocks hw => ⟨?_, ?_⟩⟩
    · rw [herror, locate, hw]
    · refine Nat.pos_of_ne_zero ?_
      rintro rfl
      exact hnone ((walk_eq_ok_zero_iff hn).mp hw)
    · rw [herror, locate, hw]

/-- The tokens of `{x=1;`, a block without its end. -/
def openBlock : List Token :=
  [⟨.lbrace, "\x7b", 1⟩, ⟨.identifier, "x", 1⟩, ⟨.assign, "=", 1⟩, ⟨.number, "1", 1⟩,
    ⟨.semicolon, ";", 1⟩]

/-- The block without its end is rejected, since it is still open where the walk ends. -/
theorem walk_recognises_openBlock :
    Nesting.check openBlock = .ok () ∧ parse openBlock = .error .unexpectedEnd ∧
    walk 0 openBlock = .ok 1 ∧ ((statement maxNesting).many openBlock).2 ≠ [] ∧
    locate openBlock = .unexpectedEnd ∧ ∃ read, read ≠ [] ∧ openBlock = read ++ openBlock.tail := by
  have hn : Nesting.check openBlock = .ok () := rfl
  have hparse : parse openBlock = .error .unexpectedEnd := by with_unfolding_all rfl
  have hwalk : walk 0 openBlock = .ok 1 := by with_unfolding_all rfl
  obtain ⟨hagree, hreject⟩ := (walk_recognises openBlock).2 hn
  obtain ⟨hlocate, hadvances, -, -⟩ := hreject _ hparse
  refine ⟨hn, hparse, hwalk, fun hmany => ?_, hlocate.symm, hadvances _ _ .refl (.enter rfl)⟩
  rw [hagree, hwalk] at hmany
  cases hmany

end Grammar

end Abacus
