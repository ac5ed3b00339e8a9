import Abacus.Proofs.Grammar.Walk

/-!
# The calls of the rules

The rules of the grammar call each other, and three of the calls nest: what is in parentheses, the
exponent of a power and the statements of a block are each read by a call from inside another. The
nesting check counts the open brackets and unfinished powers along the tokens, fitting or not, and
is made before any rule is called. This file shows that it bounds the calls:

* `Calls` and `Nests` say which calls a call makes, whatever becomes of them; `Active` says how many
  nested calls are active at a call;
* where a call is made the nesting check has counted at least as many levels as nested calls are
  active (`Active.scan`). The tokens up to there are made of phrases that were read, so a sign that
  finishes a power stands behind the power, and a closing bracket behind what is inside it;
* a call that never has more nested calls active than it has levels gives what it would give without
  a limit (`Bounded.run_expr`, `Bounded.many`). The calls named here are thus all there are.

Main statement: tokens that are not nested too deep never need more nested calls than there are
levels, neither in the parser nor in the walk to the place of an error (`calls_within_levels`).
-/

namespace Abacus

/-! ## 1. Calls -/

namespace Grammar

open Rule Relation

/-- The rules that call each other. -/
inductive Nonterminal where
  | program
  | statement
  | assignment
  | sum
  | product
  | power
  | atom

/-- A call: the rule, and the tokens that it is to read from. -/
structure Call where
  rule : Nonterminal
  tokens : List Token

/-- A rule calls another in its own place, or goes on with its repetition behind a phrase. -/
inductive Calls : Call → Call → Prop where
  | statement {ts : List Token} : Calls ⟨.program, ts⟩ ⟨.statement, ts⟩
  | nextStatement {ts rest : List Token} {s : Statement}
      (h : (unlimited statement).run ts = .ok (s, rest)) : Calls ⟨.program, ts⟩ ⟨.program, rest⟩
  | assignment {ts : List Token} : Calls ⟨.statement, ts⟩ ⟨.assignment, ts⟩
  | value {t a : Token} {ts : List Token} (ht : t.kind = .identifier) (ha : a.kind = .assign) :
      Calls ⟨.assignment, t :: a :: ts⟩ ⟨.sum, ts⟩
  | product {ts : List Token} : Calls ⟨.sum, ts⟩ ⟨.product, ts⟩
  | nextProduct {ts rest : List Token} {e : Expr} {t : Token} {op : Operator}
      (h : (product (unlimited power)).run ts = .ok (e, t :: rest))
      (ht : sumOperator? t.kind = some op) : Calls ⟨.sum, ts⟩ ⟨.sum, rest⟩
  | power {ts : List Token} : Calls ⟨.product, ts⟩ ⟨.power, ts⟩
  | nextPower {ts rest : List Token} {e : Expr} {t : Token} {op : Operator}
      (h : (unlimited power).run ts = .ok (e, t :: rest))
      (ht : productOperator? t.kind = some op) : Calls ⟨.product, ts⟩ ⟨.product, rest⟩
  | atom {ts : List Token} : Calls ⟨.power, ts⟩ ⟨.atom, ts⟩

/-- A rule calls another for what is nested inside its phrase. -/
inductive Nests : Call → Call → Prop where
  | block {l : Token} {ts : List Token} (hl : l.kind = .lbrace) :
      Nests ⟨.statement, l :: ts⟩ ⟨.program, ts⟩
  | paren {l : Token} {ts : List Token} (hl : l.kind = .lparen) : Nests ⟨.atom, l :: ts⟩ ⟨.sum, ts⟩
  | exponent {ts rest : List Token} {b : Expr} {t : Token}
      (h : (atom (unlimited expr)).run ts = .ok (b, t :: rest)) (ht : t.kind = .caret) :
      Nests ⟨.power, ts⟩ ⟨.power, rest⟩

/-- While the first call runs the second is made, with the given number of nested calls active. -/
inductive Active (c : Call) : Nat → Call → Prop where
  | start : Active c 0 c
  | call {n : Nat} {d e : Call} (h : Active c n d) (he : Calls d e) : Active c n e
  | nest {n : Nat} {d e : Call} (h : Active c n d) (he : Nests d e) : Active c (n + 1) e

theorem Active.of_calls {c d e : Call} {n : Nat} (hd : Calls c d) (h : Active d n e) :
    Active c n e := by
  induction h with
  | start => exact .call .start hd
  | call _ he ih => exact .call ih he
  | nest _ he ih => exact .nest ih he

theorem Active.of_nests {c d e : Call} {n : Nat} (hd : Nests c d) (h : Active d n e) :
    Active c (n + 1) e := by
  induction h with
  | start => exact .nest .start hd
  | call _ he ih => exact .call ih he
  | nest _ he ih => exact .nest ih he

end Grammar

/-! ## 2. What the nesting check has counted where a call is made -/

namespace Nesting

/-- Inside tokens that are accepted there are not too many levels, and what follows is accepted. -/
theorem checkFrom_split {n : Nesting} {read rest : List Token} (hn : n.depth ≤ maxNesting)
    (h : n.checkFrom (read ++ rest) = .ok ()) :
    (n.after read).depth ≤ maxNesting ∧ (n.after read).checkFrom rest = .ok () := by
  induction read generalizing n with
  | nil => exact ⟨hn, h⟩
  | cons t read ih =>
    simp only [List.cons_append, checkFrom] at h
    split at h
    · cases h
    · rename_i hd
      exact ih (Nat.le_of_not_lt hd) h

/-- The count outside all brackets but the given number of blocks. -/
def inBlocks (blocks : Nat) : Nesting := ⟨0, List.replicate blocks 0, blocks⟩

theorem opened_inBlocks (blocks : Nat) : (inBlocks blocks).opened = inBlocks (blocks + 1) := rfl

theorem closed_inBlocks (blocks : Nat) : (inBlocks (blocks + 1)).closed = inBlocks blocks := by
  rw [← opened_inBlocks]
  exact closed_opened_raisedBy (inBlocks blocks) 0

end Nesting

namespace Grammar

open Rule Relation Nesting

/-- An exponent, and the atom that it starts with, may come behind a power that is not finished. -/
def Nonterminal.isOperand : Nonterminal → Bool
  | .power | .atom => true
  | .program | .statement | .assignment | .sum | .product => false

/-- The rule may be called at this count: no power is unfinished unless the rule reads an
    exponent. -/
def Call.Fits (c : Call) (n : Nesting) : Prop := c.rule.isOperand = false → n.powers = 0

/-- A sign of lower rank behind a phrase leads back to the count before the phrase. -/
theorem after_concat_of_counts {n : Nesting} {us : List Token} {t : Token} {levels : List Nat}
    (hn : n.powers = 0) (h : n.Counts us levels)
    (ht : ∀ m : Nesting, m.step t.kind = m.settled) : n.after (us ++ [t]) = n := by
  obtain ⟨k, hafter, -⟩ := h
  rw [after_append, hafter, after_cons, after_nil, ht, settled_raisedBy hn]

/-- Up to a call in its own place nothing is opened. -/
theorem Calls.scan {c d : Call} (h : Calls c d) {n : Nesting} (hn : c.Fits n) :
    ∃ read, c.tokens = read ++ d.tokens ∧ n.after read = n ∧ d.Fits n := by
  cases h with
  | statement | assignment | product => exact ⟨[], rfl, rfl, fun _ => hn rfl⟩
  | power | atom => exact ⟨[], rfl, rfl, nofun⟩
  | nextStatement h =>
    obtain ⟨phrase, hts, hs⟩ := reads_unlimited statement_reads _ _ _ h
    exact ⟨phrase, hts, (hs.scan n (hn rfl)).1, hn⟩
  | @value t a ts ht ha =>
    refine ⟨[t, a], rfl, ?_, fun _ => hn rfl⟩
    rw [after_cons, after_cons, after_nil, ht, ha]
    exact settled_raisedBy (hn rfl) 0
  | @nextProduct ts rest e t op h ht =>
    obtain ⟨phrase, hts, hp⟩ := product_reads (reads_unlimited power_reads) _ _ _ h
    refine ⟨phrase ++ [t], ?_, ?_, hn⟩
    · rw [List.append_assoc]
      exact hts
    · exact after_concat_of_counts (hn rfl) (hp.scan n (hn rfl)) (settles_of_sumOperator? ht).2.2
  | @nextPower ts rest e t op h ht =>
    obtain ⟨phrase, hts, hp⟩ := reads_unlimited power_reads _ _ _ h
    refine ⟨phrase ++ [t], ?_, ?_, hn⟩
    · rw [List.append_assoc]
      exact hts
    · exact after_concat_of_counts (hn rfl) (hp.scan n) (settles_of_productOperator? ht).2.2

/-- Up to a nested call one level is opened. -/
theorem Nests.scan {c d : Call} (h : Nests c d) (n : Nesting) :
    ∃ read, c.tokens = read ++ d.tokens ∧ (n.after read).depth = n.depth + 1 ∧
      d.Fits (n.after read) := by
  cases h with
  | @block l ts hl =>
    have hopen : n.after [l] = n.opened := by rw [after_cons, after_nil, hl]; rfl
    exact ⟨[l], rfl, by rw [hopen]; rfl, fun _ => by rw [hopen]; rfl⟩
  | @paren l ts hl =>
    have hopen : n.after [l] = n.opened := by rw [after_cons, after_nil, hl]; rfl
    exact ⟨[l], rfl, by rw [hopen]; rfl, fun _ => by rw [hopen]; rfl⟩
  | @exponent ts rest b t h ht =>
    obtain ⟨phrase, hts, hb⟩ := atom_reads (reads_unlimited expr_reads) _ _ _ h
    refine ⟨phrase ++ [t], ?_, ?_, nofun⟩
    · rw [List.append_assoc]
      exact hts
    · rw [after_append, (hb.scan n).1, after_cons, after_nil, ht]
      rfl

/-- **Where a call is made the nesting check has counted the nested calls that are active.** -/
theorem Active.scan {c d : Call} {m : Nat} (h : Active c m d) {n : Nesting} (hn : c.Fits n) :
    ∃ read, c.tokens = read ++ d.tokens ∧ (n.after read).depth = n.depth + m ∧
      d.Fits (n.after read) := by
  induction h with
  | start => exact ⟨[], rfl, rfl, hn⟩
  | call _ he ih =>
    obtain ⟨read, hts, hdepth, hfits⟩ := ih
    obtain ⟨more, htokens, hafter, hmore⟩ := he.scan hfits
    refine ⟨read ++ more, ?_, ?_, ?_⟩
    · rw [hts, htokens, List.append_assoc]
    · rw [after_append, hafter, hdepth]
    · rw [after_append, hafter]
      exact hmore
  | nest _ he ih =>
    obtain ⟨read, hts, hdepth, hfits⟩ := ih
    obtain ⟨more, htokens, hafter, hmore⟩ := he.scan (n.after read)
    refine ⟨read ++ more, ?_, ?_, ?_⟩
    · rw [hts, htokens, List.append_assoc]
    · rw [after_append, hafter, hdepth]
      rfl
    · rw [after_append]
      exact hmore

/-- At the places of the walk the nesting check has counted the open blocks. -/
theorem Enters.scan {blocks : Nat} {us : List Token} (h : Enters blocks us) :
    Nesting.start.after us = inBlocks blocks := by
  induction h with
  | start => rfl
  | enter _ hl ih =>
    rw [after_append, ih, after_cons, after_nil, hl]
    exact opened_inBlocks _
  | leave _ hr ih =>
    rw [after_append, ih, after_cons, after_nil, hr]
    exact closed_inBlocks _
  | pass _ hs ih =>
    rw [after_append, ih]
    exact (hs.scan _ rfl).1

/-! ## 3. Calls that have enough levels -/

/-- While the call runs there are never more nested calls active than the given number. -/
def Bounded (levels : Nat) (c : Call) : Prop := ∀ n d, Active c n d → n ≤ levels

/-- Tokens that are not nested too deep bound the calls made among them. -/
theorem bounded_of_checkFrom {c : Call} {n : Nesting} (hn : c.Fits n) (hd : n.depth ≤ maxNesting)
    (h : n.checkFrom c.tokens = .ok ()) : Bounded maxNesting c := by
  intro m d hactive
  obtain ⟨read, hts, hdepth, -⟩ := hactive.scan hn
  rw [hts] at h
  have hle := (checkFrom_split hd h).1
  omega

section Bounded

variable {levels : Nat}

theorem Bounded.call {c d : Call} (h : Bounded levels c) (hd : Calls c d) : Bounded levels d :=
  fun n e he => h n e (.of_calls hd he)

/-- A nested call leaves one level less for the calls inside it. -/
theorem Bounded.nest {c d : Call} (h : Bounded levels c) (hd : Nests c d) :
    ∃ deeper, levels = deeper + 1 ∧ Bounded deeper d := by
  have hpos : 1 ≤ levels := h 1 d (.nest .start hd)
  refine ⟨levels - 1, by omega, fun n e he => ?_⟩
  have hle := h (n + 1) e (.of_nests hd he)
  omega

theorem Bounded.run_below {rule : Nat → Rule Expr} {x : Nonterminal} {c : Call} {ts : List Token}
    (h : Bounded levels c) (hd : Nests c ⟨x, ts⟩)
    (hrule : ∀ deeper, levels = deeper + 1 → Bounded deeper ⟨x, ts⟩ →
      (rule deeper).run ts = (unlimited rule).run ts) :
    (below rule levels).run ts = (unlimited rule).run ts := by
  obtain ⟨deeper, rfl, hdeeper⟩ := h.nest hd
  exact hrule deeper rfl hdeeper

/-- Rules that give the same for each operand give the same for operands joined. -/
theorem run_joined_congr {operand operand' : Rule Expr} {operator : Rule Operator}
    {P : List Token → Prop} (hoperand : ∀ ts, P ts → operand.run ts = operand'.run ts)
    (hnext : ∀ ts e mid op rest, P ts → operand'.run ts = .ok (e, mid) →
      operator.run mid = .ok (op, rest) → P rest) {ts : List Token} (hts : P ts) :
    (joined operand operator).run ts = (joined operand' operator).run ts := by
  -- the places of the repetition are those behind an operand
  refine run_fold_congr (hoperand ts hts) fun e mid h => foldFrom_congr
    (P := fun mid => ∃ us e, P us ∧ operand'.run us = .ok (e, mid)) ?_ ?_ e mid ⟨ts, e, hts, h⟩
  · intro mid ⟨us, e, hus, hrun⟩ b rest
    have hpair : (operator.pair operand).run mid = (operator.pair operand').run mid :=
      run_pair_congr rfl fun op rest hop => hoperand rest (hnext us e mid op rest hus hrun hop)
    rw [hpair]
  · intro mid ⟨op, e'⟩ rest ⟨us, e, hus, hrun⟩ hpair
    obtain ⟨behind, hop, hoperand'⟩ := exists_of_run_pair hpair
    exact ⟨behind, e', hnext us e mid op behind hus hrun hop, hoperand'⟩

theorem Bounded.run_product {ts : List Token} (h : Bounded levels ⟨.product, ts⟩)
    (hpower : ∀ ts, Bounded levels ⟨.power, ts⟩ →
      (power levels).run ts = (unlimited power).run ts) :
    (product (power levels)).run ts = (product (unlimited power)).run ts := by
  refine run_joined_congr (P := fun ts => Bounded levels ⟨.product, ts⟩)
    (fun ts hts => hpower ts (hts.call .power)) ?_ h
  intro ts e mid op rest hts he hop
  obtain ⟨_, rfl, t, rfl, ht⟩ :=
    (@sign_reads productOperator? _ _ rfl).orElse (sign_reads rfl) _ _ _ hop
  exact hts.call (.nextPower he ht)

theorem Bounded.run_sum {ts : List Token} (h : Bounded levels ⟨.sum, ts⟩)
    (hpower : ∀ ts, Bounded levels ⟨.power, ts⟩ →
      (power levels).run ts = (unlimited power).run ts) :
    (expr levels).run ts = (unlimited expr).run ts := by
  rw [unlimited_expr]
  refine run_joined_congr (P := fun ts => Bounded levels ⟨.sum, ts⟩)
    (fun ts hts => (hts.call .product).run_product hpower) ?_ h
  intro ts e mid op rest hts he hop
  obtain ⟨_, rfl, t, rfl, ht⟩ :=
    (@sign_reads sumOperator? _ _ rfl).orElse (sign_reads rfl) _ _ _ hop
  exact hts.call (.nextProduct he ht)

theorem run_atom_congr {inner inner' : Rule Expr} {ts : List Token}
    (h : ∀ l rest, ts = l :: rest → l.kind = .lparen → inner.run rest = inner'.run rest) :
    (atom inner).run ts = (atom inner').run ts := by
  refine run_orElse_congr rfl fun _ _ => run_map_congr _ (run_right_congr rfl fun l mid hl => ?_)
  obtain ⟨_, rfl, rfl, hk⟩ := reads_token .lparen _ _ _ hl
  exact run_left_congr (h l mid rfl hk) fun _ _ _ => rfl

/-- A power gives what it would give without a limit. -/
theorem Bounded.run_power (levels : Nat) (ts : List Token) (h : Bounded levels ⟨.power, ts⟩) :
    (power levels).run ts = (unlimited power).run ts := by
  induction levels using Nat.strongRecOn generalizing ts with
  | ind levels ih =>
    rw [power_eq, unlimited_power]
    refine run_map_congr _ (run_pairOption_congr (run_atom_congr ?_) fun b mid hb =>
      run_right_congr rfl fun t rest ht => ?_)
    · intro l rest hts hl
      subst hts
      exact (h.call .atom).run_below (.paren hl) fun deeper hlevels hd =>
        hd.run_sum (ih deeper (by omega))
    · obtain ⟨_, rfl, rfl, hk⟩ := reads_token .caret _ _ _ ht
      exact h.run_below (.exponent hb hk) fun deeper hlevels hd => ih deeper (by omega) rest hd

/-- An expression gives what it would give without a limit. -/
theorem Bounded.run_expr {ts : List Token} (h : Bounded levels ⟨.sum, ts⟩) :
    (expr levels).run ts = (unlimited expr).run ts := h.run_sum (Bounded.run_power levels)

theorem Bounded.run_assignment {ts : List Token} (h : Bounded levels ⟨.assignment, ts⟩) :
    (assignment (expr levels)).run ts = (assignment (unlimited expr)).run ts := by
  refine run_map_congr _ (run_pair_congr rfl fun x mid hx => run_left_congr ?_ fun _ _ _ => rfl)
  obtain ⟨_, rfl, _, _, a, rfl, ⟨t, rfl, ht, -⟩, rfl, ha⟩ :=
    identifier_reads.left (reads_token .assign) _ _ _ hx
  exact (h.call (.value ht ha)).run_expr

theorem Bounded.run_simple {ts : List Token} (h : Bounded levels ⟨.assignment, ts⟩) :
    (printing.orElse (assignment (expr levels))).run ts =
      (printing.orElse (assignment (unlimited expr))).run ts :=
  run_orElse_congr rfl fun _ _ => h.run_assignment

/-- The statements that are read one behind the other are those read without a limit. -/
theorem Bounded.many_of_run {ts : List Token} (h : Bounded levels ⟨.program, ts⟩)
    (hstatement : ∀ ts, Bounded levels ⟨.statement, ts⟩ → ∀ s rest,
      (statement levels).run ts = .ok (s, rest) ↔ (unlimited statement).run ts = .ok (s, rest)) :
    (statement levels).many ts = (unlimited statement).many ts :=
  many_congr (P := fun ts => Bounded levels ⟨.program, ts⟩)
    (fun ts hts => hstatement ts (hts.call .statement))
    (fun _ _ _ hts hrun => hts.call (.nextStatement hrun)) h

/-- A statement is read as it would be without a limit. Without levels no block is tried, and so the
    tokens at which the rule is stuck may be others. -/
theorem Bounded.run_statement (levels : Nat) (ts : List Token)
    (h : Bounded levels ⟨.statement, ts⟩) (s : Statement) (rest : List Token) :
    (statement levels).run ts = .ok (s, rest) ↔ (unlimited statement).run ts = .ok (s, rest) := by
  have hsimple := (h.call .assignment).run_simple
  induction levels generalizing ts s rest with
  | zero =>
    have hno : Avoids ts [.lbrace] := by
      intro t ht hk
      obtain ⟨us, rfl⟩ := List.head?_eq_some_iff.mp ht
      obtain ⟨deeper, hlevels, -⟩ := h.nest (.block (List.mem_singleton.mp hk))
      cases hlevels
    have hblock : (block (unlimited statement)).run ts = .error ts :=
      run_map_error _ (run_between_error (run_token_of_avoids hno))
    rw [statement, unlimited_statement, hsimple]
    cases hrun : (printing.orElse (assignment (unlimited expr))).run ts with
    | ok reading => rw [run_orElse hrun]
    | error stuck =>
      rw [run_orElse_of_error hrun, hblock]
      constructor
      · intro hread
        cases hread
      · intro hread
        cases hread
  | succ levels ih =>
    have hblock : (block (statement levels)).run ts = (block (unlimited statement)).run ts := by
      refine run_map_congr _ (run_between_congr rfl fun l mid hl => ?_)
      obtain ⟨_, rfl, rfl, hk⟩ := reads_token .lbrace _ _ _ hl
      obtain ⟨deeper, hlevels, hd⟩ := h.nest (.block hk)
      cases hlevels
      exact hd.many_of_run fun us hus s rest => ih us hus s rest (hus.call .assignment).run_simple
    rw [statement, unlimited_statement, run_orElse_congr hsimple fun _ _ => hblock]

theorem Bounded.many {ts : List Token} (h : Bounded levels ⟨.program, ts⟩) :
    (statement levels).many ts = (unlimited statement).many ts :=
  h.many_of_run (Bounded.run_statement levels)

theorem Bounded.run_simpleWith {ts : List Token} (h : Bounded levels ⟨.assignment, ts⟩)
    (kind : TokenKind) :
    (simpleWith (expr levels) kind).run ts = (simpleWith (unlimited expr) kind).run ts := by
  unfold simpleWith
  split
  · rfl
  · exact h.run_assignment

end Bounded

/-! ## 4. The parser and the walk -/

/-- A step is one of another walk that reads the same statement there. -/
theorem Step.congr {value value' : Rule Expr} {p q : Place} (h : Step value p q)
    (hsimple : ∀ kind, (simpleWith value kind).run p.tokens =
      (simpleWith value' kind).run p.tokens) : Step value' p q := by
  cases h with
  | enter ht => exact .enter ht
  | leave ht => exact .leave ht
  | pass hl hr hrun =>
    rw [hsimple] at hrun
    exact .pass hl hr hrun

section Walk

variable {ts : List Token} (hn : Nesting.check ts = .ok ())

include hn

/-- The calls of the parser are bounded. -/
theorem bounded_program : Bounded maxNesting ⟨.program, ts⟩ :=
  bounded_of_checkFrom (n := Nesting.start) (fun _ => rfl) (Nat.zero_le _) hn

/-- The calls of the walk are bounded, wherever it is. -/
theorem bounded_assignment {value : Rule Expr} (hv : value.Reads IsSum) {p : Place}
    (h : Walks value ⟨0, ts⟩ p) : Bounded maxNesting ⟨.assignment, p.tokens⟩ := by
  obtain ⟨read, rfl, hread⟩ := Enters.of_walks hv h
  obtain ⟨hd, hrest⟩ := checkFrom_split (Nat.zero_le _) hn
  rw [hread.scan] at hd hrest
  exact bounded_of_checkFrom (n := inBlocks p.blocks) (fun _ => rfl) hd hrest

theorem walks_iff_unlimited {p : Place} :
    Walks (expr maxNesting) ⟨0, ts⟩ p ↔ Walks (unlimited expr) ⟨0, ts⟩ p := by
  constructor
  · intro h
    induction h with
    | refl => exact .refl
    | tail hq hs ih =>
      have hsimple := (bounded_assignment hn (expr_reads _) hq).run_simpleWith
      exact ih.tail (hs.congr hsimple)
  · intro h
    induction h with
    | refl => exact .refl
    | tail hq hs ih =>
      have hsimple := (bounded_assignment hn (reads_unlimited expr_reads) hq).run_simpleWith
      exact ih.tail (hs.congr fun kind => (hsimple kind).symm)

theorem stopsAt_iff_unlimited {p : Place} {stuck : List Token}
    (h : Walks (unlimited expr) ⟨0, ts⟩ p) :
    StopsAt (expr maxNesting) p stuck ↔ StopsAt (unlimited expr) p stuck := by
  have hsimple := (bounded_assignment hn (reads_unlimited expr_reads) h).run_simpleWith
  refine exists_congr fun t => exists_congr fun us => and_congr_right fun htokens => ?_
  rw [← htokens, hsimple]

/-- **The walk is stuck where it would be without a limit.** -/
theorem walk_eq_error_iff_unlimited {stuck : List Token} :
    walk 0 ts = .error stuck ↔
      ∃ p, Walks (unlimited expr) ⟨0, ts⟩ p ∧ StopsAt (unlimited expr) p stuck := by
  rw [walk_eq_error_iff]
  refine exists_congr fun p => ?_
  rw [walks_iff_unlimited hn]
  exact and_congr_right (stopsAt_iff_unlimited hn)

end Walk

/-- **The nested calls of tokens that are not nested too deep are within the levels.** This is so in
    the parser and at every place of the walk to an error, whether the calls succeed or not. So the
    statements that are read, and the place where the walk ends or is stuck, are those of the rules
    without a limit. -/
theorem calls_within_levels {ts : List Token} (hn : Nesting.check ts = .ok ()) :
    (∀ n d, Active ⟨.program, ts⟩ n d → n ≤ maxNesting) ∧
    (∀ p, Walks (unlimited expr) ⟨0, ts⟩ p →
      ∀ n d, Active ⟨.assignment, p.tokens⟩ n d → n ≤ maxNesting) ∧
    (statement maxNesting).many ts = (unlimited statement).many ts ∧
    (∀ blocks, walk 0 ts = .ok blocks ↔ Walks (unlimited expr) ⟨0, ts⟩ ⟨blocks, []⟩) ∧
    (∀ stuck, walk 0 ts = .error stuck ↔
      ∃ p, Walks (unlimited expr) ⟨0, ts⟩ p ∧ StopsAt (unlimited expr) p stuck) := by
  refine ⟨bounded_program hn, fun p hp => bounded_assignment hn (reads_unlimited expr_reads) hp,
    (bounded_program hn).many, fun blocks => ?_, fun stuck => walk_eq_error_iff_unlimited hn⟩
  rw [walk_eq_ok_iff, walks_iff_unlimited hn]

/-- The tokens of `{x=(a^y};`, in which a brace closes a parenthesis. -/
def crossedBrackets : List Token :=
  [⟨.lbrace, "\x7b", 1⟩, ⟨.identifier, "x", 1⟩, ⟨.assign, "=", 1⟩, ⟨.lparen, "(", 1⟩,
    ⟨.identifier, "a", 1⟩, ⟨.caret, "^", 1⟩, ⟨.identifier, "y", 1⟩, ⟨.rbrace, "\x7d", 1⟩,
    ⟨.semicolon, ";", 1⟩]

/-- Crossed brackets are no program. Three nested calls are active where the exponent is read, one
    for the brace, one for the parenthesis and one for the power, and no more than there are
    levels. -/
theorem calls_of_crossedBrackets :
    Nesting.check crossedBrackets = .ok () ∧
    parse crossedBrackets = .error (.unexpected "\x7d" 1) ∧
    Active ⟨.program, crossedBrackets⟩ 3 ⟨.power, crossedBrackets.drop 6⟩ ∧ 3 ≤ maxNesting ∧
    (statement maxNesting).many crossedBrackets = (unlimited statement).many crossedBrackets := by
  have hn : Nesting.check crossedBrackets = .ok () := rfl
  have hsum : Active ⟨.program, crossedBrackets⟩ 2 ⟨.sum, crossedBrackets.drop 4⟩ :=
    (((Active.start.call .statement).nest (.block rfl)).call .statement).call .assignment
      |>.call (.value rfl rfl) |>.call .product |>.call .power |>.call .atom |>.nest (.paren rfl)
  have hactive : Active ⟨.program, crossedBrackets⟩ 3 ⟨.power, crossedBrackets.drop 6⟩ :=
    ((hsum.call .product).call .power).nest (.exponent (run_atom_name rfl _ _) rfl)
  obtain ⟨hparser, -, hmany, -⟩ := calls_within_levels hn
  exact ⟨hn, by with_unfolding_all rfl, hactive, hparser 3 _ hactive, hmany⟩

end Grammar

end Abacus
