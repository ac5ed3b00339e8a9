import Abacus.Proofs.Grammar.Parsing

/-!
# The grammar without a limit

The rules of the grammar are given a number of levels, so that no rule calls itself without end.
More levels than tokens make no difference: every bracket and every `^` is a token, so what is
inside has fewer tokens left, and fewer levels do. This file makes that precise:

* two rules agree below a bound if they read all lists of fewer tokens in the same way
  (`Rule.Agrees`). Every way to put rules together keeps this, and behind a first phrase the bound
  may be one less;
* so the rules settle: with enough levels for the tokens, they give the same whatever the number of
  levels is (`power_settles`, `statement_settles`);
* a rule with as many levels as there are tokens has no limit (`Rule.unlimited`). These rules are
  what the grammar says when it is read as a recursion without levels (`unlimited_power`,
  `unlimited_statement`).

Main statement: the rules without a limit read all programs, and nothing else
(`many_unlimited_iff`).
-/

namespace Abacus

/-! ## 1. Rules that agree -/

namespace Rule

variable {α β γ : Type} {n : Nat} {r r' : Rule α} {s s' : Rule β}

/-- The rules read all lists of fewer than `n` tokens in the same way. -/
def Agrees (n : Nat) (r r' : Rule α) : Prop :=
  ∀ ts : List Token, ts.length < n → r.run ts = r'.run ts

theorem agrees_refl (n : Nat) (r : Rule α) : r.Agrees n r := fun _ _ => rfl

theorem agrees_zero (r r' : Rule α) : r.Agrees 0 r' := fun _ h => absurd h (Nat.not_lt_zero _)

theorem Agrees.mono {m : Nat} (h : r.Agrees n r') (hm : m ≤ n) : r.Agrees m r' :=
  fun ts hts => h ts (Nat.lt_of_lt_of_le hts hm)

theorem Agrees.iff (h : r.Agrees n r') (ts : List Token) (hts : ts.length < n) (a : α)
    (rest : List Token) : r.run ts = .ok (a, rest) ↔ r'.run ts = .ok (a, rest) := by
  rw [h ts hts]

theorem Agrees.map (hr : r.Agrees n r') (f : α → β) : (r.map f).Agrees n (r'.map f) :=
  fun ts hts => run_map_congr f (hr ts hts)

theorem Agrees.orElse {q q' : Rule α} (hr : r.Agrees n r') (hq : q.Agrees n q') :
    (r.orElse q).Agrees n (r'.orElse q') :=
  fun ts hts => run_orElse_congr (hr ts hts) fun _ _ => hq ts hts

/-- Behind a phrase there are fewer tokens. -/
theorem lt_of_run {ts rest : List Token} {a : α} (hts : ts.length < n)
    (h : r.run ts = .ok (a, rest)) : rest.length < n := Nat.lt_trans (r.shrinks h) hts

theorem Agrees.behind (hs : s.Agrees (n - 1) s') {ts mid : List Token} {a : α}
    (hts : ts.length < n) (h : r'.run ts = .ok (a, mid)) : s.run mid = s'.run mid := by
  have hmid := r'.shrinks h
  exact hs mid (by omega)

theorem Agrees.pair (hr : r.Agrees n r') (hs : s.Agrees (n - 1) s') :
    (r.pair s).Agrees n (r'.pair s') :=
  fun ts hts => run_pair_congr (hr ts hts) fun _ _ => hs.behind hts

theorem Agrees.left (hr : r.Agrees n r') (hs : s.Agrees (n - 1) s') :
    (r.left s).Agrees n (r'.left s') := (hr.pair hs).map Prod.fst

theorem Agrees.right (hr : r.Agrees n r') (hs : s.Agrees (n - 1) s') :
    (r.right s).Agrees n (r'.right s') := (hr.pair hs).map Prod.snd

theorem Agrees.pairOption (hr : r.Agrees n r') (hs : s.Agrees (n - 1) s') :
    (r.pairOption s).Agrees n (r'.pairOption s') :=
  fun ts hts => run_pairOption_congr (hr ts hts) fun _ _ => hs.behind hts

theorem Agrees.fold {f : α → β → α} (hr : r.Agrees n r') (hs : s.Agrees (n - 1) s') :
    (r.fold s f).Agrees n (r'.fold s' f) := by
  intro ts hts
  refine run_fold_congr (hr ts hts) fun a mid h => ?_
  have hmid := r'.shrinks h
  exact foldFrom_congr hs.iff (fun _ _ _ => lt_of_run) a mid (by omega)

theorem Agrees.many (hs : s.Agrees n s') {ts : List Token} (hts : ts.length < n) :
    s.many ts = s'.many ts := many_congr hs.iff (fun _ _ _ => lt_of_run) hts

theorem Agrees.between {c : Rule γ} (hr : r.Agrees n r') (hs : s.Agrees (n - 1) s') :
    (between r s c).Agrees n (between r' s' c) := by
  intro ts hts
  refine run_between_congr (hr ts hts) fun a mid h => hs.many ?_
  have hmid := r'.shrinks h
  omega

/-- With enough levels for the tokens the number of levels makes no difference. -/
def Settles (rule : Nat → Rule α) : Prop :=
  ∀ n levels levels' : Nat, n ≤ levels + 1 → n ≤ levels' + 1 →
    (rule levels).Agrees n (rule levels')

/-- The rule with as many levels as there are tokens. -/
def unlimited (rule : Nat → Rule α) : Rule α where
  run ts := (rule ts.length).run ts
  shrinks h := (rule _).shrinks h

theorem Settles.agrees {rule : Nat → Rule α} (h : Settles rule) {levels : Nat}
    (hn : n ≤ levels + 1) : (unlimited rule).Agrees n (rule levels) :=
  fun ts hts =>
    h (ts.length + 1) ts.length levels (Nat.le_refl _) (by omega) ts (Nat.lt_succ_self _)

theorem Settles.run {rule : Nat → Rule α} (h : Settles rule) {levels : Nat} {ts : List Token}
    (hts : ts.length ≤ levels) : (unlimited rule).run ts = (rule levels).run ts :=
  h.agrees (Nat.le_refl _) ts (Nat.lt_succ_of_le hts)

theorem eq_of_run {r r' : Rule α} (h : ∀ ts, r.run ts = r'.run ts) : r = r' := by
  cases r
  cases r'
  congr
  exact funext h

theorem reads_unlimited {rule : Nat → Rule α} {R : List Token → α → Prop}
    (h : ∀ levels, (rule levels).Reads R) : (unlimited rule).Reads R :=
  fun ts => h ts.length ts

end Rule

namespace Grammar

open Rule

/-! ## 2. The rules of the grammar settle -/

section Agrees

variable {n : Nat}

theorem atom_agrees {inner inner' : Rule Expr} (h : inner.Agrees (n - 1) inner') :
    (atom inner).Agrees n (atom inner') :=
  (agrees_refl n _).orElse
    (((agrees_refl n _).right (h.left (agrees_refl _ _))).map Expr.paren)

theorem powerOf_agrees {inner inner' exponent exponent' : Rule Expr}
    (hi : inner.Agrees (n - 1) inner') (he : exponent.Agrees (n - 1) exponent') :
    (powerOf inner exponent).Agrees n (powerOf inner' exponent') :=
  ((atom_agrees hi).pairOption
    ((agrees_refl _ _).right (he.mono (Nat.sub_le _ _)))).map _

theorem joined_agrees {operand operand' : Rule Expr} (h : operand.Agrees n operand')
    (operator : Rule Operator) : (joined operand operator).Agrees n (joined operand' operator) :=
  h.fold ((agrees_refl _ _).pair (h.mono (by omega)))

theorem expr_agrees {power power' : Rule Expr} (h : power.Agrees n power') :
    (sum (product power)).Agrees n (sum (product power')) :=
  joined_agrees (joined_agrees h _) _

theorem assignment_agrees {value value' : Rule Expr} (h : value.Agrees n value') :
    (assignment value).Agrees n (assignment value') :=
  ((agrees_refl n _).pair ((h.mono (Nat.sub_le _ _)).left (agrees_refl _ _))).map _

theorem simple_agrees {value value' : Rule Expr} (h : value.Agrees n value') :
    (printing.orElse (assignment value)).Agrees n (printing.orElse (assignment value')) :=
  (agrees_refl n _).orElse (assignment_agrees h)

theorem block_agrees {inner inner' : Rule Statement} (h : inner.Agrees (n - 1) inner') :
    (block inner).Agrees n (block inner') :=
  ((agrees_refl n _).between h).map _

end Agrees

/-- One level deeper there is one token less. -/
theorem below_agrees {α : Type} {rule : Nat → Rule α} {n levels levels' : Nat}
    (h : ∀ levels levels' : Nat, n ≤ levels + 1 → n ≤ levels' + 1 →
      (rule levels).Agrees n (rule levels'))
    (hn : n ≤ levels) (hn' : n ≤ levels') :
    (below rule levels).Agrees n (below rule levels') := by
  cases n with
  | zero => exact agrees_zero _ _
  | succ n =>
    cases levels with
    | zero => omega
    | succ levels =>
      cases levels' with
      | zero => omega
      | succ levels' => exact h levels levels' hn hn'

theorem power_settles : Settles power := by
  intro n
  induction n with
  | zero => exact fun _ _ _ _ => agrees_zero _ _
  | succ n ih =>
    intro levels levels' hn hn'
    rw [power_eq, power_eq]
    exact powerOf_agrees
      (below_agrees (fun l l' h h' => expr_agrees (ih l l' h h')) (by omega) (by omega))
      (below_agrees ih (by omega) (by omega))

theorem expr_settles : Settles expr :=
  fun n levels levels' hn hn' => expr_agrees (power_settles n levels levels' hn hn')

theorem statement_settles : Settles statement := by
  intro n
  induction n with
  | zero => exact fun _ _ _ _ => agrees_zero _ _
  | succ n ih =>
    intro levels levels' hn hn'
    cases n with
    | zero =>
      -- there are no tokens, and no statement starts without one
      intro ts hts
      rw [List.length_eq_zero_iff.mp (Nat.lt_one_iff.mp hts),
        run_statement_of_avoids (avoids_nil _), run_statement_of_avoids (avoids_nil _)]
    | succ n =>
      cases levels with
      | zero => omega
      | succ levels =>
        cases levels' with
        | zero => omega
        | succ levels' =>
          exact (simple_agrees (expr_settles _ _ _ hn hn')).orElse
            (block_agrees (ih levels levels' (by omega) (by omega)))

/-! ## 3. The recursion without levels -/

/-- A power is an atom, raised to a power if one follows. -/
theorem unlimited_power : unlimited power = powerOf (unlimited expr) (unlimited power) := by
  refine eq_of_run fun ts => ?_
  have hrules : (powerOf (unlimited expr) (unlimited power)).Agrees (ts.length + 1)
      (power (ts.length + 1)) :=
    powerOf_agrees (expr_settles.agrees (Nat.le_succ _)) (power_settles.agrees (Nat.le_succ _))
  rw [power_settles.run (Nat.le_succ _), hrules ts (Nat.lt_succ_self _)]

/-- An expression is a sum of products of powers. -/
theorem unlimited_expr : unlimited expr = sum (product (unlimited power)) := by
  refine eq_of_run fun ts => ?_
  have hrules : (sum (product (unlimited power))).Agrees (ts.length + 1) (expr ts.length) :=
    expr_agrees (power_settles.agrees (Nat.le_refl _))
  rw [expr_settles.run (Nat.le_refl _), hrules ts (Nat.lt_succ_self _)]

/-- A statement is a print statement, an assignment of an expression or a block of statements. -/
theorem unlimited_statement :
    unlimited statement =
      (printing.orElse (assignment (unlimited expr))).orElse (block (unlimited statement)) := by
  refine eq_of_run fun ts => ?_
  have hrules : ((printing.orElse (assignment (unlimited expr))).orElse
      (block (unlimited statement))).Agrees (ts.length + 1) (statement (ts.length + 1)) :=
    (simple_agrees (expr_settles.agrees (Nat.le_succ _))).orElse
      (block_agrees (statement_settles.agrees (Nat.le_succ _)))
  rw [statement_settles.run (Nat.le_succ _), hrules ts (Nat.lt_succ_self _)]

/-! ## 4. What is read without a limit -/

/-- A sum of any depth is read if no further sign follows it. -/
theorem IsSum.run_unlimited {ts : List Token} {e : Expr} (h : IsSum ts e) {rest : List Token}
    (hrest : Avoids rest [.caret, .star, .slash, .plus, .minus]) :
    (unlimited expr).run (ts ++ rest) = .ok (e, rest) := by
  rw [expr_settles.run (Nat.le_max_left (ts ++ rest).length e.depth)]
  exact h.run (Nat.le_max_right _ _) hrest

/-- **The rules without a limit read exactly the programs.** -/
theorem many_unlimited_iff {ts : List Token} {program : Program} :
    (unlimited statement).many ts = (program, []) ↔ IsProgram ts program := by
  constructor
  · intro h
    have hprogram := isProgram_of_many (reads_unlimited statement_reads) (congrArg Prod.snd h)
    rwa [h] at hprogram
  · intro h
    have hagrees : (unlimited statement).Agrees (ts.length + 1)
        (statement (max ts.length (Program.depth program))) :=
      statement_settles.agrees (Nat.succ_le_succ (Nat.le_max_left _ _))
    rw [hagrees.many (Nat.lt_succ_self _)]
    exact h.many (Nat.le_max_right _ _)

end Grammar

end Abacus
