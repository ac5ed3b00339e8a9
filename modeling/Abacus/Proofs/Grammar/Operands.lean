import Abacus.Proofs.Grammar.Walk

/-!
# Signs and operands

A sign between operands stands behind an operand and has an operand behind it. This file says what
that means for tokens that need not be a program:

* along the tokens one can tell whether they end outside an expression, before an operand or behind
  one (`Position`). Every expression leads from before an operand to behind one, and has an operand
  behind each of its signs (`IsSum.isRow`);
* behind a statement no expression is left open (`IsStatement.after`), wherever the walk has gone
  (`Enters.after`);
* an expression can go on with any sign (`IsSum.exists_extended`);
* the rule for expressions reads on as long as there are signs with operands behind them, so a sign
  that it leaves has none (`lacksOperand_of_run_expr`).
-/

namespace Abacus

/-- The kind of a sign between two operands. -/
def TokenKind.isSign : TokenKind → Bool
  | .plus | .minus | .star | .slash | .caret => true
  | _ => false

namespace Grammar

open Rule

/-- Each sign belongs to one of the three levels of an expression. -/
theorem isSign_cases {kind : TokenKind} (h : kind.isSign = true) :
    kind = .caret ∨ (∃ op, productOperator? kind = some op) ∨
      ∃ op, sumOperator? kind = some op := by
  cases kind with
  | caret => exact .inl rfl
  | star | slash => exact .inr (.inl ⟨_, rfl⟩)
  | plus | minus => exact .inr (.inr ⟨_, rfl⟩)
  | _ => cases h

theorem isSign_of_productOperator? {kind : TokenKind} {op : Operator}
    (h : productOperator? kind = some op) : kind.isSign = true := by
  rcases productOperator?_cases h with ⟨rfl, -⟩ | ⟨rfl, -⟩
  · rfl
  · rfl

theorem isSign_of_sumOperator? {kind : TokenKind} {op : Operator}
    (h : sumOperator? kind = some op) : kind.isSign = true := by
  rcases sumOperator?_cases h with ⟨rfl, -⟩ | ⟨rfl, -⟩
  · rfl
  · rfl

/-! ## 1. Operands behind signs -/

/-- No operand stands at the start of the tokens. -/
def LacksOperand (ts : List Token) : Prop := ∀ us rest e, ts = us ++ rest → ¬IsAtom us e

theorem LacksOperand.of_append {us vs : List Token} (h : LacksOperand (us ++ vs)) :
    LacksOperand us := by
  intro ws rest e hus
  refine h ws (rest ++ vs) e ?_
  rw [hus, List.append_assoc]

theorem IsAtom.not_lacksOperand {us : List Token} {e : Expr} (h : IsAtom us e) :
    ¬LacksOperand us := fun hlacks => hlacks us [] e (List.append_nil us).symm h

/-- Behind every sign stands an operand. -/
def HasOperands (ts : List Token) : Prop :=
  ∀ us t rest, ts = us ++ t :: rest → t.kind.isSign = true → ¬LacksOperand rest

theorem hasOperands_nil : HasOperands [] := fun us _ _ h =>
  absurd h.symm (List.append_ne_nil_of_right_ne_nil us (List.cons_ne_nil _ _))

theorem HasOperands.cons {t : Token} {ts : List Token} (h : HasOperands ts)
    (ht : t.kind.isSign = true → ¬LacksOperand ts) : HasOperands (t :: ts) := by
  intro us u rest hts hu
  cases us with
  | nil =>
    cases hts
    exact ht hu
  | cons v us =>
    cases hts
    exact h us u rest rfl hu

theorem hasOperands_singleton {t : Token} (ht : t.kind.isSign = false) : HasOperands [t] := by
  refine hasOperands_nil.cons fun h => ?_
  rw [ht] at h
  cases h

theorem HasOperands.append {us vs : List Token} (hu : HasOperands us) (hv : HasOperands vs) :
    HasOperands (us ++ vs) := by
  induction us with
  | nil => exact hv
  | cons t us ih =>
    have hus : HasOperands us := fun ws u rest h => hu (t :: ws) u rest (by rw [h]; rfl)
    refine (ih hus).cons fun ht hlacks => ?_
    exact hu [] t us rfl ht hlacks.of_append

/-! ## 2. Positions -/

/-- Where tokens end: outside an expression, before an operand or behind one. -/
inductive Position where
  | outside
  | before
  | behind
deriving DecidableEq

namespace Position

/-- The position behind a further token. -/
def step : Position → TokenKind → Position
  | _, .assign => .before
  | _, .semicolon | _, .lbrace | _, .rbrace | _, .print => .outside
  | .outside, _ => .outside
  | p, .newline => p
  | _, .lparen | _, .plus | _, .minus | _, .star | _, .slash | _, .caret => .before
  | _, .identifier | _, .number | _, .rparen => .behind

/-- The position behind some tokens. -/
def after (p : Position) (ts : List Token) : Position := ts.foldl (fun p t => p.step t.kind) p

theorem after_append (p : Position) (us vs : List Token) :
    p.after (us ++ vs) = (p.after us).after vs := List.foldl_append

theorem after_cons (p : Position) (t : Token) (ts : List Token) :
    p.after (t :: ts) = (p.step t.kind).after ts := rfl

theorem behind_step_of_isSign {kind : TokenKind} (h : kind.isSign = true) :
    behind.step kind = before := by
  cases kind with
  | plus | minus | star | slash | caret => rfl
  | _ => cases h

end Position

/-- The tokens end behind an operand of an expression. -/
def EndsOperand (ts : List Token) : Prop := Position.outside.after ts = .behind

/-- The tokens lead from before an operand to behind one, with an operand behind each sign. -/
structure IsRow (ts : List Token) : Prop where
  after : Position.before.after ts = .behind
  starts : ¬LacksOperand ts
  operands : HasOperands ts

/-- Two rows with a sign between them. -/
theorem IsRow.join {us vs : List Token} {t : Token} (hu : IsRow us) (ht : t.kind.isSign = true)
    (hv : IsRow vs) : IsRow (us ++ t :: vs) where
  after := by
    rw [Position.after_append, hu.after, Position.after_cons, Position.behind_step_of_isSign ht]
    exact hv.after
  starts h := hu.starts h.of_append
  operands := hu.operands.append (hv.operands.cons fun _ => hv.starts)

theorem isRow_singleton {t : Token} {e : Expr} (h : IsAtom [t] e)
    (hp : Position.before.step t.kind = .behind) (ht : t.kind.isSign = false) : IsRow [t] where
  after := hp
  starts := h.not_lacksOperand
  operands := hasOperands_singleton ht

mutual

theorem IsAtom.isRow {ts : List Token} {e : Expr} : IsAtom ts e → IsRow ts
  | @IsAtom.paren l r us e hl h hr =>
    { after := by
        rw [Position.after_cons, hl, Position.after_append]
        show (Position.before.after us).step r.kind = .behind
        rw [h.isRow.after, hr]
        rfl
      starts := (IsAtom.paren hl h hr).not_lacksOperand
      operands := (hasOperands_singleton (by rw [hl]; rfl)).append
        (h.isRow.operands.append (hasOperands_singleton (by rw [hr]; rfl))) }
  | .number ht hv => isRow_singleton (.number ht hv) (by rw [ht]; rfl) (by rw [ht]; rfl)
  | .name ht => isRow_singleton (.name ht) (by rw [ht]; rfl) (by rw [ht]; rfl)

theorem IsPower.isRow {ts : List Token} {e : Expr} : IsPower ts e → IsRow ts
  | .raise hb ht he => hb.isRow.join (by rw [ht]; rfl) he.isRow
  | .atom h => h.isRow

theorem IsProduct.isRow {ts : List Token} {e : Expr} : IsProduct ts e → IsRow ts
  | .join hl ht hr => hl.isRow.join (isSign_of_productOperator? ht) hr.isRow
  | .power h => h.isRow

/-- **An expression is a row of operands.** -/
theorem IsSum.isRow {ts : List Token} {e : Expr} : IsSum ts e → IsRow ts
  | .join hl ht hr => hl.isRow.join (isSign_of_sumOperator? ht) hr.isRow
  | .product h => h.isRow

end

/-! ## 3. Statements -/

/-- Behind a statement no expression is open. -/
theorem IsStatement.after {ts : List Token} {s : Statement} (h : IsStatement ts s) (p : Position) :
    p.after ts = .outside := by
  cases h with
  | @assign t a s us e ht ha h hs =>
    rw [Position.after_cons, Position.after_cons, ha, Position.after_append]
    have hbefore : ∀ q : Position, q.step .assign = .before := fun q => by cases q <;> rfl
    rw [hbefore, h.isRow.after, Position.after_cons, hs]
    rfl
  | print hp hl ht hr hs =>
    simp only [Position.after_cons, hp, hl, ht, hr, hs]
    cases p <;> rfl
  | @block l r us body hl h hr =>
    rw [Position.after_cons, Position.after_append, Position.after_cons, hr]
    cases (p.step l.kind).after us <;> rfl

mutual

theorem IsStatement.hasOperands {ts : List Token} {s : Statement} :
    IsStatement ts s → HasOperands ts
  | .assign ht ha h hs =>
    (hasOperands_singleton (by rw [ht]; rfl)).append
      ((hasOperands_singleton (by rw [ha]; rfl)).append
        (h.isRow.operands.append (hasOperands_singleton (by rw [hs]; rfl))))
  | .print hp hl ht hr hs =>
    (hasOperands_singleton (by rw [hp]; rfl)).append
      ((hasOperands_singleton (by rw [hl]; rfl)).append
        ((hasOperands_singleton (by rw [ht]; rfl)).append
          ((hasOperands_singleton (by rw [hr]; rfl)).append
            (hasOperands_singleton (by rw [hs]; rfl)))))
  | .block hl h hr =>
    (hasOperands_singleton (by rw [hl]; rfl)).append
      (h.hasOperands.append (hasOperands_singleton (by rw [hr]; rfl)))

theorem IsProgram.hasOperands {ts : List Token} {program : Program} :
    IsProgram ts program → HasOperands ts
  | .empty => hasOperands_nil
  | .snoc h hs => h.hasOperands.append hs.hasOperands

end

/-- No expression is open where the walk has come to. -/
theorem Enters.after {blocks : Nat} {us : List Token} (h : Enters blocks us) :
    Position.outside.after us = .outside := by
  cases h with
  | start => rfl
  | @enter blocks us l h hl =>
    rw [Position.after_append, Position.after_cons, hl]
    cases Position.outside.after us <;> rfl
  | @leave blocks us r h hr =>
    rw [Position.after_append, Position.after_cons, hr]
    cases Position.outside.after us <;> rfl
  | pass h hs => rw [Position.after_append, hs.after]

theorem Enters.hasOperands {blocks : Nat} {us : List Token} (h : Enters blocks us) :
    HasOperands us := by
  induction h with
  | start => exact hasOperands_nil
  | enter _ hl ih => exact ih.append (hasOperands_singleton (by rw [hl]; rfl))
  | leave _ hr ih => exact ih.append (hasOperands_singleton (by rw [hr]; rfl))
  | pass _ hs ih => exact ih.append hs.hasOperands

/-! ## 4. Expressions go on with a sign -/

theorem exists_isAtom : ∃ us e, IsAtom us e := ⟨[⟨.identifier, "x", 1⟩], .name "x", .name rfl⟩

/-- The new exponent belongs to the innermost power. -/
theorem IsPower.exists_extended {t : Token} (ht : t.kind = .caret) {us : List Token} {e : Expr} :
    IsPower us e → ∃ vs e', IsPower (us ++ t :: vs) e'
  | .raise hb ht' he => by
      obtain ⟨vs, e', hpower⟩ := he.exists_extended ht
      have hextended := IsPower.raise hb ht' hpower
      rw [← List.cons_append, ← List.append_assoc] at hextended
      exact ⟨vs, _, hextended⟩
  | .atom h => by
      obtain ⟨vs, e', hatom⟩ := exists_isAtom
      exact ⟨vs, _, .raise h ht (.atom hatom)⟩

theorem IsProduct.exists_extended {t : Token}
    (ht : t.kind = .caret ∨ ∃ op, productOperator? t.kind = some op) {us : List Token} {e : Expr}
    (h : IsProduct us e) : ∃ vs e', IsProduct (us ++ t :: vs) e' := by
  rcases ht with ht | ⟨op, ht⟩
  · cases h with
    | join hl ht' hr =>
      obtain ⟨vs, e', hpower⟩ := hr.exists_extended ht
      have hextended := IsProduct.join hl ht' hpower
      rw [← List.cons_append, ← List.append_assoc] at hextended
      exact ⟨vs, _, hextended⟩
    | power h =>
      obtain ⟨vs, e', hpower⟩ := h.exists_extended ht
      exact ⟨vs, e', .power hpower⟩
  · obtain ⟨vs, e', hatom⟩ := exists_isAtom
    exact ⟨vs, _, .join h ht (.atom hatom)⟩

/-- **Behind an expression any sign can stand.** -/
theorem IsSum.exists_extended {t : Token} (ht : t.kind.isSign = true) {us : List Token} {e : Expr}
    (h : IsSum us e) : ∃ vs e', IsSum (us ++ t :: vs) e' := by
  rcases or_assoc.mpr (isSign_cases ht) with ht | ⟨op, ht⟩
  · cases h with
    | join hl ht' hr =>
      obtain ⟨vs, e', hproduct⟩ := hr.exists_extended ht
      have hextended := IsSum.join hl ht' hproduct
      rw [← List.cons_append, ← List.append_assoc] at hextended
      exact ⟨vs, _, hextended⟩
    | product h =>
      obtain ⟨vs, e', hproduct⟩ := h.exists_extended ht
      exact ⟨vs, e', .product hproduct⟩
  · obtain ⟨vs, e', hatom⟩ := exists_isAtom
    exact ⟨vs, _, .join h ht (.power (.atom hatom))⟩

/-! ## 5. What the rule for expressions leaves -/

/-- The tokens do not start with a sign. -/
def AvoidsSign (ts : List Token) : Prop := ∀ t ∈ ts.head?, t.kind.isSign = false

/-- An expression is read with anything behind it that does not start with a sign. -/
theorem IsSum.run_unlimited_of_avoidsSign {us : List Token} {e : Expr} (h : IsSum us e)
    {rest : List Token} (hrest : AvoidsSign rest) :
    (unlimited expr).run (us ++ rest) = .ok (e, rest) := by
  refine h.run_unlimited fun t ht hk => ?_
  have hsign := hrest t ht
  simp only [List.mem_cons, List.not_mem_nil, or_false] at hk
  rcases hk with hk | hk | hk | hk | hk
  all_goals
    rw [hk] at hsign
    cases hsign

/-- An atom of any depth is read whatever follows it. -/
theorem IsAtom.run_unlimited {us : List Token} {e : Expr} (h : IsAtom us e) (rest : List Token) :
    (atom (unlimited expr)).run (us ++ rest) = .ok (e, rest) := by
  have hagrees : (atom (unlimited expr)).Agrees ((us ++ rest).length + 1)
      (atom (expr (max (us ++ rest).length e.depth))) :=
    atom_agrees (expr_settles.agrees (by omega))
  rw [hagrees _ (Nat.lt_succ_self _)]
  exact h.run (max (us ++ rest).length e.depth + 1) (by omega) rest

theorem lacksOperand_of_run {ts stuck : List Token}
    (h : (atom (unlimited expr)).run ts = .error stuck) : LacksOperand ts := by
  intro us rest e hts hatom
  rw [hts, hatom.run_unlimited rest] at h
  cases h

theorem run_power_eq_error {ts stuck : List Token} :
    (unlimited power).run ts = .error stuck ↔ (atom (unlimited expr)).run ts = .error stuck := by
  rw [unlimited_power]
  exact run_map_eq_error.trans run_pairOption_eq_error

theorem run_product_eq_error {ts stuck : List Token} :
    (product (unlimited power)).run ts = .error stuck ↔
      (atom (unlimited expr)).run ts = .error stuck :=
  run_fold_eq_error.trans run_power_eq_error

/-- An expression is stuck where its first operand is. -/
theorem run_expr_eq_error {ts stuck : List Token} :
    (unlimited expr).run ts = .error stuck ↔ (atom (unlimited expr)).run ts = .error stuck := by
  refine Iff.trans ?_ run_product_eq_error
  rw [unlimited_expr]
  exact run_fold_eq_error

/-- Behind a power there is no further exponent. -/
theorem power_exhausts : (unlimited power).Exhausts ((token .caret).right (unlimited power)) := by
  intro ts e rest h
  induction hlen : ts.length using Nat.strongRecOn generalizing ts e with
  | ind n ih =>
    rw [unlimited_power] at h
    obtain ⟨⟨b, o⟩, -, hpair⟩ := exists_of_run_map h
    rcases exists_of_run_pairOption hpair with ⟨-, hstuck⟩ | ⟨exponent, mid, hb, hs⟩
    · exact hstuck
    · obtain ⟨t, behind, ht, he⟩ := exists_of_run_right hs
      have hmid := (atom _).shrinks hb
      have hbehind := (token .caret).shrinks ht
      exact ih behind.length (by omega) behind exponent he rfl

theorem joined_exhausts (operand : Rule Expr) (operator : Rule Operator) :
    (joined operand operator).Exhausts (operator.pair operand) := fold_exhausts _ _ _

theorem exhausts_joined {α : Type} {operand : Rule Expr} {q : Rule α} (h : operand.Exhausts q)
    (operator : Rule Operator) : (joined operand operator).Exhausts q := h.fold h.pair

/-- **A sign behind an expression has no operand behind it.** -/
theorem lacksOperand_of_run_expr {ts rest : List Token} {e : Expr} {t : Token}
    (h : (unlimited expr).run ts = .ok (e, t :: rest)) (ht : t.kind.isSign = true) :
    LacksOperand rest := by
  rw [unlimited_expr] at h
  rcases isSign_cases ht with hk | ⟨op, hop⟩ | ⟨op, hop⟩
  · obtain ⟨stuck, hstuck⟩ := exhausts_joined (exhausts_joined power_exhausts _) _ _ _ _ h
    rw [right, run_map_eq_error, run_pair_eq_error_of_run (run_token hk), run_power_eq_error]
      at hstuck
    exact lacksOperand_of_run hstuck
  · obtain ⟨stuck, hstuck⟩ := exhausts_joined (joined_exhausts _ _) _ _ _ _ h
    rw [run_pair_eq_error_of_run (run_productSign hop rest), run_power_eq_error] at hstuck
    exact lacksOperand_of_run hstuck
  · obtain ⟨stuck, hstuck⟩ := joined_exhausts _ _ _ _ _ h
    rw [run_pair_eq_error_of_run (run_sumSign hop rest), run_product_eq_error] at hstuck
    exact lacksOperand_of_run hstuck

end Grammar

end Abacus
