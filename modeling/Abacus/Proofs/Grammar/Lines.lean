import Abacus.Grammar.Parser
import Abacus.Proofs.Grammar.Reading
import Abacus.Proofs.Token.Lines

/-!
# The grammar does not look at lines

The line of a token is carried along and never asked for. So tokens that are moved down are read as
the same program, and an error is the same error moved down. For the rules this is one statement,
kept by every way to put rules together: a rule moves with its tokens (`Rule.Moves`). What the rule
gives may hold tokens itself, and then those are moved as well.

Main statement: tokens that are moved down give the same program or the same error, moved down
(`parse_below`).
-/

namespace Abacus

/-! ## 1. Rules -/

namespace Rule

variable {α β γ : Type} {lines : Nat} {r : Rule α} {s : Rule β} {g : α → α} {g' : β → β}

/-- What a rule gives for tokens that are moved down, if `g` moves the meanings. -/
def moved (lines : Nat) (g : α → α) : Reading α → Reading α
  | .ok (a, rest) => .ok (g a, rest.map (Token.below lines))
  | .error stuck => .error (stuck.map (Token.below lines))

/-- The rule reads tokens that are moved down as it reads them where they are. -/
def Moves (lines : Nat) (g : α → α) (r : Rule α) : Prop :=
  ∀ ts, r.run (ts.map (Token.below lines)) = moved lines g (r.run ts)

theorem moves_fail (g : α → α) : (fail : Rule α).Moves lines g := fun _ => rfl

theorem moves_token (kind : TokenKind) : (token kind).Moves lines (Token.below lines) := by
  intro ts
  cases ts with
  | nil => rfl
  | cons t ts =>
    simp only [token, List.map_cons, Token.below]
    split
    · rfl
    · rfl

theorem Moves.filterMap {f : α → Option β} (hr : r.Moves lines g)
    (hf : ∀ a, f (g a) = (f a).map g') : (r.filterMap f).Moves lines g' := by
  intro ts
  simp only [Rule.filterMap, hr ts]
  cases r.run ts with
  | error stuck => rfl
  | ok reading =>
    simp only [moved, hf]
    cases f reading.1 with
    | none => rfl
    | some b => rfl

theorem Moves.map {f : α → β} (hr : r.Moves lines g) (hf : ∀ a, f (g a) = g' (f a)) :
    (r.map f).Moves lines g' := by
  intro ts
  simp only [Rule.map, hr ts]
  cases r.run ts with
  | error stuck => rfl
  | ok reading => simp only [moved, hf]

theorem Moves.pair (hr : r.Moves lines g) (hs : s.Moves lines g') :
    (r.pair s).Moves lines (Prod.map g g') := by
  intro ts
  simp only [Rule.pair, hr ts]
  cases r.run ts with
  | error stuck => rfl
  | ok reading =>
    simp only [moved, hs reading.2]
    cases s.run reading.2 with
    | error stuck => rfl
    | ok reading' => rfl

theorem Moves.left (hr : r.Moves lines g) (hs : s.Moves lines g') : (r.left s).Moves lines g :=
  (hr.pair hs).map fun _ => rfl

theorem Moves.right (hr : r.Moves lines g) (hs : s.Moves lines g') :
    (r.right s).Moves lines g' := (hr.pair hs).map fun _ => rfl

theorem Moves.orElse {r' : Rule α} (hr : r.Moves lines g) (hr' : r'.Moves lines g) :
    (r.orElse r').Moves lines g := by
  intro ts
  simp only [Rule.orElse, hr ts]
  cases r.run ts with
  | error stuck => exact hr' ts
  | ok reading => rfl

theorem Moves.pairOption (hr : r.Moves lines g) (hs : s.Moves lines g') :
    (r.pairOption s).Moves lines (Prod.map g (Option.map g')) := by
  intro ts
  simp only [Rule.pairOption, hr ts]
  cases r.run ts with
  | error stuck => rfl
  | ok reading =>
    simp only [moved, hs reading.2]
    cases s.run reading.2 with
    | error stuck => rfl
    | ok reading' => rfl

/-- A repetition moves with its tokens. -/
theorem Moves.foldFrom {f : α → β → α} (hs : s.Moves lines g')
    (hf : ∀ a b, f (g a) (g' b) = g (f a b)) (a : α) (ts : List Token) :
    foldFrom s f (g a) (ts.map (Token.below lines)) =
      (g (foldFrom s f a ts).1, (foldFrom s f a ts).2.map (Token.below lines)) := by
  fun_induction Rule.foldFrom s f a ts with
  | case1 a ts b rest hb ih =>
    have hmoved : s.run (ts.map (Token.below lines)) =
        .ok (g' b, rest.map (Token.below lines)) := by rw [hs ts, hb]; rfl
    rw [foldFrom_of_run hmoved, hf, ih]
  | case2 a ts stuck hb =>
    have hmoved : s.run (ts.map (Token.below lines)) = .error (stuck.map (Token.below lines)) := by
      rw [hs ts, hb]; rfl
    rw [foldFrom_of_error hmoved]

theorem Moves.fold {f : α → β → α} (hr : r.Moves lines g) (hs : s.Moves lines g')
    (hf : ∀ a b, f (g a) (g' b) = g (f a b)) : (r.fold s f).Moves lines g := by
  intro ts
  simp only [Rule.fold, hr ts]
  cases r.run ts with
  | error stuck => rfl
  | ok reading => exact congrArg Except.ok (Moves.foldFrom hs hf reading.1 reading.2)

theorem Moves.many (hs : s.Moves lines id) (ts : List Token) :
    s.many (ts.map (Token.below lines)) =
      ((s.many ts).1, (s.many ts).2.map (Token.below lines)) := by
  have hfold := Moves.foldFrom (f := Array.push) (g := id) hs (fun _ _ => rfl) #[] ts
  exact congrArg (fun reading => (reading.1.toList, reading.2)) hfold

theorem Moves.between {c : Rule γ} {g'' : γ → γ} (hr : r.Moves lines g) (hs : s.Moves lines id)
    (hc : c.Moves lines g'') : (between r s c).Moves lines id := by
  intro ts
  simp only [Rule.between, hr ts]
  cases r.run ts with
  | error stuck => rfl
  | ok reading =>
    simp only [moved, hs.many reading.2, hc (s.many reading.2).2]
    cases c.run (s.many reading.2).2 with
    | error stuck => rfl
    | ok reading' => rfl

end Rule

/-! ## 2. The rules of the grammar -/

namespace Grammar

open Rule

variable {lines : Nat}

theorem constant_moves : constant.Moves lines id :=
  (moves_token .number).filterMap fun _ => Option.map_id_apply.symm

theorem identifier_moves : identifier.Moves lines id :=
  (moves_token .identifier).map fun _ => rfl

theorem atom_moves {inner : Rule Expr} (h : inner.Moves lines id) :
    (atom inner).Moves lines id :=
  (constant_moves.orElse (identifier_moves.map fun _ => rfl)).orElse
    (((moves_token .lparen).right (h.left (moves_token .rparen))).map fun _ => rfl)

theorem sign_moves (kind : TokenKind) (op : Operator) : (sign kind op).Moves lines id :=
  (moves_token kind).map fun _ => rfl

theorem powerOf_moves {inner exponent : Rule Expr} (hi : inner.Moves lines id)
    (he : exponent.Moves lines id) : (powerOf inner exponent).Moves lines id := by
  refine ((atom_moves hi).pairOption ((moves_token .caret).right he)).map ?_
  rintro ⟨base, _ | e⟩
  · rfl
  · rfl

theorem joined_moves {operand : Rule Expr} {operator : Rule Operator}
    (h : operand.Moves lines id) (hs : operator.Moves lines id) :
    (joined operand operator).Moves lines id := h.fold (hs.pair h) fun _ _ => rfl

theorem product_moves {power : Rule Expr} (h : power.Moves lines id) :
    (product power).Moves lines id :=
  joined_moves h ((sign_moves _ _).orElse (sign_moves _ _))

theorem sum_moves {product : Rule Expr} (h : product.Moves lines id) :
    (sum product).Moves lines id :=
  joined_moves h ((sign_moves _ _).orElse (sign_moves _ _))

theorem power_moves : ∀ levels : Nat, (power levels).Moves lines id
  | 0 => powerOf_moves (moves_fail id) (moves_fail id)
  | levels + 1 =>
    powerOf_moves (sum_moves (product_moves (power_moves levels))) (power_moves levels)

theorem expr_moves (levels : Nat) : (expr levels).Moves lines id :=
  sum_moves (product_moves (power_moves levels))

theorem assignment_moves {value : Rule Expr} (h : value.Moves lines id) :
    (assignment value).Moves lines id :=
  ((identifier_moves.left (moves_token .assign)).pair (h.left (moves_token .semicolon))).map
    fun _ => rfl

theorem printing_moves : printing.Moves lines id :=
  ((((moves_token .print).right ((moves_token .lparen).right identifier_moves)).left
    (moves_token .rparen)).left (moves_token .semicolon)).map fun _ => rfl

theorem block_moves {inner : Rule Statement} (h : inner.Moves lines id) :
    (block inner).Moves lines id :=
  ((moves_token .lbrace).between h (moves_token .rbrace)).map fun _ => rfl

theorem statement_moves : ∀ levels : Nat, (statement levels).Moves lines id
  | 0 => printing_moves.orElse (assignment_moves (expr_moves 0))
  | levels + 1 =>
    (printing_moves.orElse (assignment_moves (expr_moves (levels + 1)))).orElse
      (block_moves (statement_moves levels))

theorem simple_moves (lines : Nat) (kind : TokenKind) : (simple kind).Moves lines id := by
  unfold simple
  split
  · exact printing_moves
  · exact assignment_moves (expr_moves _)

/-! ## 3. The walk through the statements -/

section Walk

variable {blocks : Nat} {t : Token} {ts : List Token}

theorem walk_lbrace (ht : t.kind = .lbrace) : walk blocks (t :: ts) = walk (blocks + 1) ts := by
  rw [walk, if_pos ht]

theorem walk_rbrace (ht : t.kind = .rbrace) (hb : 0 < blocks) :
    walk blocks (t :: ts) = walk (blocks - 1) ts := by
  have hl : t.kind ≠ .lbrace := by rw [ht]; decide
  rw [walk, if_neg hl, if_pos ⟨ht, hb⟩]

theorem walk_of_run {s : Statement} {rest : List Token} (hl : t.kind ≠ .lbrace)
    (hr : ¬(t.kind = .rbrace ∧ 0 < blocks)) (h : (simple t.kind).run (t :: ts) = .ok (s, rest)) :
    walk blocks (t :: ts) = walk blocks rest := by
  rw [walk, if_neg hl, if_neg hr]
  split
  · rename_i h'
    rw [h] at h'
    cases h'
    rfl
  · rename_i h'
    rw [h] at h'
    cases h'

theorem walk_of_stuck {stuck : List Token} (hl : t.kind ≠ .lbrace)
    (hr : ¬(t.kind = .rbrace ∧ 0 < blocks)) (h : (simple t.kind).run (t :: ts) = .error stuck) :
    walk blocks (t :: ts) = .error stuck := by
  rw [walk, if_neg hl, if_neg hr]
  split
  · rename_i h'
    rw [h] at h'
    cases h'
  · rename_i h'
    rw [h] at h'
    cases h'
    rfl

end Walk

theorem walk_below (lines blocks : Nat) (ts : List Token) :
    walk blocks (ts.map (Token.below lines)) =
      (walk blocks ts).mapError (List.map (Token.below lines)) := by
  fun_induction walk blocks ts with
  | case1 blocks =>
    rw [List.map_nil, walk]
    rfl
  | case2 blocks t ts hl ih =>
    rw [List.map_cons, ← ih]
    exact walk_lbrace hl
  | case3 blocks t ts hl hr ih =>
    rw [List.map_cons, ← ih]
    exact walk_rbrace hr.1 hr.2
  | case4 blocks t ts hl hr s rest hs ih =>
    have hmoved := simple_moves lines t.kind (t :: ts)
    rw [hs] at hmoved
    rw [List.map_cons, ← ih]
    exact walk_of_run hl hr hmoved
  | case5 blocks t ts hl hr stuck hs =>
    have hmoved := simple_moves lines t.kind (t :: ts)
    rw [hs] at hmoved
    rw [List.map_cons]
    exact walk_of_stuck hl hr hmoved

theorem errorAt_below (lines : Nat) (ts : List Token) :
    errorAt (ts.map (Token.below lines)) = (errorAt ts).below lines := by
  cases ts with
  | nil => rfl
  | cons t ts => rfl

theorem locate_below (lines : Nat) (ts : List Token) :
    locate (ts.map (Token.below lines)) = (locate ts).below lines := by
  rw [locate, locate, walk_below]
  cases walk 0 ts with
  | error stuck => exact errorAt_below lines stuck
  | ok blocks => rfl

end Grammar

/-! ## 4. Programs -/

theorem Nesting.checkFrom_below (lines : Nat) (n : Nesting) (ts : List Token) :
    n.checkFrom (ts.map (Token.below lines)) =
      (n.checkFrom ts).mapError (SyntaxError.below lines) := by
  induction ts generalizing n with
  | nil => rfl
  | cons t ts ih =>
    by_cases hd : maxNesting < (n.step t.kind).depth
    · have hmoved : maxNesting < (n.step (t.below lines).kind).depth := hd
      simp only [List.map_cons, checkFrom, if_pos hd, if_pos hmoved]
      rfl
    · have hmoved : ¬maxNesting < (n.step (t.below lines).kind).depth := hd
      simp only [List.map_cons, checkFrom, if_neg hd, if_neg hmoved]
      exact ih _

/-- **Tokens that are moved down give the same program**, or the same error moved down. -/
theorem Grammar.parse_below (lines : Nat) (ts : List Token) :
    parse (ts.map (Token.below lines)) = (parse ts).mapError (SyntaxError.below lines) := by
  rw [parse, parse, Nesting.check, Nesting.check, Nesting.checkFrom_below,
    (statement_moves maxNesting).many ts, locate_below]
  cases Nesting.start.checkFrom ts with
  | error error => rfl
  | ok done =>
    obtain ⟨program, rest⟩ := (statement maxNesting).many ts
    cases rest with
    | nil => rfl
    | cons t rest => rfl

end Abacus
