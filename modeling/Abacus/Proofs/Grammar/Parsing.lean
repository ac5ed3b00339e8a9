import Abacus.Grammar.Parser
import Abacus.Proofs.Grammar.Depth
import Abacus.Proofs.Grammar.Reading

/-!
# The rules read the grammar

The rules of the parser take the first choice that fits, repeat as long as they can, and forget
where a phrase failed that they could do without. The grammar has none of this: it is a set of
productions, two of them left recursive. Both say the same about tokens that are not nested too
deep:

* what the rules read is derived by the grammar (`statement_reads`), at every depth;
* what the grammar derives is read by the rules, if the tree is at most as deep as the rules go
  (`IsSum.run`, `IsProgram.foldFrom`). A phrase has to be told apart from what follows it: a power
  ends where no `^` follows, a product where no `^`, `*` or `/` does, and so on. For the left
  recursive productions the induction is about a repetition that is not over yet: behind a product
  the rule for products goes on with the tree it has so far.

Main statement: the parser gives a program exactly if the tokens derive it (`parse_eq_ok_iff`).
-/

namespace Abacus

namespace Grammar

open Rule

/-! ## 1. What is read is derived -/

theorem constant_reads : constant.Reads IsAtom := by
  refine (reads_token .number).filterMap fun phrase t e ⟨hp, ht⟩ he => ?_
  obtain ⟨v, hv, rfl⟩ := Option.map_eq_some_iff.mp he
  rw [hp]
  exact .number ht hv

theorem identifier_reads :
    identifier.Reads fun phrase x => ∃ t, phrase = [t] ∧ t.kind = .identifier ∧ x = t.lexeme :=
  (reads_token .identifier).map fun _ t ⟨hp, ht⟩ => ⟨t, hp, ht, rfl⟩

theorem atom_reads {inner : Rule Expr} (hi : inner.Reads IsSum) : (atom inner).Reads IsAtom := by
  refine (constant_reads.orElse ?_).orElse ?_
  · refine identifier_reads.map ?_
    rintro phrase x ⟨t, rfl, ht, rfl⟩
    exact .name ht
  · refine ((reads_token .lparen).right (hi.left (reads_token .rparen))).map ?_
    rintro phrase e ⟨us, vs, l, rfl, ⟨rfl, hl⟩, ts, ws, r, rfl, he, rfl, hr⟩
    exact .paren hl he hr

theorem powerOf_reads {inner exponent : Rule Expr} (hi : inner.Reads IsSum)
    (he : exponent.Reads IsPower) : (powerOf inner exponent).Reads IsPower := by
  refine Reads.map (R := fun phrase be =>
    IsPower phrase (be.2.elim be.1 (Expr.binary .pow be.1))) ?_ ?_
  · refine (atom_reads hi).pairOption ((reads_token .caret).right he) (fun _ _ hb => .atom hb) ?_
    rintro us _ b e hb ⟨_, vs, t, rfl, ⟨rfl, ht⟩, he⟩
    exact .raise hb ht he
  · rintro phrase ⟨b, _ | e⟩ h
    · exact h
    · exact h

theorem sign_reads {operator? : TokenKind → Option Operator} {kind : TokenKind} {op : Operator}
    (h : operator? kind = some op) :
    (sign kind op).Reads fun phrase o => ∃ t, phrase = [t] ∧ operator? t.kind = some o :=
  (reads_token kind).map fun _ t ⟨hp, ht⟩ => ⟨t, hp, by rw [ht, h]⟩

/-- Operands joined from left to right are a left recursive production. -/
theorem joined_reads {operand : Rule Expr} {operator : Rule Operator}
    {operator? : TokenKind → Option Operator} {O C : List Token → Expr → Prop}
    (ho : operand.Reads O)
    (hs : operator.Reads fun phrase op => ∃ t, phrase = [t] ∧ operator? t.kind = some op)
    (hone : ∀ {ts e}, O ts e → C ts e)
    (hjoin : ∀ {us vs t op l r}, C us l → operator? t.kind = some op → O vs r →
      C (us ++ t :: vs) (.binary op l r)) :
    (joined operand operator).Reads C := by
  have hone' : operand.Reads C := by
    intro ts e rest h
    obtain ⟨phrase, hp, hO⟩ := ho ts e rest h
    exact ⟨phrase, hp, hone hO⟩
  refine hone'.fold (hs.pair ho) ?_
  rintro us _ l ⟨op, r⟩ hl ⟨_, vs, rfl, ⟨t, rfl, ht⟩, hr⟩
  exact hjoin hl ht hr

theorem product_reads {power : Rule Expr} (h : power.Reads IsPower) :
    (product power).Reads IsProduct :=
  joined_reads h ((sign_reads rfl).orElse (sign_reads rfl)) .power .join

theorem sum_reads {product : Rule Expr} (h : product.Reads IsProduct) :
    (sum product).Reads IsSum :=
  joined_reads h ((sign_reads rfl).orElse (sign_reads rfl)) .product .join

theorem power_reads : ∀ levels : Nat, (power levels).Reads IsPower
  | 0 => powerOf_reads reads_fail reads_fail
  | levels + 1 =>
    powerOf_reads (sum_reads (product_reads (power_reads levels))) (power_reads levels)

theorem expr_reads (levels : Nat) : (expr levels).Reads IsSum :=
  sum_reads (product_reads (power_reads levels))

theorem assignment_reads {value : Rule Expr} (h : value.Reads IsSum) :
    (assignment value).Reads IsStatement := by
  refine ((identifier_reads.left (reads_token .assign)).pair
    (h.left (reads_token .semicolon))).map ?_
  rintro _ ⟨_, e⟩ ⟨_, _, rfl, ⟨_, _, a, rfl, ⟨t, rfl, ht, rfl⟩, rfl, ha⟩,
    ts, _, s, rfl, he, rfl, hs⟩
  exact .assign ht ha he hs

theorem printing_reads : printing.Reads IsStatement := by
  refine ((((reads_token .print).right ((reads_token .lparen).right identifier_reads)).left
    (reads_token .rparen)).left (reads_token .semicolon)).map ?_
  rintro _ _ ⟨_, _, s, rfl, ⟨_, _, r, rfl, ⟨_, _, p, rfl, ⟨rfl, hp⟩,
    _, _, l, rfl, ⟨rfl, hl⟩, t, rfl, ht, rfl⟩, rfl, hr⟩, rfl, hs⟩
  exact .print hp hl ht hr hs

theorem block_reads {inner : Rule Statement} (h : inner.Reads IsStatement) :
    (block inner).Reads IsStatement := by
  refine ((reads_token .lbrace).between h (reads_token .rbrace) IsProgram.empty
    fun _ _ _ _ => IsProgram.snoc).map ?_
  rintro _ body ⟨_, ts, _, l, r, rfl, ⟨rfl, hl⟩, hbody, rfl, hr⟩
  exact .block hl hbody hr

theorem statement_reads : ∀ levels : Nat, (statement levels).Reads IsStatement
  | 0 => printing_reads.orElse (assignment_reads (expr_reads 0))
  | levels + 1 =>
    (printing_reads.orElse (assignment_reads (expr_reads (levels + 1)))).orElse
      (block_reads (statement_reads levels))

/-! ## 2. Expressions that are derived are read -/

theorem run_constant {t : Token} {v : Value} (ht : t.kind = .number)
    (hv : Numeral.value? t.lexeme = some v) (rest : List Token) :
    constant.run (t :: rest) = .ok (.constant v, rest) :=
  run_filterMap (run_token ht) (by rw [hv]; rfl)

theorem run_constant_of_avoids {ts : List Token} (h : Avoids ts [.number]) :
    constant.run ts = .error ts := run_filterMap_error (run_token_of_avoids h)

theorem run_identifier {t : Token} (ht : t.kind = .identifier) (rest : List Token) :
    identifier.run (t :: rest) = .ok (t.lexeme, rest) := run_map _ (run_token ht)

theorem run_identifier_of_avoids {ts : List Token} (h : Avoids ts [.identifier]) :
    identifier.run ts = .error ts := run_map_error _ (run_token_of_avoids h)

theorem run_sign {t : Token} {kind : TokenKind} (op : Operator) (ht : t.kind = kind)
    (rest : List Token) : (sign kind op).run (t :: rest) = .ok (op, rest) :=
  run_map _ (run_token ht)

theorem run_sign_of_avoids {ts : List Token} {kind : TokenKind} (op : Operator)
    (h : Avoids ts [kind]) : (sign kind op).run ts = .error ts :=
  run_map_error _ (run_token_of_avoids h)

theorem run_signs_of_avoids {ts : List Token} {kind kind' : TokenKind} (op op' : Operator)
    (h : Avoids ts [kind, kind']) :
    ((sign kind op).orElse (sign kind' op')).run ts = .error ts := by
  rw [run_orElse_of_error (run_sign_of_avoids op (h.mono (by simp)))]
  exact run_sign_of_avoids op' (h.mono (by simp))

/-- One of two signs is read, whichever of them stands there. -/
theorem run_signs {t : Token} {kind kind' : TokenKind} {op op' op'' : Operator}
    (hne : kind' ≠ kind) (h : t.kind = kind ∧ op'' = op ∨ t.kind = kind' ∧ op'' = op')
    (rest : List Token) :
    ((sign kind op).orElse (sign kind' op')).run (t :: rest) = .ok (op'', rest) := by
  obtain ⟨ht, rfl⟩ | ⟨ht, rfl⟩ := h
  · exact run_orElse (run_sign op'' ht rest)
  · have hother : Avoids (t :: rest) [kind] := avoids_cons (by simpa [ht] using hne)
    rw [run_orElse_of_error (run_sign_of_avoids op hother)]
    exact run_sign op'' ht rest

theorem run_productSign {t : Token} {op : Operator} (h : productOperator? t.kind = some op)
    (rest : List Token) :
    ((sign .star .mul).orElse (sign .slash .div)).run (t :: rest) = .ok (op, rest) :=
  run_signs (by decide) (productOperator?_cases h) rest

theorem run_sumSign {t : Token} {op : Operator} (h : sumOperator? t.kind = some op)
    (rest : List Token) :
    ((sign .plus .add).orElse (sign .minus .sub)).run (t :: rest) = .ok (op, rest) :=
  run_signs (by decide) (sumOperator?_cases h) rest

/-- The rule one level deeper, if there is one. -/
def below {α : Type} (rule : Nat → Rule α) : Nat → Rule α
  | 0 => fail
  | levels + 1 => rule levels

theorem power_eq (levels : Nat) : power levels = powerOf (below expr levels) (below power levels) := by
  cases levels with
  | zero => rfl
  | succ levels => rfl

/-- What a chain of operands goes on with, behind the tree it has so far. -/
def chain (operand : Rule Expr) (operator : Rule Operator) (e : Expr) (rest : List Token) :
    Expr × List Token :=
  foldFrom (operator.pair operand) (fun left (op, right) => .binary op left right) e rest

theorem run_joined {operand : Rule Expr} {operator : Rule Operator} {ts rest : List Token}
    {e : Expr} (h : operand.run ts = .ok (e, rest)) :
    (joined operand operator).run ts = .ok (chain operand operator e rest) := run_fold h

theorem chain_join {operand : Rule Expr} {operator : Rule Operator} {ts mid rest : List Token}
    {op : Operator} {l r : Expr} (hop : operator.run ts = .ok (op, mid))
    (hr : operand.run mid = .ok (r, rest)) :
    chain operand operator l ts = chain operand operator (.binary op l r) rest :=
  foldFrom_of_run (run_pair hop hr) l

theorem chain_end {operand : Rule Expr} {operator : Rule Operator} {rest stuck : List Token}
    (h : operator.run rest = .error stuck) (e : Expr) :
    chain operand operator e rest = (e, rest) := foldFrom_of_error (run_pair_error h) e

/-- What the rule for products goes on with. -/
abbrev productChain (levels : Nat) : Expr → List Token → Expr × List Token :=
  chain (power levels) ((sign .star .mul).orElse (sign .slash .div))

/-- What the rule for sums goes on with. -/
abbrev sumChain (levels : Nat) : Expr → List Token → Expr × List Token :=
  chain (product (power levels)) ((sign .plus .add).orElse (sign .minus .sub))

theorem productChain_end {rest : List Token} (h : Avoids rest [.star, .slash]) (levels : Nat)
    (e : Expr) : productChain levels e rest = (e, rest) := chain_end (run_signs_of_avoids _ _ h) e

theorem sumChain_end {rest : List Token} (h : Avoids rest [.plus, .minus]) (levels : Nat)
    (e : Expr) : sumChain levels e rest = (e, rest) := chain_end (run_signs_of_avoids _ _ h) e

theorem run_atom_name {t : Token} (ht : t.kind = .identifier) (inner : Rule Expr)
    (rest : List Token) : (atom inner).run (t :: rest) = .ok (.name t.lexeme, rest) := by
  have hnumber : Avoids (t :: rest) [.number] := avoids_cons (by rw [ht]; decide)
  refine run_orElse ?_
  rw [run_orElse_of_error (run_constant_of_avoids hnumber)]
  exact run_map _ (run_identifier ht rest)

theorem run_atom_paren {l r : Token} {ts rest : List Token} {inner : Rule Expr} {e : Expr}
    (hl : l.kind = .lparen) (h : inner.run (ts ++ r :: rest) = .ok (e, r :: rest))
    (hr : r.kind = .rparen) :
    (atom inner).run (l :: (ts ++ r :: rest)) = .ok (.paren e, rest) := by
  have hnumber : Avoids (l :: (ts ++ r :: rest)) [.number] := avoids_cons (by rw [hl]; decide)
  have hname : Avoids (l :: (ts ++ r :: rest)) [.identifier] := avoids_cons (by rw [hl]; decide)
  rw [atom, run_orElse_of_error]
  · exact run_map _ (run_right (run_token hl) (run_left h (run_token hr)))
  · rw [run_orElse_of_error (run_constant_of_avoids hnumber)]
    exact run_map_error _ (run_identifier_of_avoids hname)

mutual

/-- An atom is read whatever follows it. -/
theorem IsAtom.run {ts : List Token} {e : Expr} :
    IsAtom ts e → ∀ levels : Nat, e.depth ≤ levels → ∀ rest : List Token,
      (atom (below expr levels)).run (ts ++ rest) = .ok (e, rest)
  | @IsAtom.paren l r us e hl h hr, levels, hd, rest => by
      cases levels with
      | zero => simp [Expr.depth] at hd
      | succ levels =>
        rw [Expr.depth] at hd
        have hend : Avoids (r :: rest) [.caret, .star, .slash, .plus, .minus] :=
          avoids_cons (by rw [hr]; decide)
        have hinner : (expr levels).run (us ++ r :: rest) = .ok (e, r :: rest) := by
          rw [h.run_chain levels (by omega) (hend.mono (by decide)),
            sumChain_end (hend.mono (by decide))]
        rw [List.cons_append, List.append_assoc, List.singleton_append]
        exact run_atom_paren hl hinner hr
  | .number ht hv, _, _, rest => run_orElse (run_orElse (run_constant ht hv rest))
  | .name ht, _, _, rest => run_atom_name ht _ rest

/-- A power is read if no further `^` follows it. -/
theorem IsPower.run {ts : List Token} {e : Expr} :
    IsPower ts e → ∀ levels : Nat, e.depth ≤ levels → ∀ {rest : List Token},
      Avoids rest [.caret] → (power levels).run (ts ++ rest) = .ok (e, rest)
  | .raise hb ht he, levels, hd, rest, hrest => by
      cases levels with
      | zero => simp [Expr.depth] at hd
      | succ levels =>
        rw [Expr.depth] at hd
        have hbase := hb.run (levels + 1) (by omega)
        have hexponent := he.run levels (by omega) hrest
        rw [List.append_assoc, List.cons_append, power_eq]
        exact run_map _ (run_pairOption_some (hbase _) (run_right (run_token ht) hexponent))
  | .atom h, levels, hd, rest, hrest => by
      rw [power_eq]
      exact run_map _ (run_pairOption_none (h.run levels hd rest)
        (run_right_error (run_token_of_avoids hrest)))

/-- Behind a product the rule for products goes on, if no `^` follows. -/
theorem IsProduct.run_chain {ts : List Token} {e : Expr} :
    IsProduct ts e → ∀ levels : Nat, e.depth ≤ levels → ∀ {rest : List Token},
      Avoids rest [.caret] →
      (product (power levels)).run (ts ++ rest) = .ok (productChain levels e rest)
  | @IsProduct.join us vs t op l r hl ht hr, levels, hd, rest, hrest => by
      obtain ⟨hop, -, -⟩ := settles_of_productOperator? ht
      rw [Expr.depth_binary hop] at hd
      have hnext : Avoids (t :: (vs ++ rest)) [.caret] := by
        obtain ⟨hk, -⟩ | ⟨hk, -⟩ := productOperator?_cases ht
        · exact avoids_cons (by rw [hk]; decide)
        · exact avoids_cons (by rw [hk]; decide)
      have hpower := hr.run levels (by omega) hrest
      rw [List.append_assoc, List.cons_append, hl.run_chain levels (by omega) hnext]
      exact congrArg _ (chain_join (run_productSign ht _) hpower)
  | .power h, levels, hd, rest, hrest => run_joined (h.run levels hd hrest)

/-- Behind a sum the rule for sums goes on, if no sign of higher rank follows. -/
theorem IsSum.run_chain {ts : List Token} {e : Expr} :
    IsSum ts e → ∀ levels : Nat, e.depth ≤ levels → ∀ {rest : List Token},
      Avoids rest [.caret, .star, .slash] →
      (expr levels).run (ts ++ rest) = .ok (sumChain levels e rest)
  | @IsSum.join us vs t op l r hl ht hr, levels, hd, rest, hrest => by
      obtain ⟨hop, -, -⟩ := settles_of_sumOperator? ht
      rw [Expr.depth_binary hop] at hd
      have hnext : Avoids (t :: (vs ++ rest)) [.caret, .star, .slash] := by
        obtain ⟨hk, -⟩ | ⟨hk, -⟩ := sumOperator?_cases ht
        · exact avoids_cons (by rw [hk]; decide)
        · exact avoids_cons (by rw [hk]; decide)
      have hproduct := hr.run_chain levels (by omega) (hrest.mono (by decide))
      rw [productChain_end (hrest.mono (by decide))] at hproduct
      rw [List.append_assoc, List.cons_append, hl.run_chain levels (by omega) hnext]
      exact congrArg _ (chain_join (run_sumSign ht _) hproduct)
  | .product h, levels, hd, rest, hrest => by
      have hproduct := h.run_chain levels hd (hrest.mono (by decide))
      rw [productChain_end (hrest.mono (by decide))] at hproduct
      exact run_joined hproduct

end

/-- **A sum is read if no further sign follows it.** -/
theorem IsSum.run {ts : List Token} {e : Expr} (h : IsSum ts e) {levels : Nat}
    (hd : e.depth ≤ levels) {rest : List Token}
    (hrest : Avoids rest [.caret, .star, .slash, .plus, .minus]) :
    (expr levels).run (ts ++ rest) = .ok (e, rest) := by
  rw [h.run_chain levels hd (hrest.mono (by decide)), sumChain_end (hrest.mono (by decide))]

/-! ## 3. Statements that are derived are read -/

theorem run_assignment {t a s : Token} {ts rest : List Token} {value : Rule Expr} {e : Expr}
    (ht : t.kind = .identifier) (ha : a.kind = .assign)
    (h : value.run (ts ++ s :: rest) = .ok (e, s :: rest)) (hs : s.kind = .semicolon) :
    (assignment value).run (t :: a :: (ts ++ s :: rest)) = .ok (.assign t.lexeme e, rest) :=
  run_map _ (run_pair (run_left (run_identifier ht _) (run_token ha))
    (run_left h (run_token hs)))

theorem run_assignment_of_avoids {ts : List Token} (h : Avoids ts [.identifier])
    (value : Rule Expr) : (assignment value).run ts = .error ts :=
  run_map_error _ (run_pair_error (run_left_error (run_identifier_of_avoids h)))

theorem run_printing {p l t r s : Token} (hp : p.kind = .print) (hl : l.kind = .lparen)
    (ht : t.kind = .identifier) (hr : r.kind = .rparen) (hs : s.kind = .semicolon)
    (rest : List Token) :
    printing.run (p :: l :: t :: r :: s :: rest) = .ok (.print t.lexeme, rest) :=
  run_map _ (run_left (run_left (run_right (run_token hp)
    (run_right (run_token hl) (run_identifier ht _))) (run_token hr)) (run_token hs))

theorem run_printing_of_avoids {ts : List Token} (h : Avoids ts [.print]) :
    printing.run ts = .error ts :=
  run_map_error _ (run_left_error (run_left_error (run_right_error (run_token_of_avoids h))))

/-- A statement without a block is tried first, at every depth. -/
theorem run_statement_of_simple {levels : Nat} {ts rest : List Token} {s : Statement}
    (h : (printing.orElse (assignment (expr levels))).run ts = .ok (s, rest)) :
    (statement levels).run ts = .ok (s, rest) := by
  cases levels with
  | zero => exact h
  | succ levels => exact run_orElse h

/-- Tokens that start no statement. -/
theorem run_statement_of_avoids {ts : List Token} (h : Avoids ts [.print, .identifier, .lbrace])
    (levels : Nat) : (statement levels).run ts = .error ts := by
  have hsimple : (printing.orElse (assignment (expr levels))).run ts = .error ts := by
    rw [run_orElse_of_error (run_printing_of_avoids (h.mono (by decide)))]
    exact run_assignment_of_avoids (h.mono (by decide)) _
  cases levels with
  | zero => exact hsimple
  | succ levels =>
    rw [statement, run_orElse_of_error hsimple]
    exact run_map_error _ (run_between_error (run_token_of_avoids (h.mono (by decide))))

theorem run_statement_block {l r : Token} {ts rest : List Token} {levels : Nat} {body : Program}
    (hl : l.kind = .lbrace) (h : (statement levels).many (ts ++ r :: rest) = (body, r :: rest))
    (hr : r.kind = .rbrace) :
    (statement (levels + 1)).run (l :: (ts ++ r :: rest)) = .ok (.block body, rest) := by
  have hprint : Avoids (l :: (ts ++ r :: rest)) [.print] := avoids_cons (by rw [hl]; decide)
  have hname : Avoids (l :: (ts ++ r :: rest)) [.identifier] := avoids_cons (by rw [hl]; decide)
  rw [statement, run_orElse_of_error]
  · exact run_map _ (run_between (run_token hl) h (run_token hr))
  · rw [run_orElse_of_error (run_printing_of_avoids hprint)]
    exact run_assignment_of_avoids hname _

mutual

/-- A statement is read whatever follows it. -/
theorem IsStatement.run {ts : List Token} {s : Statement} :
    IsStatement ts s → ∀ levels : Nat, s.depth ≤ levels → ∀ rest : List Token,
      (statement levels).run (ts ++ rest) = .ok (s, rest)
  | @IsStatement.assign t a s us e ht ha h hs, levels, hd, rest => by
      rw [Statement.depth] at hd
      have hprint : Avoids (t :: a :: (us ++ s :: rest)) [.print] :=
        avoids_cons (by rw [ht]; decide)
      have hend : Avoids (s :: rest) [.caret, .star, .slash, .plus, .minus] :=
        avoids_cons (by rw [hs]; decide)
      rw [List.cons_append, List.cons_append, List.append_assoc, List.singleton_append]
      refine run_statement_of_simple ?_
      rw [run_orElse_of_error (run_printing_of_avoids hprint)]
      exact run_assignment ht ha (h.run hd hend) hs
  | .print hp hl ht hr hs, levels, _, rest =>
      run_statement_of_simple (run_orElse (run_printing hp hl ht hr hs rest))
  | @IsStatement.block l r us body hl h hr, levels, hd, rest => by
      cases levels with
      | zero => simp [Statement.depth] at hd
      | succ levels =>
        rw [Statement.depth] at hd
        have hend : Avoids (r :: rest) [.print, .identifier, .lbrace] :=
          avoids_cons (by rw [hr]; decide)
        have hbody : (statement levels).many (us ++ r :: rest) = (body, r :: rest) := by
          rw [many, h.foldFrom levels (by omega), foldFrom_of_error (run_statement_of_avoids hend _)]
          simp
        rw [List.cons_append, List.append_assoc, List.singleton_append]
        exact run_statement_block hl hbody hr

/-- Behind a program the repetition of statements goes on. -/
theorem IsProgram.foldFrom {ts : List Token} {program : Program} :
    IsProgram ts program → ∀ levels : Nat, Program.depth program ≤ levels →
      ∀ (done : Array Statement) (rest : List Token),
        foldFrom (statement levels) Array.push done (ts ++ rest) =
          foldFrom (statement levels) Array.push (done ++ program.toArray) rest
  | .empty, levels, _, done, rest => by simp
  | .snoc h hs, levels, hd, done, rest => by
      rw [Program.depth_append, Program.depth, Program.depth] at hd
      rw [List.append_assoc, h.foldFrom levels (by omega),
        foldFrom_of_run (hs.run levels (by omega) rest)]
      simp

end

/-- **A program that is derived is read as a whole**, if it is not too deep. -/
theorem IsProgram.many {ts : List Token} {program : Program} (h : IsProgram ts program)
    {levels : Nat} (hd : Program.depth program ≤ levels) :
    (statement levels).many ts = (program, []) := by
  have hfold := h.foldFrom levels hd #[] []
  have hend := run_statement_of_avoids (avoids_nil _) levels
  rw [List.append_nil, foldFrom_of_error hend] at hfold
  rw [Rule.many, hfold]
  simp

/-! ## 4. Programs -/

/-- Statements that nothing is left behind are a program. -/
theorem isProgram_of_many {r : Rule Statement} (hr : r.Reads IsStatement) {ts : List Token}
    (h : (r.many ts).2 = []) : IsProgram ts (r.many ts).1 := by
  obtain ⟨phrase, hts, hp⟩ := hr.many IsProgram.empty (fun _ _ _ _ => IsProgram.snoc) ts
  rw [h, List.append_nil] at hts
  rwa [← hts] at hp

/-- What the parser gives is derived. -/
theorem isProgram_of_parse {ts : List Token} {program : Program} (h : parse ts = .ok program) :
    IsProgram ts program := by
  unfold parse at h
  split at h
  · cases h
  · split at h
    · rename_i program' hmany
      cases h
      have hp := isProgram_of_many (statement_reads maxNesting) (congrArg Prod.snd hmany)
      rwa [hmany] at hp
    · cases h

/-- What is derived is given by the parser, unless it is too deep. -/
theorem parse_of_isProgram {ts : List Token} {program : Program}
    (hn : Nesting.check ts = .ok ()) (h : IsProgram ts program) : parse ts = .ok program := by
  have hd := (check_ok_iff_depth_le h).mp hn
  simp only [parse, hn, h.many hd]

/-- **The parser gives a program exactly if the tokens derive it**, for tokens that are not nested
    too deep. -/
theorem parse_eq_ok_iff {ts : List Token} (hn : Nesting.check ts = .ok ()) (program : Program) :
    parse ts = .ok program ↔ IsProgram ts program :=
  ⟨isProgram_of_parse, parse_of_isProgram hn⟩

/-- The tokens of `x = a - b - c;`. -/
def differenceTokens : List Token :=
  [⟨.identifier, "x", 1⟩, ⟨.assign, "=", 1⟩, ⟨.identifier, "a", 1⟩, ⟨.minus, "-", 1⟩,
    ⟨.identifier, "b", 1⟩, ⟨.minus, "-", 1⟩, ⟨.identifier, "c", 1⟩, ⟨.semicolon, ";", 1⟩]

/-- Differences group from left to right. -/
theorem parse_differenceTokens :
    Nesting.check differenceTokens = .ok () ∧
    parse differenceTokens =
      .ok [.assign "x" (.binary .sub (.binary .sub (.name "a") (.name "b")) (.name "c"))] := by
  have hn : Nesting.check differenceTokens = .ok () := rfl
  have hname (x : String) : IsProduct [⟨.identifier, x, 1⟩] (.name x) :=
    .power (.atom (.name rfl))
  have hab : IsSum [⟨.identifier, "a", 1⟩, ⟨.minus, "-", 1⟩, ⟨.identifier, "b", 1⟩]
      (.binary .sub (.name "a") (.name "b")) :=
    @IsSum.join [_] [_] _ _ _ _ (.product (hname "a")) rfl (hname "b")
  have habc := @IsSum.join _ [_] ⟨.minus, "-", 1⟩ .sub _ _ hab rfl (hname "c")
  refine ⟨hn, (parse_eq_ok_iff hn _).mpr ?_⟩
  exact .snoc .empty (.assign rfl rfl habc rfl)

end Grammar

end Abacus
