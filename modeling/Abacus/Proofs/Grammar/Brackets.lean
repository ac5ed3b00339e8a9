import Abacus.Proofs.Grammar.Parsing
import Abacus.Session

/-!
# Parentheses around every operation

Which operands belong to an operator follows from ranks, and from the side that equal ranks group
to. All this can be written out: every operation is put in parentheses of its own. The tokens of a
program are then those that it has, with a pair of parentheses around each operation of its tree
(`Expr.Encloses`), and the tree is the same except for the parentheses.

Two facts carry this. Where an operation begins and ends is known from its tree alone, which tells
how many tokens it has (`Expr.width`). And an operation in parentheses is an atom, which may be an
operand of any operator, so each production applies again to the enclosed operands
(`IsSum.enclosed`).

Main statement: a program with all its operations enclosed is read as the same tree, apart from
parentheses, and does the same in every session (`parse_enclosed`).
-/

namespace Abacus

/-! ## 1. Trees without parentheses -/

/-- The expression without parentheses. -/
def Expr.bare : Expr → Expr
  | .constant v => .constant v
  | .name x => .name x
  | .paren e => e.bare
  | .binary op l r => .binary op l.bare r.bare

mutual

/-- The statement without parentheses in its expressions. -/
def Statement.bare : Statement → Statement
  | .assign x e => .assign x e.bare
  | .print x => .print x
  | .block body => .block (Program.bare body)

/-- The program without parentheses in its expressions. -/
def Program.bare : Program → Program
  | [] => []
  | s :: rest => s.bare :: Program.bare rest

end

theorem Expr.eval_bare (scopes : Scopes Value) (e : Expr) : e.bare.eval scopes = e.eval scopes := by
  induction e with
  | constant v => rfl
  | name x => rfl
  | paren e ih => exact ih
  | binary op l r ihl ihr => rw [bare, eval_binary, eval_binary, ihl, ihr]

mutual

theorem Machine.exec_bare : ∀ (m : Machine) (s : Statement), m.exec s.bare = m.exec s
  | m, .assign x e => by rw [Statement.bare, exec_assign, exec_assign, e.eval_bare]
  | m, .print x => by rw [Statement.bare]
  | m, .block body => by rw [Statement.bare, exec, exec, m.enter.execAll_bare body]

theorem Machine.execAll_bare : ∀ (m : Machine) (program : Program),
    m.execAll (Program.bare program) = m.execAll program
  | m, [] => by rw [Program.bare]
  | m, s :: rest => by
      rw [Program.bare, execAll, execAll, m.exec_bare s]
      cases m.exec s with
      | done next => exact next.execAll_bare rest
      | stopped error next => rfl

end

/-- **Parentheses make no difference to a run.** -/
theorem Session.execute_bare (s : Session) (log : Array Event) (program : Program) :
    s.execute log (Program.bare program) = s.execute log program := by
  rw [execute, execute, Machine.execAll_bare]

/-! ## 2. Enclosed operations -/

/-- The tokens `ts` of the expression become `ts'` if a pair of parentheses is put around each of its
    operations. The parentheses that it has stay where they are. -/
inductive Expr.Encloses : Expr → List Token → List Token → Prop where
  | constant {v : Value} (t : Token) : Encloses (.constant v) [t] [t]
  | name {x : String} (t : Token) : Encloses (.name x) [t] [t]
  | paren {e : Expr} {ts ts' : List Token} (l r : Token) (h : Encloses e ts ts') :
      Encloses (.paren e) (l :: (ts ++ [r])) (l :: (ts' ++ [r]))
  | binary {op : Operator} {a b : Expr} {us us' vs vs' : List Token} {l r : Token} (t : Token)
      (hl : l.kind = .lparen) (ha : Encloses a us us') (hb : Encloses b vs vs')
      (hr : r.kind = .rparen) :
      Encloses (.binary op a b) (us ++ t :: vs) (l :: (us' ++ t :: vs' ++ [r]))

mutual

/-- The tokens `ts` of the statement become `ts'` if all operations in it are enclosed. -/
inductive Statement.Encloses : Statement → List Token → List Token → Prop where
  | assign {x : String} {e : Expr} {ts ts' : List Token} (t a s : Token) (h : e.Encloses ts ts') :
      Statement.Encloses (.assign x e) (t :: a :: (ts ++ [s])) (t :: a :: (ts' ++ [s]))
  | print {x : String} (p l t r s : Token) :
      Statement.Encloses (.print x) [p, l, t, r, s] [p, l, t, r, s]
  | block {body : Program} {ts ts' : List Token} (l r : Token) (h : Program.Encloses body ts ts') :
      Statement.Encloses (.block body) (l :: (ts ++ [r])) (l :: (ts' ++ [r]))

/-- The tokens `ts` of the program become `ts'` if all operations in it are enclosed. -/
inductive Program.Encloses : Program → List Token → List Token → Prop where
  | empty : Program.Encloses [] [] []
  | snoc {program : Program} {s : Statement} {us us' vs vs' : List Token}
      (h : Program.Encloses program us us') (hs : Statement.Encloses s vs vs') :
      Program.Encloses (program ++ [s]) (us ++ vs) (us' ++ vs')

end

/-- The tree with parentheses around each of its operations. -/
def Expr.enclosed : Expr → Expr
  | .constant v => .constant v
  | .name x => .name x
  | .paren e => .paren e.enclosed
  | .binary op l r => .paren (.binary op l.enclosed r.enclosed)

mutual

/-- The statement with parentheses around all operations. -/
def Statement.enclosed : Statement → Statement
  | .assign x e => .assign x e.enclosed
  | .print x => .print x
  | .block body => .block (Program.enclosed body)

/-- The program with parentheses around all operations. -/
def Program.enclosed : Program → Program
  | [] => []
  | s :: rest => s.enclosed :: Program.enclosed rest

end

theorem Expr.bare_enclosed (e : Expr) : e.enclosed.bare = e.bare := by
  induction e with
  | constant v => rfl
  | name x => rfl
  | paren e ih => exact ih
  | binary op l r ihl ihr => rw [enclosed, bare, bare, bare, ihl, ihr]

mutual

theorem Statement.bare_enclosed : ∀ s : Statement, s.enclosed.bare = s.bare
  | .assign x e => by rw [Statement.enclosed, Statement.bare, Statement.bare, e.bare_enclosed]
  | .print x => by rw [Statement.enclosed]
  | .block body => by
      rw [Statement.enclosed, Statement.bare, Statement.bare, Program.bare_enclosed body]

/-- **Enclosing the operations changes parentheses alone.** -/
theorem Program.bare_enclosed : ∀ program : Program,
    Program.bare (Program.enclosed program) = Program.bare program
  | [] => by rw [Program.enclosed]
  | s :: rest => by
      rw [Program.enclosed, Program.bare, Program.bare, s.bare_enclosed,
        Program.bare_enclosed rest]

end

theorem Program.enclosed_append (program rest : Program) :
    Program.enclosed (program ++ rest) = Program.enclosed program ++ Program.enclosed rest := by
  induction program with
  | nil => simp [Program.enclosed]
  | cons s program ih => simp [Program.enclosed, ih]

/-! ## 3. Where an operation begins and ends -/

/-- The number of tokens of an expression. -/
def Expr.width : Expr → Nat
  | .constant _ => 1
  | .name _ => 1
  | .paren e => e.width + 2
  | .binary _ l r => l.width + r.width + 1

mutual

/-- The number of tokens of a statement. -/
def Statement.width : Statement → Nat
  | .assign _ e => e.width + 3
  | .print _ => 5
  | .block body => Program.width body + 2

/-- The number of tokens of a program. -/
def Program.width : Program → Nat
  | [] => 0
  | s :: rest => s.width + Program.width rest

end

theorem Program.width_append (program rest : Program) :
    Program.width (program ++ rest) = Program.width program + Program.width rest := by
  induction program with
  | nil => simp [Program.width]
  | cons s program ih => simp [Program.width, ih, Nat.add_assoc]

theorem Expr.Encloses.length_eq {e : Expr} {ts ts' : List Token} (h : e.Encloses ts ts') :
    ts.length = e.width := by
  induction h with
  | constant t => rfl
  | name t => rfl
  | paren l r h ih => simp [Expr.width, ih]
  | binary t hl ha hb hr iha ihb =>
    rw [List.length_append, List.length_cons, iha, ihb, Expr.width]
    omega

mutual

theorem Statement.Encloses.length_eq {s : Statement} {ts ts' : List Token} :
    s.Encloses ts ts' → ts.length = s.width
  | .assign t a s h => by simp [Statement.width, h.length_eq]
  | .print p l t r s => by rw [Statement.width]; rfl
  | .block l r h => by simp [Statement.width, h.length_eq]

theorem Program.Encloses.length_eq {program : Program} {ts ts' : List Token} :
    Program.Encloses program ts ts' → ts.length = Program.width program
  | .empty => by rw [Program.width]; rfl
  | .snoc h hs => by
      simp [Program.width_append, Program.width, h.length_eq, hs.length_eq]

end

theorem Expr.Encloses.of_paren {e : Expr} {ts ts' : List Token} {l r : Token}
    (h : (Expr.paren e).Encloses (l :: (ts ++ [r])) ts') :
    ∃ us', e.Encloses ts us' ∧ ts' = l :: (us' ++ [r]) := by
  generalize hts : ts ++ [r] = ts₀ at h
  cases h with
  | paren l r h =>
    obtain ⟨rfl, hr⟩ := List.append_inj' hts rfl
    cases hr
    exact ⟨_, h, rfl⟩

/-- The left operand ends where its tree says. -/
theorem Expr.Encloses.of_binary {op : Operator} {a b : Expr} {us vs ts' : List Token} {t : Token}
    (hus : ∃ us', a.Encloses us us') (h : (Expr.binary op a b).Encloses (us ++ t :: vs) ts') :
    ∃ l us' vs' r, l.kind = .lparen ∧ a.Encloses us us' ∧ b.Encloses vs vs' ∧ r.kind = .rparen ∧
      ts' = l :: (us' ++ t :: vs' ++ [r]) := by
  obtain ⟨_, hus⟩ := hus
  generalize hts : us ++ t :: vs = ts at h
  cases h with
  | binary t hl ha hb hr =>
    obtain ⟨rfl, ht⟩ := List.append_inj hts (hus.length_eq.trans ha.length_eq.symm)
    cases ht
    exact ⟨_, _, _, _, hl, ha, hb, hr, rfl⟩

theorem Statement.Encloses.of_assign {x : String} {e : Expr} {ts ts' : List Token} {t a s : Token}
    (h : (Statement.assign x e).Encloses (t :: a :: (ts ++ [s])) ts') :
    ∃ us', e.Encloses ts us' ∧ ts' = t :: a :: (us' ++ [s]) := by
  generalize hts : ts ++ [s] = ts₀ at h
  cases h with
  | assign t a s h =>
    obtain ⟨rfl, hs⟩ := List.append_inj' hts rfl
    cases hs
    exact ⟨_, h, rfl⟩

theorem Statement.Encloses.of_block {body : Program} {ts ts' : List Token} {l r : Token}
    (h : (Statement.block body).Encloses (l :: (ts ++ [r])) ts') :
    ∃ us', Program.Encloses body ts us' ∧ ts' = l :: (us' ++ [r]) := by
  generalize hts : ts ++ [r] = ts₀ at h
  cases h with
  | block l r h =>
    obtain ⟨rfl, hr⟩ := List.append_inj' hts rfl
    cases hr
    exact ⟨_, h, rfl⟩

theorem Program.Encloses.of_nil {ts ts' : List Token} (h : Program.Encloses [] ts ts') :
    ts' = [] := by
  generalize hprogram : ([] : Program) = program at h
  cases h with
  | empty => rfl
  | snoc h hs => exact absurd hprogram (by simp)

/-- The statements before the last one end where their trees say. -/
theorem Program.Encloses.of_append {program : Program} {s : Statement} {us vs ts' : List Token}
    (hus : ∃ us', Program.Encloses program us us')
    (h : Program.Encloses (program ++ [s]) (us ++ vs) ts') :
    ∃ us' vs', Program.Encloses program us us' ∧ s.Encloses vs vs' ∧ ts' = us' ++ vs' := by
  obtain ⟨_, hus⟩ := hus
  generalize hprogram : program ++ [s] = whole at h
  generalize hts : us ++ vs = ts at h
  cases h with
  | empty => exact absurd hprogram (by simp)
  | snoc h hs =>
    obtain ⟨rfl, hlast⟩ := List.append_inj' hprogram rfl
    cases hlast
    obtain ⟨rfl, rfl⟩ := List.append_inj hts (hus.length_eq.trans h.length_eq.symm)
    exact ⟨_, _, h, hs, rfl⟩

namespace Grammar

/-! ## 4. Enclosed operations are atoms -/

theorem exists_encloses_binary {op : Operator} {a b : Expr} {us vs : List Token} {t : Token}
    (ha : ∃ us', a.Encloses us us') (hb : ∃ vs', b.Encloses vs vs') :
    ∃ ts', (Expr.binary op a b).Encloses (us ++ t :: vs) ts' := by
  obtain ⟨us', ha⟩ := ha
  obtain ⟨vs', hb⟩ := hb
  exact ⟨_, @Expr.Encloses.binary op a b us us' vs vs' ⟨.lparen, "(", 1⟩ ⟨.rparen, ")", 1⟩ t
    rfl ha hb rfl⟩

mutual

theorem IsAtom.exists_encloses {ts : List Token} {e : Expr} :
    IsAtom ts e → ∃ ts', e.Encloses ts ts'
  | .paren _ h _ => h.exists_encloses.elim fun _ h' => ⟨_, .paren _ _ h'⟩
  | .number _ _ => ⟨_, .constant _⟩
  | .name _ => ⟨_, .name _⟩

theorem IsPower.exists_encloses {ts : List Token} {e : Expr} :
    IsPower ts e → ∃ ts', e.Encloses ts ts'
  | .raise hb _ he => exists_encloses_binary hb.exists_encloses he.exists_encloses
  | .atom h => h.exists_encloses

theorem IsProduct.exists_encloses {ts : List Token} {e : Expr} :
    IsProduct ts e → ∃ ts', e.Encloses ts ts'
  | .join hl _ hr => exists_encloses_binary hl.exists_encloses hr.exists_encloses
  | .power h => h.exists_encloses

theorem IsSum.exists_encloses {ts : List Token} {e : Expr} :
    IsSum ts e → ∃ ts', e.Encloses ts ts'
  | .join hl _ hr => exists_encloses_binary hl.exists_encloses hr.exists_encloses
  | .product h => h.exists_encloses

end

mutual

theorem IsStatement.exists_encloses {ts : List Token} {s : Statement} :
    IsStatement ts s → ∃ ts', s.Encloses ts ts'
  | .assign _ _ h _ => h.exists_encloses.elim fun _ h' => ⟨_, .assign _ _ _ h'⟩
  | .print _ _ _ _ _ => ⟨_, .print _ _ _ _ _⟩
  | .block _ h _ => h.exists_encloses.elim fun _ h' => ⟨_, .block _ _ h'⟩

/-- The operations of a program can be enclosed. -/
theorem IsProgram.exists_encloses {ts : List Token} {program : Program} :
    IsProgram ts program → ∃ ts', Program.Encloses program ts ts'
  | .empty => ⟨_, .empty⟩
  | .snoc h hs => by
      obtain ⟨us', hus⟩ := h.exists_encloses
      obtain ⟨vs', hvs⟩ := hs.exists_encloses
      exact ⟨_, .snoc hus hvs⟩

end

theorem IsAtom.isSum {ts : List Token} {e : Expr} (h : IsAtom ts e) : IsSum ts e :=
  .product (.power (.atom h))

/-- An operation is an atom when it is enclosed, if it is a sum with its operands enclosed. -/
theorem isAtom_enclosed_binary {op : Operator} {a b : Expr} {us vs ts' : List Token} {t : Token}
    (hus : ∃ us', a.Encloses us us')
    (ha : ∀ us', a.Encloses us us' → IsAtom us' a.enclosed)
    (hb : ∀ vs', b.Encloses vs vs' → IsAtom vs' b.enclosed)
    (hop : ∀ us' vs', IsAtom us' a.enclosed → IsAtom vs' b.enclosed →
      IsSum (us' ++ t :: vs') (.binary op a.enclosed b.enclosed))
    (h : (Expr.binary op a b).Encloses (us ++ t :: vs) ts') :
    IsAtom ts' (Expr.binary op a b).enclosed := by
  obtain ⟨l, us', vs', r, hl, hus', hvs', hr, rfl⟩ := h.of_binary hus
  exact .paren hl (hop us' vs' (ha us' hus') (hb vs' hvs')) hr

mutual

theorem IsAtom.enclosed {ts : List Token} {e : Expr} :
    IsAtom ts e → ∀ ts', e.Encloses ts ts' → IsAtom ts' e.enclosed
  | .paren hl h hr, ts', henc => by
      obtain ⟨us', hus, rfl⟩ := henc.of_paren
      exact .paren hl (h.enclosed us' hus).isSum hr
  | .number ht hv, ts', henc => by
      cases henc
      exact .number ht hv
  | .name ht, ts', henc => by
      cases henc
      exact .name ht

theorem IsPower.enclosed {ts : List Token} {e : Expr} :
    IsPower ts e → ∀ ts', e.Encloses ts ts' → IsAtom ts' e.enclosed
  | .raise hb ht he, ts', henc =>
      isAtom_enclosed_binary hb.exists_encloses hb.enclosed he.enclosed
        (fun _ _ hb' he' => .product (.power (.raise hb' ht (.atom he')))) henc
  | .atom h, ts', henc => h.enclosed ts' henc

theorem IsProduct.enclosed {ts : List Token} {e : Expr} :
    IsProduct ts e → ∀ ts', e.Encloses ts ts' → IsAtom ts' e.enclosed
  | .join hl ht hr, ts', henc =>
      isAtom_enclosed_binary hl.exists_encloses hl.enclosed hr.enclosed
        (fun _ _ hl' hr' => .product (.join (.power (.atom hl')) ht (.atom hr'))) henc
  | .power h, ts', henc => h.enclosed ts' henc

/-- **An expression is an atom once its operations are enclosed.** -/
theorem IsSum.enclosed {ts : List Token} {e : Expr} :
    IsSum ts e → ∀ ts', e.Encloses ts ts' → IsAtom ts' e.enclosed
  | .join hl ht hr, ts', henc =>
      isAtom_enclosed_binary hl.exists_encloses hl.enclosed hr.enclosed
        (fun _ _ hl' hr' => .join hl'.isSum ht (.power (.atom hr'))) henc
  | .product h, ts', henc => h.enclosed ts' henc

end

mutual

theorem IsStatement.enclosed {ts : List Token} {s : Statement} :
    IsStatement ts s → ∀ ts', s.Encloses ts ts' → IsStatement ts' s.enclosed
  | .assign ht ha h hs, ts', henc => by
      obtain ⟨us', hus, rfl⟩ := henc.of_assign
      rw [Statement.enclosed]
      exact .assign ht ha (h.enclosed us' hus).isSum hs
  | .print hp hl ht hr hs, ts', henc => by
      cases henc
      rw [Statement.enclosed]
      exact .print hp hl ht hr hs
  | .block hl h hr, ts', henc => by
      obtain ⟨us', hus, rfl⟩ := henc.of_block
      rw [Statement.enclosed]
      exact .block hl (h.enclosed us' hus) hr

/-- **A program with its operations enclosed derives the tree with its operations enclosed.** -/
theorem IsProgram.enclosed {ts : List Token} {program : Program} :
    IsProgram ts program → ∀ ts', Program.Encloses program ts ts' →
      IsProgram ts' (Program.enclosed program)
  | .empty, ts', henc => by
      rw [henc.of_nil, Program.enclosed]
      exact .empty
  | .snoc h hs, ts', henc => by
      obtain ⟨us', vs', hus, hvs, rfl⟩ := henc.of_append h.exists_encloses
      rw [Program.enclosed_append, Program.enclosed, Program.enclosed]
      exact .snoc (h.enclosed us' hus) (hs.enclosed vs' hvs)

end

/-! ## 5. Programs -/

/-- **Writing out how operators group changes nothing.** The operations of a program that is accepted
    can be enclosed in parentheses. However that is done, the program is accepted, unless it is
    nested too deep now; its tree is the same apart from parentheses, and it does the same in every
    session. -/
theorem parse_enclosed {ts : List Token} {program : Program} (h : parse ts = .ok program) :
    (∃ ts', Program.Encloses program ts ts') ∧
    ∀ ts', Program.Encloses program ts ts' → Nesting.check ts' = .ok () →
      ∃ program', parse ts' = .ok program' ∧ Program.bare program' = Program.bare program ∧
        ∀ (s : Session) (log : Array Event), s.execute log program' = s.execute log program := by
  have hprogram := isProgram_of_parse h
  refine ⟨hprogram.exists_encloses, fun ts' henc hn => ?_⟩
  have hbare := Program.bare_enclosed program
  refine ⟨_, parse_of_isProgram hn (hprogram.enclosed ts' henc), hbare, fun s log => ?_⟩
  rw [← s.execute_bare log (Program.enclosed program), hbare, s.execute_bare]

/-- The tokens of `x = a - b - c ^ d ^ e;`. -/
def rankedTokens : List Token :=
  [⟨.identifier, "x", 1⟩, ⟨.assign, "=", 1⟩, ⟨.identifier, "a", 1⟩, ⟨.minus, "-", 1⟩,
    ⟨.identifier, "b", 1⟩, ⟨.minus, "-", 1⟩, ⟨.identifier, "c", 1⟩, ⟨.caret, "^", 1⟩,
    ⟨.identifier, "d", 1⟩, ⟨.caret, "^", 1⟩, ⟨.identifier, "e", 1⟩, ⟨.semicolon, ";", 1⟩]

/-- The program that `rankedTokens` derive. -/
def rankedProgram : Program :=
  [.assign "x" (.binary .sub (.binary .sub (.name "a") (.name "b"))
    (.binary .pow (.name "c") (.binary .pow (.name "d") (.name "e"))))]

/-- The tokens of `x = ((a - b) - (c ^ (d ^ e)));`. -/
def enclosedTokens : List Token :=
  [⟨.identifier, "x", 1⟩, ⟨.assign, "=", 1⟩, ⟨.lparen, "(", 1⟩, ⟨.lparen, "(", 1⟩,
    ⟨.identifier, "a", 1⟩, ⟨.minus, "-", 1⟩, ⟨.identifier, "b", 1⟩, ⟨.rparen, ")", 1⟩,
    ⟨.minus, "-", 1⟩, ⟨.lparen, "(", 1⟩, ⟨.identifier, "c", 1⟩, ⟨.caret, "^", 1⟩,
    ⟨.lparen, "(", 1⟩, ⟨.identifier, "d", 1⟩, ⟨.caret, "^", 1⟩, ⟨.identifier, "e", 1⟩,
    ⟨.rparen, ")", 1⟩, ⟨.rparen, ")", 1⟩, ⟨.rparen, ")", 1⟩, ⟨.semicolon, ";", 1⟩]

/-- Differences group from left to right and powers from right to left, and writing this out is no
    change. -/
theorem parse_enclosedTokens :
    parse rankedTokens = .ok rankedProgram ∧
    Program.Encloses rankedProgram rankedTokens enclosedTokens ∧
    Nesting.check enclosedTokens = .ok () ∧
    ∃ program, parse enclosedTokens = .ok program ∧ Program.bare program = rankedProgram := by
  have hparse : parse rankedTokens = .ok rankedProgram := by with_unfolding_all rfl
  have hn : Nesting.check enclosedTokens = .ok () := rfl
  have hname (x : String) : (Expr.name x).Encloses [⟨.identifier, x, 1⟩] [⟨.identifier, x, 1⟩] :=
    .name _
  have henclose (op : Operator) (t : Token) {a b : Expr} {us us' vs vs' : List Token}
      (ha : a.Encloses us us') (hb : b.Encloses vs vs') :
      (Expr.binary op a b).Encloses (us ++ t :: vs)
        (⟨.lparen, "(", 1⟩ :: (us' ++ t :: vs' ++ [⟨.rparen, ")", 1⟩])) := .binary t rfl ha hb rfl
  have hleft := henclose .sub ⟨.minus, "-", 1⟩ (hname "a") (hname "b")
  have hright := henclose .pow ⟨.caret, "^", 1⟩ (hname "c")
    (henclose .pow ⟨.caret, "^", 1⟩ (hname "d") (hname "e"))
  have hprogram : Program.Encloses rankedProgram rankedTokens enclosedTokens :=
    .snoc .empty (.assign _ _ _ (henclose .sub ⟨.minus, "-", 1⟩ hleft hright))
  obtain ⟨program, hprogram', hbare, -⟩ := (parse_enclosed hparse).2 enclosedTokens hprogram hn
  refine ⟨hparse, hprogram, hn, program, hprogram', ?_⟩
  rw [hbare]
  with_unfolding_all rfl

end Grammar

end Abacus
