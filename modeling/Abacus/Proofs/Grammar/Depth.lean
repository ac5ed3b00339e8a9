import Abacus.Grammar.Nesting
import Abacus.Proofs.Grammar.Derivation

/-!
# The depth of a tree and the count along its tokens

The nesting check sees tokens and no tree. For the tokens of a program it still computes the depth
of the program's tree, and this file proves it:

* `depth` is the depth of a tree: each pair of brackets and each exponent is a level around what is
  inside it;
* `levels` lists the levels that the brackets and powers of a tree open, in the order of the text;
  the deepest of them is the depth (`Program.forall_levels_le`);
* the count behind the opening tokens of a program is the list of these levels
  (`IsProgram.scan`). What carries the induction is what the tokens leave behind: an atom leaves
  the count as it was, a power leaves its unfinished powers, and a statement again nothing.

Main statement: the tokens of a program are accepted exactly if its tree is not too deep, and
otherwise the error names the first token that opens a level too many (`check_of_isProgram`).
-/

namespace Abacus

/-! ## 1. The depth of a tree -/

/-- The depth of an expression. -/
def Expr.depth : Expr → Nat
  | .constant _ => 0
  | .name _ => 0
  | .paren e => 1 + e.depth
  | .binary .pow b e => max b.depth (1 + e.depth)
  | .binary _ l r => max l.depth r.depth

mutual

/-- The depth of a statement. The parentheses of a print statement are a level. -/
def Statement.depth : Statement → Nat
  | .assign _ e => e.depth
  | .print _ => 1
  | .block body => 1 + Program.depth body

/-- The depth of a program is that of its deepest statement. -/
def Program.depth : Program → Nat
  | [] => 0
  | s :: rest => max s.depth (Program.depth rest)

end

/-! ## 2. The levels of a tree -/

/-- The levels that the brackets and powers of an expression open, in the order of the text, if
    `outside` levels are open around it. -/
def Expr.levels (outside : Nat) : Expr → List Nat
  | .constant _ => []
  | .name _ => []
  | .paren e => (outside + 1) :: e.levels (outside + 1)
  | .binary .pow b e => b.levels outside ++ (outside + 1) :: e.levels (outside + 1)
  | .binary _ l r => l.levels outside ++ r.levels outside

mutual

/-- The levels that a statement opens. -/
def Statement.levels (outside : Nat) : Statement → List Nat
  | .assign _ e => e.levels outside
  | .print _ => [outside + 1]
  | .block body => (outside + 1) :: Program.levels (outside + 1) body

/-- The levels that a program opens. -/
def Program.levels (outside : Nat) : Program → List Nat
  | [] => []
  | s :: rest => s.levels outside ++ Program.levels outside rest

end

theorem Expr.depth_binary {op : Operator} (h : op ≠ .pow) (l r : Expr) :
    (Expr.binary op l r).depth = max l.depth r.depth := by
  cases op with
  | pow => exact absurd rfl h
  | add | sub | mul | div => rfl

theorem Expr.levels_binary {op : Operator} (h : op ≠ .pow) (outside : Nat) (l r : Expr) :
    (Expr.binary op l r).levels outside = l.levels outside ++ r.levels outside := by
  cases op with
  | pow => exact absurd rfl h
  | add | sub | mul | div => rfl

theorem Program.depth_append (program rest : Program) :
    Program.depth (program ++ rest) = max (Program.depth program) (Program.depth rest) := by
  induction program with
  | nil => simp [Program.depth]
  | cons s program ih =>
    rw [List.cons_append, Program.depth, Program.depth, ih]
    omega

@[simp] theorem Program.levels_nil (outside : Nat) : Program.levels outside [] = [] := by
  simp [Program.levels]

theorem Program.levels_append (outside : Nat) (program rest : Program) :
    Program.levels outside (program ++ rest) =
      Program.levels outside program ++ Program.levels outside rest := by
  induction program with
  | nil => simp
  | cons s program ih => simp [Program.levels, ih]

/-- The deepest level of an expression is its depth. -/
theorem Expr.forall_levels_le {outside limit : Nat} (h : outside ≤ limit) (e : Expr) :
    (∀ level ∈ e.levels outside, level ≤ limit) ↔ outside + e.depth ≤ limit := by
  fun_induction Expr.depth e generalizing outside with
  | case1 | case2 => simpa [Expr.levels] using h
  | case3 e ih =>
    simp only [Expr.levels, List.forall_mem_cons]
    by_cases h1 : outside + 1 ≤ limit
    · rw [ih h1]
      omega
    · omega
  | case4 b e ihb ihe =>
    simp only [Expr.levels, List.forall_mem_append, List.forall_mem_cons, ihb h]
    by_cases h1 : outside + 1 ≤ limit
    · rw [ihe h1]
      omega
    · omega
  | case5 op l r hop ihl ihr =>
    rw [Expr.levels_binary hop, List.forall_mem_append, ihl h, ihr h]
    omega

mutual

/-- The deepest level of a statement is its depth. -/
theorem Statement.forall_levels_le {outside limit : Nat} (h : outside ≤ limit) :
    ∀ s : Statement, (∀ level ∈ s.levels outside, level ≤ limit) ↔ outside + s.depth ≤ limit
  | .assign _ e => by
      rw [Statement.levels, Statement.depth]
      exact e.forall_levels_le h
  | .print _ => by simp [Statement.levels, Statement.depth]
  | .block body => by
      rw [Statement.levels, Statement.depth, List.forall_mem_cons]
      by_cases h1 : outside + 1 ≤ limit
      · rw [Program.forall_levels_le h1 body]
        omega
      · omega

/-- The deepest level of a program is its depth. -/
theorem Program.forall_levels_le {outside limit : Nat} (h : outside ≤ limit) :
    ∀ program : Program,
      (∀ level ∈ Program.levels outside program, level ≤ limit) ↔
        outside + Program.depth program ≤ limit
  | [] => by simpa [Program.levels, Program.depth] using h
  | s :: rest => by
      rw [Program.levels, Program.depth, List.forall_mem_append, Statement.forall_levels_le h s,
        Program.forall_levels_le h rest]
      omega

end

/-! ## 3. Opening tokens -/

/-- A token of this kind opens a level. -/
def TokenKind.opens : TokenKind → Bool
  | .lparen | .lbrace | .caret => true
  | _ => false

namespace Nesting

/-- The count behind some tokens. -/
def after (n : Nesting) (ts : List Token) : Nesting := ts.foldl (fun n t => n.step t.kind) n

/-- The levels counted behind those tokens that open one. -/
def levels (n : Nesting) : List Token → List Nat
  | [] => []
  | t :: ts =>
    let next := n.step t.kind
    if t.kind.opens then next.depth :: next.levels ts else next.levels ts

@[simp] theorem after_nil (n : Nesting) : n.after [] = n := rfl

@[simp] theorem after_cons (n : Nesting) (t : Token) (ts : List Token) :
    n.after (t :: ts) = (n.step t.kind).after ts := rfl

@[simp] theorem after_append (n : Nesting) (us vs : List Token) :
    n.after (us ++ vs) = (n.after us).after vs := List.foldl_append

@[simp] theorem levels_nil (n : Nesting) : n.levels [] = [] := rfl

@[simp] theorem levels_append (n : Nesting) (us vs : List Token) :
    n.levels (us ++ vs) = n.levels us ++ (n.after us).levels vs := by
  induction us generalizing n with
  | nil => rfl
  | cons t us ih =>
    simp only [List.cons_append, levels, after_cons, ih]
    split <;> rfl

theorem length_levels (n : Nesting) (ts : List Token) :
    (n.levels ts).length = ts.countP (·.kind.opens) := by
  induction ts generalizing n with
  | nil => rfl
  | cons t ts ih =>
    rw [List.countP_cons, levels]
    split <;> simp [ih]

/-- The level that a token opens stands at its place among the opening tokens. -/
theorem getElem?_levels (n : Nesting) (before : List Token) {t : Token} {after : List Token}
    (ht : t.kind.opens = true) :
    (n.levels (before ++ t :: after))[before.countP (·.kind.opens)]? =
      some (n.after (before ++ [t])).depth := by
  have hlen := length_levels n before
  rw [levels_append, List.getElem?_append_right (Nat.le_of_eq hlen), hlen, Nat.sub_self, levels,
    if_pos ht, after_append]
  rfl

theorem step_depth_of_opens {kind : TokenKind} (h : kind.opens = true) (n : Nesting) :
    (n.step kind).depth = n.depth + 1 := by
  cases kind with
  | lparen | lbrace | caret => rfl
  | _ => cases h

theorem step_depth_le {kind : TokenKind} (h : kind.opens = false) (n : Nesting) :
    (n.step kind).depth ≤ n.depth := by
  cases kind with
  | lparen | lbrace | caret => cases h
  | rparen | rbrace =>
    simp only [step, closed]
    split
    · exact Nat.le_refl _
    · exact Nat.sub_le _ _
  | plus | minus | star | slash | assign | semicolon => exact Nat.sub_le _ _
  | identifier | number | print | newline => exact Nat.le_refl _

/-! ## 4. The check as a bound on the levels -/

/-- Counting never stops if no opening token is too deep, and otherwise it stops at the first one
    that is. Other tokens need no look, since they open nothing. -/
theorem checkFrom_ok_iff (ts : List Token) {n : Nesting} (hn : n.depth ≤ maxNesting) :
    n.checkFrom ts = .ok () ↔ ∀ level ∈ n.levels ts, level ≤ maxNesting := by
  induction ts generalizing n with
  | nil => simp [checkFrom]
  | cons t ts ih =>
    simp only [checkFrom, levels]
    cases ht : t.kind.opens with
    | true =>
      rw [if_pos rfl, List.forall_mem_cons]
      by_cases hd : maxNesting < (n.step t.kind).depth
      · rw [if_pos hd]
        simp only [reduceCtorEq, false_iff, not_and]
        omega
      · rw [if_neg hd, ih (Nat.le_of_not_lt hd)]
        exact ⟨fun h => ⟨Nat.le_of_not_lt hd, h⟩, fun h => h.2⟩
    | false =>
      have hd := Nat.le_trans (step_depth_le ht n) hn
      rw [if_neg (Nat.not_lt.mpr hd), ih hd]
      simp

/-- The token at which counting stops is the first one that opens a level too many. -/
theorem exists_of_checkFrom_error (ts : List Token) {n : Nesting} (hn : n.depth ≤ maxNesting)
    (h : ∃ level ∈ n.levels ts, maxNesting < level) :
    ∃ before t after, ts = before ++ t :: after ∧ t.kind.opens = true ∧
      (∀ level ∈ n.levels before, level ≤ maxNesting) ∧
      (n.after (before ++ [t])).depth = maxNesting + 1 ∧
      n.checkFrom ts = .error (.tooDeep t.line maxNesting) := by
  induction ts generalizing n with
  | nil =>
    obtain ⟨level, hl, -⟩ := h
    cases hl
  | cons t ts ih =>
    by_cases hd : maxNesting < (n.step t.kind).depth
    · have ht : t.kind.opens = true := by
        refine Bool.of_not_eq_false fun hf => ?_
        have := step_depth_le hf n
        omega
      have hs := step_depth_of_opens ht n
      refine ⟨[], t, ts, rfl, ht, by simp, ?_, ?_⟩
      · rw [List.nil_append, after_cons, after_nil]
        omega
      · simp only [checkFrom, if_pos hd]
    · have hle := Nat.le_of_not_lt hd
      have hrest : ∃ level ∈ (n.step t.kind).levels ts, maxNesting < level := by
        obtain ⟨level, hl, hlt⟩ := h
        simp only [levels] at hl
        split at hl
        · rcases List.mem_cons.mp hl with rfl | hl
          · exact absurd hlt hd
          · exact ⟨level, hl, hlt⟩
        · exact ⟨level, hl, hlt⟩
      obtain ⟨before, u, after, rfl, hu, hb, ha, hc⟩ := ih hle hrest
      refine ⟨t :: before, u, after, rfl, hu, ?_, ha, ?_⟩
      · simp only [levels]
        split
        · exact List.forall_mem_cons.mpr ⟨hle, hb⟩
        · exact hb
      · simp only [checkFrom, if_neg hd]
        exact hc

/-! ## 5. What the tokens of a tree leave behind -/

/-- The count with further unfinished powers. -/
def raisedBy (n : Nesting) (k : Nat) : Nesting :=
  { n with powers := n.powers + k, depth := n.depth + k }

theorem raisedBy_raisedBy (n : Nesting) (j k : Nat) :
    (n.raisedBy j).raisedBy k = n.raisedBy (j + k) := by
  simp only [raisedBy, Nat.add_assoc]

/-- A sign of lower rank finishes the powers behind a place without any. -/
theorem settled_raisedBy {n : Nesting} (h : n.powers = 0) (k : Nat) :
    (n.raisedBy k).settled = n := by
  obtain ⟨powers, outer, depth⟩ := n
  cases h
  simp [raisedBy, settled]

/-- A closing bracket ends the powers inside it. -/
theorem closed_opened_raisedBy (n : Nesting) (k : Nat) :
    (n.opened.raisedBy k).closed = n := by
  simp only [opened, raisedBy, closed]
  congr
  omega

/-- The tokens leave unfinished powers behind, and nothing else. On the way they open the given
    levels. -/
def Counts (n : Nesting) (ts : List Token) (levels : List Nat) : Prop :=
  ∃ k, n.after ts = n.raisedBy k ∧ n.levels ts = levels

/-- Two parts joined by a sign of lower rank, at a place without unfinished powers. -/
theorem Counts.join {n : Nesting} {us vs : List Token} {t : Token} {ls rs : List Nat}
    (hn : n.powers = 0) (hu : n.Counts us ls) (ht : t.kind.opens = false)
    (hs : ∀ m : Nesting, m.step t.kind = m.settled) (hv : n.Counts vs rs) :
    n.Counts (us ++ t :: vs) (ls ++ rs) := by
  obtain ⟨j, hu1, hu2⟩ := hu
  obtain ⟨k, hv1, hv2⟩ := hv
  have hback : (n.raisedBy j).step t.kind = n := by rw [hs, settled_raisedBy hn]
  refine ⟨k, ?_, ?_⟩
  · rw [after_append, hu1, after_cons, hback, hv1]
  · rw [levels_append, hu1, hu2, levels, hback, hv2, ht]
    rfl

end Nesting

namespace Grammar

open Nesting

/-- The signs of a product finish the powers before them, and open nothing. -/
theorem settles_of_productOperator? {kind : TokenKind} {op : Operator}
    (h : productOperator? kind = some op) :
    op ≠ .pow ∧ kind.opens = false ∧ ∀ n : Nesting, n.step kind = n.settled := by
  obtain ⟨rfl, rfl⟩ | ⟨rfl, rfl⟩ := productOperator?_cases h
  · exact ⟨by decide, rfl, fun _ => rfl⟩
  · exact ⟨by decide, rfl, fun _ => rfl⟩

/-- The signs of a sum finish the powers before them, and open nothing. -/
theorem settles_of_sumOperator? {kind : TokenKind} {op : Operator}
    (h : sumOperator? kind = some op) :
    op ≠ .pow ∧ kind.opens = false ∧ ∀ n : Nesting, n.step kind = n.settled := by
  obtain ⟨rfl, rfl⟩ | ⟨rfl, rfl⟩ := sumOperator?_cases h
  · exact ⟨by decide, rfl, fun _ => rfl⟩
  · exact ⟨by decide, rfl, fun _ => rfl⟩

mutual

/-- An atom leaves nothing behind. -/
theorem IsAtom.scan {ts : List Token} {e : Expr} :
    IsAtom ts e → ∀ n : Nesting, n.after ts = n ∧ n.levels ts = e.levels n.depth
  | .paren hl h hr, n => by
      obtain ⟨k, h1, h2⟩ := h.scan n.opened rfl
      have hopen : n.step .lparen = n.opened := rfl
      have hclose : (n.opened.raisedBy k).step .rparen = n := closed_opened_raisedBy n k
      refine ⟨?_, ?_⟩
      · rw [after_cons, after_append, hl, hopen, h1, after_cons, hr, hclose, after_nil]
      · rw [levels, levels_append, hl, hopen, h1, h2]
        simp [levels, hr, TokenKind.opens, Expr.levels, opened]
  | .number ht _, n => by simp [ht, step, levels, TokenKind.opens, Expr.levels]
  | .name ht, n => by simp [ht, step, levels, TokenKind.opens, Expr.levels]

/-- A power leaves its unfinished powers behind. -/
theorem IsPower.scan {ts : List Token} {e : Expr} :
    IsPower ts e → ∀ n : Nesting, n.Counts ts (e.levels n.depth)
  | .raise hb ht he, n => by
      obtain ⟨h1, h2⟩ := hb.scan n
      obtain ⟨k, h3, h4⟩ := he.scan n.raised
      have hstep : n.step .caret = n.raised := rfl
      refine ⟨1 + k, ?_, ?_⟩
      · rw [after_append, h1, after_cons, ht, hstep, h3]
        exact raisedBy_raisedBy n 1 k
      · rw [levels_append, h1, h2, levels, ht, hstep, h4]
        rfl
  | .atom h, n => by
      obtain ⟨h1, h2⟩ := h.scan n
      exact ⟨0, h1, h2⟩

/-- A product leaves the powers of its last part behind. -/
theorem IsProduct.scan {ts : List Token} {e : Expr} :
    IsProduct ts e → ∀ n : Nesting, n.powers = 0 → n.Counts ts (e.levels n.depth)
  | .join hl ht hr, n, hn => by
      obtain ⟨hop, ho, hs⟩ := settles_of_productOperator? ht
      rw [Expr.levels_binary hop]
      exact (hl.scan n hn).join hn ho hs (hr.scan n)
  | .power h, n, _ => h.scan n

/-- A sum leaves the powers of its last part behind. -/
theorem IsSum.scan {ts : List Token} {e : Expr} :
    IsSum ts e → ∀ n : Nesting, n.powers = 0 → n.Counts ts (e.levels n.depth)
  | .join hl ht hr, n, hn => by
      obtain ⟨hop, ho, hs⟩ := settles_of_sumOperator? ht
      rw [Expr.levels_binary hop]
      exact (hl.scan n hn).join hn ho hs (hr.scan n hn)
  | .product h, n, hn => h.scan n hn

end

mutual

/-- A statement at a place without unfinished powers leaves nothing behind. -/
theorem IsStatement.scan {ts : List Token} {s : Statement} :
    IsStatement ts s → ∀ n : Nesting, n.powers = 0 →
      n.after ts = n ∧ n.levels ts = s.levels n.depth
  | .assign ht ha h hs, n, hn => by
      obtain ⟨k, h1, h2⟩ := h.scan n hn
      have hname : n.step .identifier = n := rfl
      have hassign : n.step .assign = n := settled_raisedBy hn 0
      have hend : (n.raisedBy k).step .semicolon = n := settled_raisedBy hn k
      refine ⟨?_, ?_⟩
      · rw [after_cons, ht, hname, after_cons, ha, hassign, after_append, h1, after_cons, hs, hend,
          after_nil]
      · rw [levels, ht, hname, levels, ha, hassign, levels_append, h1, h2]
        simp [levels, hs, TokenKind.opens, Statement.levels]
  | .print hp hl ht hr hs, n, hn => by
      have hclose : n.opened.closed = n := closed_opened_raisedBy n 0
      have hend : n.settled = n := settled_raisedBy hn 0
      refine ⟨?_, ?_⟩
      · simp [hp, hl, ht, hr, hs, step, hclose, hend]
      · simp [levels, hp, hl, ht, hr, hs, step, TokenKind.opens, Statement.levels, opened]
  | .block hl h hr, n, _ => by
      obtain ⟨h1, h2⟩ := h.scan n.opened rfl
      have hopen : n.step .lbrace = n.opened := rfl
      have hclose : n.opened.step .rbrace = n := closed_opened_raisedBy n 0
      refine ⟨?_, ?_⟩
      · rw [after_cons, after_append, hl, hopen, h1, after_cons, hr, hclose, after_nil]
      · rw [levels, levels_append, hl, hopen, h1, h2]
        simp [levels, hr, TokenKind.opens, Statement.levels, opened]

/-- **The count along a program is the list of its levels**, and nothing is left behind. -/
theorem IsProgram.scan {ts : List Token} {program : Program} :
    IsProgram ts program → ∀ n : Nesting, n.powers = 0 →
      n.after ts = n ∧ n.levels ts = Program.levels n.depth program
  | .empty, n, _ => by simp
  | .snoc h hs, n, hn => by
      obtain ⟨h1, h2⟩ := h.scan n hn
      obtain ⟨h3, h4⟩ := hs.scan n hn
      refine ⟨?_, ?_⟩
      · rw [after_append, h1, h3]
      · rw [levels_append, h1, h2, h4, Program.levels_append]
        simp [Program.levels]

end

/-! ## 6. The check on a program -/

theorem start_levels {ts : List Token} {program : Program} (h : IsProgram ts program) :
    Nesting.start.levels ts = Program.levels 0 program := (h.scan Nesting.start rfl).2

/-- The tokens of a program are accepted exactly if its tree is not too deep. -/
theorem check_ok_iff_depth_le {ts : List Token} {program : Program} (h : IsProgram ts program) :
    Nesting.check ts = .ok () ↔ Program.depth program ≤ maxNesting := by
  have h0 : Nesting.start.depth ≤ maxNesting := Nat.zero_le _
  rw [Nesting.check, checkFrom_ok_iff ts h0, start_levels h,
    Program.forall_levels_le (Nat.zero_le _) program, Nat.zero_add]

/-- In the text of a program, the token behind `before` opens the given level: it has the same
    place among the opening tokens as the level among the levels of the tree. -/
def Opens (program : Program) (before : List Token) (t : Token) (level : Nat) : Prop :=
  t.kind.opens = true ∧ (Program.levels 0 program)[before.countP (·.kind.opens)]? = some level

/-- **The nesting check computes the depth of the tree.** The tokens of a program are accepted
    exactly if its tree is not too deep; otherwise the error names the line of the first token that
    opens a level too many. -/
theorem check_of_isProgram {ts : List Token} {program : Program} (h : IsProgram ts program) :
    (Nesting.check ts = .ok () ↔ Program.depth program ≤ maxNesting) ∧
    (maxNesting < Program.depth program →
      ∃ before t after, ts = before ++ t :: after ∧ Opens program before t (maxNesting + 1) ∧
        (∀ earlier u between level, before = earlier ++ u :: between →
          Opens program earlier u level → level ≤ maxNesting) ∧
        Nesting.check ts = .error (.tooDeep t.line maxNesting)) := by
  refine ⟨check_ok_iff_depth_le h, fun hd => ?_⟩
  have hlevels := start_levels h
  have hdeep : ∃ level ∈ Nesting.start.levels ts, maxNesting < level := by
    refine Classical.byContradiction fun hno => ?_
    simp only [not_exists, not_and, Nat.not_lt] at hno
    rw [hlevels, Program.forall_levels_le (Nat.zero_le _) program] at hno
    omega
  obtain ⟨before, t, after, rfl, ht, hb, ha, hc⟩ :=
    exists_of_checkFrom_error ts (Nat.zero_le _) hdeep
  refine ⟨before, t, after, rfl, ⟨ht, ?_⟩, ?_, hc⟩
  · rw [← hlevels, getElem?_levels _ _ ht, ha]
  · rintro earlier u between level rfl ⟨hu, hlevel⟩
    -- the level of an earlier token is the same in the text up to `t` and in the whole text
    rw [← hlevels, List.append_assoc, List.cons_append, getElem?_levels _ _ hu] at hlevel
    refine hb level (List.mem_of_getElem? (i := earlier.countP (·.kind.opens)) ?_)
    rw [getElem?_levels _ _ hu, hlevel]

/-- Blocks inside each other, with nothing else in them. -/
def nestedBlocks : Nat → Program
  | 0 => []
  | n + 1 => [.block (nestedBlocks n)]

/-- The tokens of blocks inside each other, on one line. -/
def nestedBraces (n : Nat) : List Token :=
  List.replicate n ⟨.lbrace, "\x7b", 1⟩ ++ List.replicate n ⟨.rbrace, "\x7d", 1⟩

theorem nestedBraces_isProgram (n : Nat) : IsProgram (nestedBraces n) (nestedBlocks n) := by
  induction n with
  | zero => exact .empty
  | succ n ih =>
    rw [nestedBraces, List.replicate_succ, List.replicate_succ', List.cons_append,
      ← List.append_assoc]
    exact .snoc .empty (.block rfl ih rfl)

theorem nestedBlocks_depth (n : Nat) : Program.depth (nestedBlocks n) = n := by
  induction n with
  | zero => simp [nestedBlocks, Program.depth]
  | succ n ih =>
    simp only [nestedBlocks, Program.depth, Statement.depth, ih]
    omega

/-- Blocks 201 levels deep are rejected. -/
theorem check_nestedBraces :
    IsProgram (nestedBraces 201) (nestedBlocks 201) ∧
    maxNesting < Program.depth (nestedBlocks 201) ∧
    Nesting.check (nestedBraces 201) = .error (.tooDeep 1 200) := by
  have h := nestedBraces_isProgram 201
  have hd : maxNesting < Program.depth (nestedBlocks 201) := by
    rw [nestedBlocks_depth]
    decide
  obtain ⟨before, t, after, hts, -, -, hc⟩ := (check_of_isProgram h).2 hd
  have hline : ∀ u ∈ nestedBraces 201, u.line = 1 := by
    intro u hu
    rcases List.mem_append.mp hu with hu | hu
    · rw [List.eq_of_mem_replicate hu]
    · rw [List.eq_of_mem_replicate hu]
  have ht : t ∈ nestedBraces 201 := by
    rw [hts]
    exact List.mem_append_right _ List.mem_cons_self
  rw [hline t ht] at hc
  exact ⟨h, hd, hc⟩

end Grammar

end Abacus
