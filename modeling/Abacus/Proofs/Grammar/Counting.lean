import Abacus.Proofs.Grammar.Depth
import Mathlib.Algebra.GroupWithZero.Nat

/-!
# The number of levels and the stack behind it

The nesting check keeps the number of open levels beside the stack from which that number could be
read: the unfinished powers of each open bracket. The two must never part. If they did, a token
might take away more levels than there are, and there is no natural number for what is left.

A count in which this can happen is a `Tally`: its stack may be empty, and taking away too much has
no result (`Tally.step?`). What rules both out is the count of the levels, which every token keeps
(`Nesting.IsCounted.step`): so each token of any list finds what it takes away
(`Nesting.IsCounted.step?_tally`), whether or not the tokens before it fit the grammar.

Main statement: behind every token the number of levels is that of the stack, and the check fails
exactly if it is too large behind some token, with the line of the first such token
(`check_by_tally`).
-/

namespace Abacus

/-! ## 1. A count that may go wrong -/

/-- A stack of unfinished powers, and a number of levels kept beside it. -/
structure Tally where
  /-- The unfinished powers at each open place, the innermost first. The outermost place is outside
      all brackets. -/
  chains : List Nat
  /-- The number of levels. -/
  depth : Nat
deriving DecidableEq

namespace Tally

/-- Outside all brackets, without powers. -/
def start : Tally := ⟨[0], 0⟩

/-- The number of levels when some of them end; there must be so many. -/
def less? (s : Tally) (ended : Nat) : Option Nat :=
  if ended ≤ s.depth then some (s.depth - ended) else none

/-- An opening bracket. -/
def opened (s : Tally) : Tally := ⟨0 :: s.chains, s.depth + 1⟩

/-- A closing bracket. -/
def closed? (s : Tally) : Option Tally :=
  match s.chains with
  | chain :: around :: outer => (s.less? (chain + 1)).map (⟨around :: outer, ·⟩)
  | _ => some s

/-- A power. -/
def raised (s : Tally) : Tally :=
  match s.chains with
  | chain :: outer => ⟨(chain + 1) :: outer, s.depth + 1⟩
  | [] => s

/-- A sign of lower rank, which finishes the powers before it. -/
def settled? (s : Tally) : Option Tally :=
  match s.chains with
  | chain :: outer => (s.less? chain).map (⟨0 :: outer, ·⟩)
  | [] => some s

/-- The tally behind a further token. -/
def step? (s : Tally) : TokenKind → Option Tally
  | .lparen | .lbrace => some s.opened
  | .rparen | .rbrace => s.closed?
  | .caret => some s.raised
  | .plus | .minus | .star | .slash | .assign | .semicolon => s.settled?
  | .identifier | .number | .print | .newline => some s

/-- The tally behind some tokens. -/
def after? (s : Tally) (ts : List Token) : Option Tally := ts.foldlM (fun s t => s.step? t.kind) s

@[simp] theorem after?_nil (s : Tally) : s.after? [] = some s := rfl

@[simp] theorem after?_cons (s : Tally) (t : Token) (ts : List Token) :
    s.after? (t :: ts) = (s.step? t.kind).bind (·.after? ts) := rfl

/-- The number of levels can be read from the stack: one for each bracket, one for each power. -/
def IsBalanced (s : Tally) : Prop :=
  s.chains ≠ [] ∧ s.depth = (s.chains.length - 1) + s.chains.sum

end Tally

/-! ## 2. It never goes wrong -/

namespace Nesting

/-- The count as a tally. -/
def tally (n : Nesting) : Tally := ⟨n.powers :: n.outer, n.depth⟩

theorem IsCounted.isBalanced {n : Nesting} (h : n.IsCounted) : n.tally.IsBalanced := by
  refine ⟨List.cons_ne_nil _ _, ?_⟩
  rw [IsCounted, ← List.sum_eq_foldr] at h
  rw [tally, List.length_cons, List.sum_cons, Nat.add_sub_cancel]
  exact h

/-- The levels inside a bracket are there when it is closed. -/
theorem IsCounted.closed?_tally {n : Nesting} (h : n.IsCounted) :
    n.tally.closed? = some n.closed.tally := by
  obtain ⟨powers, outer, depth⟩ := n
  cases outer with
  | nil => rfl
  | cons around outer =>
    have hle : powers + 1 ≤ depth := by
      simp only [IsCounted, List.length_cons, List.foldr_cons] at h
      omega
    have hless : (tally ⟨powers, around :: outer, depth⟩).less? (powers + 1) =
        some (depth - (powers + 1)) := if_pos hle
    simp only [Tally.closed?, tally] at hless ⊢
    rw [hless]
    rfl

/-- The powers before a sign of lower rank are there. -/
theorem IsCounted.settled?_tally {n : Nesting} (h : n.IsCounted) :
    n.tally.settled? = some n.settled.tally := by
  have hle : n.powers ≤ n.depth := by
    simp only [IsCounted] at h
    omega
  have hless : n.tally.less? n.powers = some (n.depth - n.powers) := if_pos hle
  simp only [Tally.settled?, tally] at hless ⊢
  rw [hless]
  rfl

/-- **Every token finds the levels that it ends.** -/
theorem IsCounted.step?_tally {n : Nesting} (h : n.IsCounted) (kind : TokenKind) :
    n.tally.step? kind = some (n.step kind).tally := by
  cases kind with
  | lparen | lbrace | caret | identifier | number | print | newline => rfl
  | rparen | rbrace => exact h.closed?_tally
  | plus | minus | star | slash | assign | semicolon => exact h.settled?_tally

theorem IsCounted.after {n : Nesting} (h : n.IsCounted) (ts : List Token) :
    (n.after ts).IsCounted := by
  induction ts generalizing n with
  | nil => exact h
  | cons t ts ih => exact ih (h.step t.kind)

/-- So does every token of a list. -/
theorem IsCounted.after?_tally {n : Nesting} (h : n.IsCounted) (ts : List Token) :
    n.tally.after? ts = some (n.after ts).tally := by
  induction ts generalizing n with
  | nil => rfl
  | cons t ts ih =>
    rw [Tally.after?_cons, h.step?_tally, Option.bind_some, ih (h.step t.kind)]
    rfl

/-! ## 3. The check and the parts that are too deep -/

/-- Counting reaches the end of the tokens exactly if no part of them is too deep. -/
theorem checkFrom_eq_ok_iff (ts : List Token) {n : Nesting} (hn : n.depth ≤ maxNesting) :
    n.checkFrom ts = .ok () ↔ ∀ part, part <+: ts → (n.after part).depth ≤ maxNesting := by
  induction ts generalizing n with
  | nil => simpa [checkFrom] using hn
  | cons t ts ih =>
    simp only [checkFrom, List.prefix_cons_iff]
    by_cases hd : maxNesting < (n.step t.kind).depth
    · rw [if_pos hd]
      simp only [reduceCtorEq, false_iff]
      intro h
      exact absurd (h [t] (.inr ⟨[], rfl, List.nil_prefix⟩)) (Nat.not_le.mpr hd)
    · rw [if_neg hd, ih (Nat.le_of_not_lt hd)]
      constructor
      · intro h part hpart
        rcases hpart with rfl | ⟨part, rfl, hpart⟩
        · exact hn
        · exact h part hpart
      · intro h part hpart
        exact h (t :: part) (.inr ⟨part, rfl, hpart⟩)

/-- The token ends the shortest part that is too deep. -/
def IsFirstTooDeep (n : Nesting) (ts part : List Token) (t : Token) : Prop :=
  part ++ [t] <+: ts ∧ maxNesting < (n.after (part ++ [t])).depth ∧
    ∀ shorter, shorter <+: part → (n.after shorter).depth ≤ maxNesting

theorem IsFirstTooDeep.depth_le {n : Nesting} {ts part : List Token} {t : Token}
    (h : IsFirstTooDeep n ts part t) : n.depth ≤ maxNesting :=
  h.2.2 [] List.nil_prefix

theorem isFirstTooDeep_nil {n : Nesting} (hn : n.depth ≤ maxNesting) {ts : List Token}
    {t u : Token} :
    IsFirstTooDeep n (u :: ts) [] t ↔ u = t ∧ maxNesting < (n.step t.kind).depth := by
  constructor
  · intro h
    exact ⟨(List.cons_prefix_cons.mp h.1).1.symm, h.2.1⟩
  · intro h
    obtain ⟨rfl, hdeep⟩ := h
    refine ⟨List.prefix_append [u] ts, hdeep, fun shorter hshorter => ?_⟩
    rw [List.prefix_nil.mp hshorter]
    exact hn

/-- The first token is the same, and the others are counted from behind it. -/
theorem isFirstTooDeep_cons {n : Nesting} (hn : n.depth ≤ maxNesting) {ts part : List Token}
    {t u v : Token} :
    IsFirstTooDeep n (u :: ts) (v :: part) t ↔
      v = u ∧ IsFirstTooDeep (n.step u.kind) ts part t := by
  constructor
  · intro h
    obtain ⟨hpart, hdeep, hshorter⟩ := h
    obtain ⟨rfl, hrest⟩ := List.cons_prefix_cons.mp hpart
    refine ⟨rfl, hrest, hdeep, fun shorter hle => ?_⟩
    exact hshorter (v :: shorter) (List.cons_prefix_cons.mpr ⟨rfl, hle⟩)
  · intro h
    obtain ⟨rfl, hrest, hdeep, hshorter⟩ := h
    refine ⟨List.cons_prefix_cons.mpr ⟨rfl, hrest⟩, hdeep, fun other hother => ?_⟩
    rcases List.prefix_cons_iff.mp hother with hnil | ⟨shorter, hcons, hle⟩
    · rw [hnil]
      exact hn
    · rw [hcons]
      exact hshorter shorter hle

/-- **Counting stops behind the shortest part that is too deep.** -/
theorem checkFrom_eq_error_iff (ts : List Token) {n : Nesting} (hn : n.depth ≤ maxNesting)
    {error : SyntaxError} :
    n.checkFrom ts = .error error ↔
      ∃ part t, IsFirstTooDeep n ts part t ∧ error = .tooDeep t.line maxNesting := by
  induction ts generalizing n with
  | nil => simp [checkFrom, IsFirstTooDeep]
  | cons u ts ih =>
    rw [checkFrom]
    by_cases hd : maxNesting < (n.step u.kind).depth
    · rw [if_pos hd]
      constructor
      · intro h
        cases h
        exact ⟨[], u, (isFirstTooDeep_nil hn).mpr ⟨rfl, hd⟩, rfl⟩
      · intro h
        obtain ⟨part, t, hfirst, rfl⟩ := h
        cases part with
        | nil => rw [((isFirstTooDeep_nil hn).mp hfirst).1]
        | cons v part =>
          have hle := ((isFirstTooDeep_cons hn).mp hfirst).2.depth_le
          exact absurd hd (Nat.not_lt.mpr hle)
    · rw [if_neg hd, ih (Nat.le_of_not_lt hd)]
      constructor
      · intro h
        obtain ⟨part, t, hfirst, herror⟩ := h
        exact ⟨u :: part, t, (isFirstTooDeep_cons hn).mpr ⟨rfl, hfirst⟩, herror⟩
      · intro h
        obtain ⟨part, t, hfirst, herror⟩ := h
        cases part with
        | nil =>
          obtain ⟨rfl, hdeep⟩ := (isFirstTooDeep_nil hn).mp hfirst
          exact absurd hdeep hd
        | cons v part => exact ⟨part, t, ((isFirstTooDeep_cons hn).mp hfirst).2, herror⟩

/-! ## 4. Every list of tokens -/

/-- Behind these tokens too many levels are open. -/
def IsTooDeep (ts : List Token) : Prop :=
  ∃ s, Tally.start.after? ts = some s ∧ maxNesting < s.depth

theorem isTooDeep_iff (ts : List Token) :
    IsTooDeep ts ↔ maxNesting < (start.after ts).depth := by
  have htally : Tally.start.after? ts = some (start.after ts).tally :=
    start_isCounted.after?_tally ts
  simp [IsTooDeep, htally, tally]

/-- **The number of levels never parts from the stack.** Behind every part of a list of tokens the
    tally is there, its stack is not empty, and the number of levels is that of the stack. So the
    check fails exactly if some part is too deep, and it names the line of the last token of the
    shortest such part. -/
theorem check_by_tally (ts : List Token) :
    (∀ part, part <+: ts → Tally.start.after? part = some (start.after part).tally ∧
      (start.after part).tally.IsBalanced) ∧
    (check ts = .ok () ↔ ∀ part, part <+: ts → ¬IsTooDeep part) ∧
    ∀ error, check ts = .error error ↔
      ∃ part t, part ++ [t] <+: ts ∧ IsTooDeep (part ++ [t]) ∧
        (∀ shorter, shorter <+: part → ¬IsTooDeep shorter) ∧
        error = .tooDeep t.line maxNesting := by
  have hstart : start.depth ≤ maxNesting := Nat.zero_le _
  simp only [isTooDeep_iff, Nat.not_lt]
  refine ⟨fun part _ => ?_, checkFrom_eq_ok_iff ts hstart, fun error => ?_⟩
  · exact ⟨start_isCounted.after?_tally part, (start_isCounted.after part).isBalanced⟩
  · refine (checkFrom_eq_error_iff ts hstart).trans ?_
    simp only [IsFirstTooDeep, and_assoc]

end Nesting

end Abacus
