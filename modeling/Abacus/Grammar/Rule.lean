import Abacus.Token

/-!
# Rules of a grammar

A rule reads a phrase at the start of a list of tokens. It gives what the phrase means and the
tokens behind it, or it fails and gives the tokens at which it was stuck. Every phrase has at least
one token, and each rule carries the proof, so that repetitions end.

Rules are put together by sequence (`pair`, `left`, `right`), ordered choice (`orElse`) and
repetition (`chain`, `many`). A choice forgets where its first rule was stuck, and a repetition
forgets where it could not go on: it ends before the phrase that failed.

Main statement: a repetition leaves no more than it was given (`many_rest_le`).
-/

namespace Abacus

/-- What a rule gives: the meaning of a phrase and the tokens behind it, or the tokens at which the
    rule was stuck. -/
abbrev Reading (α : Type) : Type := Except (List Token) (α × List Token)

/-- A rule of the grammar. -/
structure Rule (α : Type) where
  run : List Token → Reading α
  /-- A phrase has at least one token. -/
  shrinks : ∀ {ts a rest}, run ts = .ok (a, rest) → rest.length < ts.length

namespace Rule

variable {α β γ : Type}

/-! ## 1. Single tokens -/

/-- The rule without phrases. -/
def fail : Rule α where
  run ts := .error ts
  shrinks h := by cases h

/-- A token of the given kind. -/
def token (kind : TokenKind) : Rule Token where
  run
    | [] => .error []
    | t :: rest => if t.kind = kind then .ok (t, rest) else .error (t :: rest)
  shrinks := by
    intro ts a rest h
    match ts with
    | [] => cases h
    | t :: rest' =>
      simp only at h
      split at h
      · cases h; simp
      · cases h

/-- The phrases of a rule whose meaning has a further meaning. -/
def filterMap (r : Rule α) (f : α → Option β) : Rule β where
  run ts :=
    match r.run ts with
    | .ok (a, rest) =>
      match f a with
      | some b => .ok (b, rest)
      | none => .error ts
    | .error stuck => .error stuck
  shrinks := by
    intro ts b rest h
    split at h
    · rename_i a rest' hr
      split at h
      · cases h; exact r.shrinks hr
      · cases h
    · cases h

/-- The phrases of a rule with another meaning. -/
def map (r : Rule α) (f : α → β) : Rule β where
  run ts :=
    match r.run ts with
    | .ok (a, rest) => .ok (f a, rest)
    | .error stuck => .error stuck
  shrinks := by
    intro ts b rest h
    split at h
    · rename_i a rest' hr
      cases h; exact r.shrinks hr
    · cases h

/-! ## 2. Sequence and choice -/

/-- A phrase of the first rule, then one of the second. -/
def pair (r : Rule α) (s : Rule β) : Rule (α × β) where
  run ts :=
    match r.run ts with
    | .ok (a, mid) =>
      match s.run mid with
      | .ok (b, rest) => .ok ((a, b), rest)
      | .error stuck => .error stuck
    | .error stuck => .error stuck
  shrinks := by
    intro ts ab rest h
    split at h
    · rename_i a mid hr
      split at h
      · rename_i b rest' hs
        cases h
        exact Nat.lt_trans (s.shrinks hs) (r.shrinks hr)
      · cases h
    · cases h

/-- A sequence that means what its first phrase means. -/
def left (r : Rule α) (s : Rule β) : Rule α := (r.pair s).map Prod.fst

/-- A sequence that means what its second phrase means. -/
def right (r : Rule α) (s : Rule β) : Rule β := (r.pair s).map Prod.snd

/-- A phrase of the first rule, or, if there is none, one of the second. -/
def orElse (r s : Rule α) : Rule α where
  run ts :=
    match r.run ts with
    | .ok reading => .ok reading
    | .error _ => s.run ts
  shrinks := by
    intro ts a rest h
    split at h
    · rename_i reading hr
      cases h; exact r.shrinks hr
    · exact s.shrinks h

/-- A phrase of the first rule, with one of the second behind it if there is one. -/
def pairOption (r : Rule α) (s : Rule β) : Rule (α × Option β) where
  run ts :=
    match r.run ts with
    | .ok (a, mid) =>
      match s.run mid with
      | .ok (b, rest) => .ok ((a, some b), rest)
      | .error _ => .ok ((a, none), mid)
    | .error stuck => .error stuck
  shrinks := by
    intro ts ab rest h
    split at h
    · rename_i a mid hr
      split at h
      · rename_i b rest' hs
        cases h
        exact Nat.lt_trans (s.shrinks hs) (r.shrinks hr)
      · cases h; exact r.shrinks hr
    · cases h

/-! ## 3. Repetition -/

/-- Joins phrases of a rule to what was read already, from left to right, as long as there are
    any. -/
def foldFrom (r : Rule β) (f : α → β → α) (a : α) (ts : List Token) : α × List Token :=
  match _h : r.run ts with
  | .ok (b, rest) => foldFrom r f (f a b) rest
  | .error _ => (a, ts)
termination_by ts.length
decreasing_by exact r.shrinks _h

/-- **A repetition leaves no more than it was given.** -/
theorem foldFrom_rest_le (r : Rule β) (f : α → β → α) (a : α) (ts : List Token) :
    (foldFrom r f a ts).2.length ≤ ts.length := by
  fun_induction foldFrom r f a ts with
  | case1 a ts b rest h ih => exact Nat.le_trans ih (Nat.le_of_lt (r.shrinks h))
  | case2 => exact Nat.le_refl _

/-- A phrase of the first rule, joined from left to right with the phrases of the second that
    follow it. -/
def fold (r : Rule α) (s : Rule β) (f : α → β → α) : Rule α where
  run ts :=
    match r.run ts with
    | .ok (a, mid) => .ok (foldFrom s f a mid)
    | .error stuck => .error stuck
  shrinks := by
    intro ts a rest h
    split at h
    · rename_i a' mid hr
      simp only [Except.ok.injEq] at h
      have h1 := foldFrom_rest_le s f a' mid
      rw [h] at h1
      exact Nat.lt_of_le_of_lt h1 (r.shrinks hr)
    · cases h

/-- All phrases of a rule, one behind the other, and the tokens behind them. -/
def many (r : Rule α) (ts : List Token) : List α × List Token :=
  let (phrases, rest) := foldFrom r Array.push #[] ts
  (phrases.toList, rest)

theorem many_rest_le (r : Rule α) (ts : List Token) : (r.many ts).2.length ≤ ts.length :=
  foldFrom_rest_le r Array.push #[] ts

/-- All phrases of a rule between a phrase that opens and a phrase that closes. -/
def between (opening : Rule α) (r : Rule β) (closing : Rule γ) : Rule (List β) where
  run ts :=
    match opening.run ts with
    | .ok (_, mid) =>
      let (phrases, mid) := r.many mid
      match closing.run mid with
      | .ok (_, rest) => .ok (phrases, rest)
      | .error stuck => .error stuck
    | .error stuck => .error stuck
  shrinks := by
    intro ts bs rest h
    split at h
    · rename_i o mid ho
      simp only at h
      split at h
      · rename_i c rest' hc
        cases h
        exact Nat.lt_of_lt_of_le (closing.shrinks hc)
          (Nat.le_trans (many_rest_le r mid) (Nat.le_of_lt (opening.shrinks ho)))
      · cases h
    · cases h

end Rule

end Abacus
