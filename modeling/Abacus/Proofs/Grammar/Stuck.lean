import Abacus.Grammar.Parser
import Abacus.Proofs.Grammar.Depth

/-!
# Rejected tokens

Tokens that are no program are rejected with an error, and the error names a token or none. This
file shows that the named token is one of those that were given. A rule never looks at anything but
the tokens behind the ones that it has read: wherever it ends, at the end of its phrase or where it
is stuck, is an end of the tokens it was given (`Rule.Advances`). Every way to put rules together
keeps this, so it holds of all rules of the grammar, and of the walk through the statements
(`walk_advances`).

Main statement: the three errors of tokens, and the token that each names
(`parse_error_cases`).
-/

namespace Abacus

/-! ## 1. Rules -/

/-- The tokens at which a reading ended: behind the phrase, or where the rule was stuck. -/
def Reading.remaining {α : Type} : Reading α → List Token
  | .ok (_, rest) => rest
  | .error stuck => stuck

namespace Rule

variable {α β γ : Type} {r : Rule α} {s : Rule β}

/-- Wherever the rule ends, it has only gone forward. -/
def Advances (r : Rule α) : Prop := ∀ ts, (r.run ts).remaining <:+ ts

theorem advances_fail : (fail : Rule α).Advances := fun ts => List.suffix_refl ts

theorem advances_token (kind : TokenKind) : (token kind).Advances := by
  intro ts
  cases ts with
  | nil => exact List.suffix_refl _
  | cons t ts =>
    simp only [token]
    split
    · exact List.suffix_cons t ts
    · exact List.suffix_refl _

theorem Advances.filterMap {f : α → Option β} (hr : r.Advances) : (r.filterMap f).Advances := by
  intro ts
  have h := hr ts
  simp only [Rule.filterMap]
  generalize r.run ts = reading at h ⊢
  cases reading with
  | error stuck => exact h
  | ok reading =>
    simp only
    split
    · exact h
    · exact List.suffix_refl ts

theorem Advances.map {f : α → β} (hr : r.Advances) : (r.map f).Advances := by
  intro ts
  have h := hr ts
  simp only [Rule.map]
  generalize r.run ts = reading at h ⊢
  cases reading with
  | error stuck => exact h
  | ok reading => exact h

theorem Advances.pair (hr : r.Advances) (hs : s.Advances) : (r.pair s).Advances := by
  intro ts
  have h := hr ts
  simp only [Rule.pair]
  generalize r.run ts = reading at h ⊢
  cases reading with
  | error stuck => exact h
  | ok reading =>
    have h' := hs reading.2
    simp only
    generalize s.run reading.2 = reading' at h' ⊢
    cases reading' with
    | error stuck => exact h'.trans h
    | ok reading' => exact h'.trans h

theorem Advances.left (hr : r.Advances) (hs : s.Advances) : (r.left s).Advances := (hr.pair hs).map

theorem Advances.right (hr : r.Advances) (hs : s.Advances) : (r.right s).Advances :=
  (hr.pair hs).map

theorem Advances.orElse {r' : Rule α} (hr : r.Advances) (hr' : r'.Advances) :
    (r.orElse r').Advances := by
  intro ts
  have h := hr ts
  simp only [Rule.orElse]
  generalize r.run ts = reading at h ⊢
  cases reading with
  | error stuck => exact hr' ts
  | ok reading => exact h

theorem Advances.pairOption (hr : r.Advances) (hs : s.Advances) : (r.pairOption s).Advances := by
  intro ts
  have h := hr ts
  simp only [Rule.pairOption]
  generalize r.run ts = reading at h ⊢
  cases reading with
  | error stuck => exact h
  | ok reading =>
    have h' := hs reading.2
    simp only
    generalize s.run reading.2 = reading' at h' ⊢
    cases reading' with
    | error stuck => exact h
    | ok reading' => exact h'.trans h

theorem Advances.foldFrom {f : α → β → α} (hs : s.Advances) (a : α) (ts : List Token) :
    (foldFrom s f a ts).2 <:+ ts := by
  fun_induction Rule.foldFrom s f a ts with
  | case1 a ts b rest hb ih =>
    have h := hs ts
    rw [hb] at h
    exact ih.trans h
  | case2 a ts stuck hb => exact List.suffix_refl ts

theorem Advances.fold {f : α → β → α} (hr : r.Advances) (hs : s.Advances) :
    (r.fold s f).Advances := by
  intro ts
  have h := hr ts
  simp only [Rule.fold]
  generalize r.run ts = reading at h ⊢
  cases reading with
  | error stuck => exact h
  | ok reading => exact (hs.foldFrom reading.1 reading.2).trans h

end Rule

namespace Grammar

open Rule

/-! ## 2. The rules of the grammar -/

theorem identifier_advances : identifier.Advances := (advances_token .identifier).map

theorem atom_advances {inner : Rule Expr} (h : inner.Advances) : (atom inner).Advances :=
  ((advances_token .number).filterMap.orElse identifier_advances.map).orElse
    ((advances_token .lparen).right (h.left (advances_token .rparen))).map

theorem sign_advances (kind : TokenKind) (op : Operator) : (sign kind op).Advances :=
  (advances_token kind).map

theorem powerOf_advances {inner exponent : Rule Expr} (hi : inner.Advances)
    (he : exponent.Advances) : (powerOf inner exponent).Advances :=
  ((atom_advances hi).pairOption ((advances_token .caret).right he)).map

theorem joined_advances {operand : Rule Expr} {operator : Rule Operator} (h : operand.Advances)
    (hs : operator.Advances) : (joined operand operator).Advances := h.fold (hs.pair h)

theorem product_advances {power : Rule Expr} (h : power.Advances) : (product power).Advances :=
  joined_advances h ((sign_advances _ _).orElse (sign_advances _ _))

theorem sum_advances {product : Rule Expr} (h : product.Advances) : (sum product).Advances :=
  joined_advances h ((sign_advances _ _).orElse (sign_advances _ _))

theorem power_advances : ∀ levels : Nat, (power levels).Advances
  | 0 => powerOf_advances advances_fail advances_fail
  | levels + 1 =>
    powerOf_advances (sum_advances (product_advances (power_advances levels)))
      (power_advances levels)

theorem expr_advances (levels : Nat) : (expr levels).Advances :=
  sum_advances (product_advances (power_advances levels))

theorem assignment_advances {value : Rule Expr} (h : value.Advances) :
    (assignment value).Advances :=
  ((identifier_advances.left (advances_token .assign)).pair
    (h.left (advances_token .semicolon))).map

theorem printing_advances : printing.Advances :=
  ((((advances_token .print).right ((advances_token .lparen).right identifier_advances)).left
    (advances_token .rparen)).left (advances_token .semicolon)).map

theorem simple_advances (kind : TokenKind) : (simple kind).Advances := by
  unfold simple
  split
  · exact printing_advances
  · exact assignment_advances (expr_advances _)

/-! ## 3. The walk through the statements -/

/-- **The walk is stuck at an end of the tokens it was given.** -/
theorem walk_advances {blocks : Nat} {ts stuck : List Token} (h : walk blocks ts = .error stuck) :
    stuck <:+ ts := by
  fun_induction walk blocks ts with
  | case1 => cases h
  | case2 blocks t ts hl ih => exact (ih h).trans (List.suffix_cons t ts)
  | case3 blocks t ts hl hr ih => exact (ih h).trans (List.suffix_cons t ts)
  | case4 blocks t ts hl hr s rest hs ih =>
    have hrest := simple_advances t.kind (t :: ts)
    rw [hs] at hrest
    exact (ih h).trans hrest
  | case5 blocks t ts hl hr stuck' hs =>
    cases h
    have hstuck := simple_advances t.kind (t :: ts)
    rw [hs] at hstuck
    exact hstuck

theorem locate_cases (ts : List Token) :
    locate ts = .unexpectedEnd ∨ ∃ t ∈ ts, locate ts = .unexpected t.lexeme t.line := by
  unfold locate
  split
  · exact .inl rfl
  · rename_i stuck hstuck
    have hsuffix := walk_advances hstuck
    cases stuck with
    | nil => exact .inl rfl
    | cons t rest => exact .inr ⟨t, hsuffix.subset List.mem_cons_self, rfl⟩

/-! ## 4. Errors -/

/-- Tokens that are nested too deep are so behind a token that opens a level. -/
theorem exists_of_check_error {ts : List Token} {error : SyntaxError}
    (h : Nesting.check ts = .error error) :
    ∃ t ∈ ts, t.kind.opens = true ∧ error = .tooDeep t.line maxNesting := by
  have h0 : Nesting.start.depth ≤ maxNesting := Nat.zero_le _
  have hdeep : ∃ level ∈ Nesting.start.levels ts, maxNesting < level := by
    refine Classical.byContradiction fun hno => ?_
    simp only [not_exists, not_and, Nat.not_lt] at hno
    rw [Nesting.check, (Nesting.checkFrom_ok_iff ts h0).mpr hno] at h
    cases h
  obtain ⟨before, t, after, rfl, ht, -, -, hc⟩ := Nesting.exists_of_checkFrom_error ts h0 hdeep
  refine ⟨t, List.mem_append_right _ List.mem_cons_self, ht, ?_⟩
  rw [Nesting.check, hc] at h
  cases h
  rfl

/-- **The errors of tokens.** They are nested too deep at a token that opens a level, they are stuck
    at a token, or they end too early. -/
theorem parse_error_cases {ts : List Token} {error : SyntaxError} (h : parse ts = .error error) :
    (∃ t ∈ ts, t.kind.opens = true ∧ error = .tooDeep t.line maxNesting) ∨
      error = .unexpectedEnd ∨ ∃ t ∈ ts, error = .unexpected t.lexeme t.line := by
  unfold parse at h
  split at h
  · rename_i error' hn
    cases h
    exact .inl (exists_of_check_error hn)
  · split at h
    · cases h
    · cases h
      exact .inr (locate_cases ts)

end Grammar

end Abacus
