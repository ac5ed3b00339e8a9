import Abacus.Proofs.Grammar.Joining
import Abacus.Proofs.Token.Pieces

/-!
# Where programs end

Braces and semicolons stand between and around the statements of a program, and never inside an
expression (`IsSum.areInner`). So they show the shape of a program without its being parsed:

* a program ends in a closing brace or in a semicolon, and what stands before its last semicolon is
  neither a brace nor a semicolon (`IsProgram.ends`);
* it has as many closing braces as opening ones (`IsProgram.countP_braces`).

All of this is about tokens. A text that is a program is a row of pieces with such tokens
(`Accepts.exists_row`).
-/

namespace Abacus

namespace Grammar

/-! ## 1. Expressions -/

/-- The token is no brace and no semicolon. -/
def IsInner (t : Token) : Prop := t.kind ≠ .semicolon ∧ t.kind ≠ .lbrace ∧ t.kind ≠ .rbrace

/-- There is a token, and there are neither braces nor semicolons. -/
def AreInner (ts : List Token) : Prop := ts ≠ [] ∧ ∀ t ∈ ts, IsInner t

theorem areInner_singleton {t : Token} {kind : TokenKind} (h : t.kind = kind)
    (hk : kind ≠ .semicolon ∧ kind ≠ .lbrace ∧ kind ≠ .rbrace) : AreInner [t] := by
  refine ⟨List.cons_ne_nil _ _, fun u hu => ?_⟩
  rw [List.mem_singleton.mp hu, IsInner, h]
  exact hk

/-- The token of an operator, which is one of two signs. -/
theorem areInner_operator {t : Token} {kind kind' : TokenKind} {p q : Prop}
    (h : t.kind = kind ∧ p ∨ t.kind = kind' ∧ q)
    (hk : kind ≠ .semicolon ∧ kind ≠ .lbrace ∧ kind ≠ .rbrace)
    (hk' : kind' ≠ .semicolon ∧ kind' ≠ .lbrace ∧ kind' ≠ .rbrace) : AreInner [t] := by
  rcases h with ⟨h, -⟩ | ⟨h, -⟩
  · exact areInner_singleton h hk
  · exact areInner_singleton h hk'

theorem AreInner.append {us vs : List Token} (hu : AreInner us) (hv : AreInner vs) :
    AreInner (us ++ vs) := by
  refine ⟨by simp [hu.1], fun t ht => ?_⟩
  rcases List.mem_append.mp ht with ht | ht
  · exact hu.2 t ht
  · exact hv.2 t ht

mutual

theorem IsAtom.areInner {ts : List Token} {e : Expr} : IsAtom ts e → AreInner ts
  | .paren hl h hr =>
    (areInner_singleton hl (by decide)).append
      (h.areInner.append (areInner_singleton hr (by decide)))
  | .number ht _ => areInner_singleton ht (by decide)
  | .name ht => areInner_singleton ht (by decide)

theorem IsPower.areInner {ts : List Token} {e : Expr} : IsPower ts e → AreInner ts
  | .raise hb ht he => hb.areInner.append ((areInner_singleton ht (by decide)).append he.areInner)
  | .atom h => h.areInner

theorem IsProduct.areInner {ts : List Token} {e : Expr} : IsProduct ts e → AreInner ts
  | .join hl ht hr =>
    hl.areInner.append
      ((areInner_operator (productOperator?_cases ht) (by decide) (by decide)).append hr.areInner)
  | .power h => h.areInner

/-- An expression holds neither braces nor semicolons. -/
theorem IsSum.areInner {ts : List Token} {e : Expr} : IsSum ts e → AreInner ts
  | .join hl ht hr =>
    hl.areInner.append
      ((areInner_operator (sumOperator?_cases ht) (by decide) (by decide)).append hr.areInner)
  | .product h => h.areInner

end

/-! ## 2. Ends -/

/-- The tokens end in a closing brace, or in a semicolon behind something else. -/
def EndsStatement (ts : List Token) : Prop :=
  (∃ us t, ts = us ++ [t] ∧ t.kind = .rbrace) ∨
    ∃ us u t, ts = us ++ [u] ++ [t] ∧ t.kind = .semicolon ∧ IsInner u

theorem EndsStatement.append {vs : List Token} (h : EndsStatement vs) (us : List Token) :
    EndsStatement (us ++ vs) := by
  rcases h with ⟨ws, t, rfl, ht⟩ | ⟨ws, u, t, rfl, ht, hu⟩
  · exact .inl ⟨us ++ ws, t, by rw [List.append_assoc], ht⟩
  · exact .inr ⟨us ++ ws, u, t, by simp only [List.append_assoc], ht, hu⟩

theorem IsStatement.ends {ts : List Token} {s : Statement} (h : IsStatement ts s) :
    EndsStatement ts := by
  cases h with
  | @assign t a s us e ht ha h hs =>
    obtain ⟨hne, hinner⟩ := h.areInner
    obtain ⟨vs, u, rfl⟩ := (List.eq_nil_or_concat us).resolve_left hne
    rw [List.concat_eq_append] at hinner ⊢
    exact .inr ⟨t :: a :: vs, u, s, rfl, hs, hinner u (by simp)⟩
  | @print p l t r s hp hl ht hr hs =>
    refine .inr ⟨[p, l, t], r, s, rfl, hs, ?_⟩
    rw [IsInner, hr]
    decide
  | @block l r us body hl h hr => exact .inl ⟨l :: us, r, rfl, hr⟩

/-- **A program ends in a closing brace, or in a semicolon behind something else.** -/
theorem IsProgram.ends {ts : List Token} {program : Program} (h : IsProgram ts program)
    (hne : ts ≠ []) : EndsStatement ts := by
  cases h with
  | empty => exact absurd rfl hne
  | snoc h hs => exact hs.ends.append _

/-- There is a sign in a program by which it is told apart from a single word. -/
theorem IsProgram.exists_sign {ts : List Token} {program : Program} (h : IsProgram ts program)
    (hne : ts ≠ []) :
    ∃ t ∈ ts, t.kind = .assign ∨ t.kind = .lparen ∨ t.kind = .lbrace := by
  cases h with
  | empty => exact absurd rfl hne
  | snoc h hs =>
    cases hs with
    | @assign t a s us e ht ha h hs => exact ⟨a, by simp, .inl ha⟩
    | @print p l t r s hp hl ht hr hs => exact ⟨l, by simp, .inr (.inl hl)⟩
    | @block l r us body hl h hr => exact ⟨l, by simp, .inr (.inr hl)⟩

/-! ## 3. Braces -/

theorem AreInner.countP_braces {ts : List Token} (h : AreInner ts) :
    ts.countP (·.kind = .lbrace) = 0 ∧ ts.countP (·.kind = .rbrace) = 0 := by
  refine ⟨List.countP_eq_zero.mpr fun t ht => ?_, List.countP_eq_zero.mpr fun t ht => ?_⟩
  · simpa using (h.2 t ht).2.1
  · simpa using (h.2 t ht).2.2

mutual

theorem IsStatement.countP_braces {ts : List Token} {s : Statement} :
    IsStatement ts s → ts.countP (·.kind = .lbrace) = ts.countP (·.kind = .rbrace)
  | .assign ht ha h hs => by
      obtain ⟨hopen, hclose⟩ := h.areInner.countP_braces
      simp [ht, ha, hs, hopen, hclose]
  | .print hp hl ht hr hs => by simp [hp, hl, ht, hr, hs]
  | .block hl h hr => by
      have hbody := h.countP_braces
      simp only [List.countP_cons, List.countP_append, List.countP_nil, hl, hr]
      simp [hbody]

/-- **A program has as many closing braces as opening ones.** -/
theorem IsProgram.countP_braces {ts : List Token} {program : Program} :
    IsProgram ts program → ts.countP (·.kind = .lbrace) = ts.countP (·.kind = .rbrace)
  | .empty => rfl
  | .snoc h hs => by rw [List.countP_append, List.countP_append, h.countP_braces, hs.countP_braces]

end

/-! ## 4. Texts -/

/-- The text is a program. -/
def Accepts (source : String) : Prop := ∃ program, parseText source = .ok program

/-- A text that is a program is a row of pieces, and their tokens derive the program. -/
theorem Accepts.exists_row {source : String} (h : Accepts source) :
    ∃ pieces last program, Lexer.IsGap last ∧ source.toList = Lexer.text pieces last ∧
      IsProgram (Lexer.tokensBehind [] pieces) program := by
  obtain ⟨program, h⟩ := h
  obtain ⟨ts, hts, hprogram⟩ := exists_of_parseText h
  obtain ⟨pieces, last, hlast, -, htext, rfl⟩ := Lexer.composes_of_tokenize hts
  exact ⟨pieces, last, program, hlast, htext, isProgram_of_parse hprogram⟩

end Grammar

end Abacus
