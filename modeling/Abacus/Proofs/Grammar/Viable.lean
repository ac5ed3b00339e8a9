import Abacus.Proofs.Grammar.Calls
import Abacus.Proofs.Grammar.Operands

/-!
# Beginnings of programs

Tokens are viable if they begin a program. A list of tokens that is no program has a first token
with which it stops being viable, unless it is viable as a whole and only unfinished. This file
compares that token with the one that the error names, which is the token at which the rule of the
first wrong statement is stuck:

* what the rule has read begins a statement, so it can be completed (`Stops.begins`);
* the token at which it is stuck is one that it could not read whatever followed (`Stops.blames`).
  There is one exception. A sign between operands is read together with the operand behind it, and
  if there is none the sign is given back. Then the rule is stuck at the sign, though the statement
  could go on with it and only what follows is wrong or missing (`Stops.lacks`).

Each of these is shown for the expressions, where parentheses lead from one to the next
(`reportsAt_expr`), then for the statements (`reportsAt_simpleWith`) and for the walk through them
(`reported_of_walk`).

Main statements: what stands before the named token is viable, and so is the whole if the error is
an early end (`viable_up_to_error`). The tokens up to and with the named one are viable exactly if
it is a sign behind an operand, and what is only unfinished is reported as an early end exactly if
no sign in it lacks its operand (`viable_with_error_iff`).
-/

namespace Abacus

namespace Grammar

open Rule Relation

/-! ## 1. Viable tokens -/

/-- Some tokens behind the given ones make them a program. -/
def Viable (ts : List Token) : Prop := ∃ rest program, IsProgram (ts ++ rest) program

theorem Viable.of_append {us vs : List Token} (h : Viable (us ++ vs)) : Viable us := by
  obtain ⟨rest, program, hprogram⟩ := h
  exact ⟨vs ++ rest, program, by rwa [← List.append_assoc]⟩

/-- A closing brace for each block. -/
theorem exists_closes : ∀ blocks : Nat, ∃ rest, Closes blocks rest
  | 0 => ⟨[], .outside .empty⟩
  | blocks + 1 => by
      obtain ⟨rest, hrest⟩ := exists_closes blocks
      exact ⟨⟨.rbrace, "\x7d", 1⟩ :: rest, .inside .empty rfl hrest⟩

/-- What the walk has gone through is viable. -/
theorem Enters.viable {blocks : Nat} {us : List Token} (h : Enters blocks us) : Viable us := by
  obtain ⟨rest, hrest⟩ := exists_closes blocks
  cases h.closes hrest with
  | outside hprogram => exact ⟨rest, _, hprogram⟩

/-- So is the beginning of a statement behind it. -/
theorem Enters.viable_append {blocks : Nat} {us vs : List Token} (h : Enters blocks us)
    (hvs : ∃ more s, IsStatement (vs ++ more) s) : Viable (us ++ vs) := by
  obtain ⟨more, s, hs⟩ := hvs
  have hviable := (h.pass hs).viable
  rw [← List.append_assoc] at hviable
  exact hviable.of_append

/-! ## 2. Where rules are stuck -/

section Stops

variable {α β : Type} {r : Rule α} {s : Rule β} {R : List Token → α → Prop}
  {S : List Token → β → Prop} {p q : Position} {us stuck ts : List Token}

/-- The rule, at the given position, has read some tokens and is stuck at others. -/
structure Stops (p : Position) (r : Rule α) (R : List Token → α → Prop)
    (us stuck : List Token) : Prop where
  /-- Every sign that was read has its operand. -/
  operands : HasOperands us
  /-- What was read begins a phrase. -/
  begins : ∃ more a, R (us ++ more) a
  /-- At another token than a sign behind an operand the rule is stuck whatever follows. -/
  blames : ∀ t rest, stuck = t :: rest → ¬(t.kind.isSign = true ∧ p.after us = .behind) →
    ∀ other, r.run (us ++ t :: other) = .error (t :: other)
  /-- A sign behind an operand goes on with the phrase, but it has no operand behind it. -/
  lacks : ∀ t rest, stuck = t :: rest → t.kind.isSign = true → p.after us = .behind →
    LacksOperand rest ∧ ∃ more a, R (us ++ t :: more) a

/-- Wherever the rule is stuck among the tokens, it stops so. -/
def ReportsAt (p : Position) (r : Rule α) (R : List Token → α → Prop) (ts : List Token) : Prop :=
  ∀ stuck, r.run ts = .error stuck → ∃ us, ts = us ++ stuck ∧ Stops p r R us stuck

/-- A rule that calls another behind some tokens stops where that one does. -/
theorem Stops.lift {before : List Token} (h : Stops p r R us stuck) (hbefore : HasOperands before)
    (hp : q.after before = p) (hphrase : ∀ us a, R us a → ∃ more b, S (before ++ (us ++ more)) b)
    (hrun : ∀ t rest other, stuck = t :: rest → r.run (us ++ t :: other) = .error (t :: other) →
      s.run (before ++ (us ++ t :: other)) = .error (t :: other)) :
    Stops q s S (before ++ us) stuck := by
  have hafter : q.after (before ++ us) = p.after us := by rw [Position.after_append, hp]
  have hextend : ∀ vs a, R (us ++ vs) a → ∃ more b, S (before ++ us ++ (vs ++ more)) b := by
    intro vs a hR
    obtain ⟨more, b, hS⟩ := hphrase _ a hR
    rw [List.append_assoc, ← List.append_assoc] at hS
    exact ⟨more, b, hS⟩
  refine ⟨hbefore.append h.operands, ?_, ?_, ?_⟩
  · obtain ⟨vs, a, hR⟩ := h.begins
    obtain ⟨more, b, hS⟩ := hextend vs a hR
    exact ⟨vs ++ more, b, hS⟩
  · intro t rest hcons hno other
    rw [hafter] at hno
    rw [List.append_assoc]
    exact hrun t rest other hcons (h.blames t rest hcons hno other)
  · intro t rest hcons hsign hbehind
    rw [hafter] at hbehind
    obtain ⟨hlacks, vs, a, hR⟩ := h.lacks t rest hcons hsign hbehind
    obtain ⟨more, b, hS⟩ := hextend (t :: vs) a hR
    exact ⟨hlacks, vs ++ more, b, hS⟩

theorem ReportsAt.map {f : α → β} (hr : ReportsAt p r R ts)
    (h : ∀ phrase a, R phrase a → S phrase (f a)) : ReportsAt p (r.map f) S ts := by
  intro stuck hstuck
  obtain ⟨us, hts, hstops⟩ := hr stuck (run_map_eq_error.mp hstuck)
  refine ⟨us, hts, hstops.lift hasOperands_nil rfl ?_ fun t rest other _ => run_map_error f⟩
  intro phrase a hR
  exact ⟨[], f a, by simpa using h phrase a hR⟩

/-- The rule never looks behind its phrase, so that it reads the phrase whatever follows. A phrase
    leads from one position to another. -/
structure Plain (p : Position) (r : Rule α) (R : List Token → α → Prop) (q : Position) :
    Prop where
  reports : ∀ ts, ReportsAt p r R ts
  reads : ∀ ts a rest, r.run ts = .ok (a, rest) → ∃ us, ts = us ++ rest ∧ R us a ∧
    HasOperands us ∧ p.after us = q ∧ ∀ other, r.run (us ++ other) = .ok (a, other)
  /-- There is a phrase at all. -/
  phrase : ∃ us a, R us a

theorem plain_token {kind : TokenKind} (hp : p ≠ .behind) (hsign : kind.isSign = false)
    (hq : p.step kind = q) :
    Plain p (token kind) (fun phrase t => phrase = [t] ∧ t.kind = kind) q where
  reports ts stuck h := by
    obtain ⟨rfl, hts⟩ := run_token_eq_error.mp h
    refine ⟨[], rfl, hasOperands_nil, ⟨[⟨kind, "", 1⟩], ⟨kind, "", 1⟩, rfl, rfl⟩, ?_, ?_⟩
    · intro t rest hcons _ other
      rw [hcons] at hts
      exact run_token_of_avoids (avoids_cons (hts t rfl))
    · exact fun _ _ _ _ hbehind => absurd hbehind hp
  reads ts t rest h := by
    obtain ⟨_, rfl, rfl, hk⟩ := reads_token kind ts t rest h
    refine ⟨[t], rfl, ⟨rfl, hk⟩, hasOperands_singleton (by rwa [hk]), ?_, fun _ => run_token hk⟩
    rw [Position.after_cons, hk, hq]
    rfl
  phrase := ⟨_, ⟨kind, "", 1⟩, rfl, rfl⟩

theorem Plain.map {f : α → β} (hr : Plain p r R q) (h : ∀ phrase a, R phrase a → S phrase (f a)) :
    Plain p (r.map f) S q where
  reports ts := (hr.reports ts).map h
  reads ts b rest hrun := by
    obtain ⟨a, rfl, ha⟩ := exists_of_run_map hrun
    obtain ⟨us, hts, hR, hus, hq, hany⟩ := hr.reads ts a rest ha
    exact ⟨us, hts, h _ _ hR, hus, hq, fun other => run_map f (hany other)⟩
  phrase := by
    obtain ⟨us, a, hR⟩ := hr.phrase
    exact ⟨us, f a, h us a hR⟩

/-- Behind a plain phrase the second rule is stuck as it would be alone. -/
theorem ReportsAt.pair (hr : Plain p r R q) (hphrase : ∃ vs b, S vs b)
    (hs : ∀ a mid, r.run ts = .ok (a, mid) → ReportsAt q s S mid) :
    ReportsAt p (r.pair s) (fun phrase ab => ∃ us vs, phrase = us ++ vs ∧ R us ab.1 ∧ S vs ab.2)
      ts := by
  intro stuck hstuck
  rcases run_pair_eq_error.mp hstuck with hfirst | ⟨a, mid, ha, hsecond⟩
  · obtain ⟨us, hts, hstops⟩ := hr.reports ts stuck hfirst
    refine ⟨us, hts, hstops.lift hasOperands_nil rfl ?_ fun t rest other _ => run_pair_error⟩
    intro phrase a hR
    obtain ⟨vs, b, hS⟩ := hphrase
    exact ⟨vs, (a, b), phrase, vs, rfl, hR, hS⟩
  · obtain ⟨us, rfl, hR, hus, hq, hrun⟩ := hr.reads ts a mid ha
    obtain ⟨vs, rfl, hstops⟩ := hs a mid ha stuck hsecond
    refine ⟨us ++ vs, (List.append_assoc ..).symm, hstops.lift hus hq ?_ ?_⟩
    · intro phrase b hS
      exact ⟨[], (a, b), us, phrase, by rw [List.append_nil], hR, hS⟩
    · intro t rest other _ hstuck
      rwa [run_pair_eq_error_of_run (hrun _)]

theorem ReportsAt.right (hr : Plain p r R q) (hphrase : ∃ vs b, S vs b)
    (hs : ∀ a mid, r.run ts = .ok (a, mid) → ReportsAt q s S mid) :
    ReportsAt p (r.right s) (fun phrase b => ∃ us vs a, phrase = us ++ vs ∧ R us a ∧ S vs b) ts :=
  (ReportsAt.pair hr hphrase hs).map fun _ ab ⟨us, vs, hphrase, hR, hS⟩ =>
    ⟨us, vs, ab.1, hphrase, hR, hS⟩

variable {q' : Position}

theorem Plain.pair (hr : Plain p r R q) (hs : Plain q s S q') :
    Plain p (r.pair s) (fun phrase ab => ∃ us vs, phrase = us ++ vs ∧ R us ab.1 ∧ S vs ab.2)
      q' where
  reports _ := ReportsAt.pair hr hs.phrase fun _ mid _ => hs.reports mid
  reads ts ab rest h := by
    obtain ⟨mid, ha, hb⟩ := exists_of_run_pair h
    obtain ⟨us, rfl, hR, hus, hq, hrun⟩ := hr.reads ts ab.1 mid ha
    obtain ⟨vs, rfl, hS, hvs, hq', hrun'⟩ := hs.reads mid ab.2 rest hb
    refine ⟨us ++ vs, ?_, ⟨us, vs, rfl, hR, hS⟩, hus.append hvs, ?_, fun other => ?_⟩
    · rw [List.append_assoc]
    · rw [Position.after_append, hq, hq']
    · rw [List.append_assoc]
      exact run_pair (hrun _) (hrun' _)
  phrase := by
    obtain ⟨us, a, hR⟩ := hr.phrase
    obtain ⟨vs, b, hS⟩ := hs.phrase
    exact ⟨us ++ vs, (a, b), us, vs, rfl, hR, hS⟩

theorem Plain.left (hr : Plain p r R q) (hs : Plain q s S q') :
    Plain p (r.left s) (fun phrase a => ∃ us vs b, phrase = us ++ vs ∧ R us a ∧ S vs b) q' :=
  (hr.pair hs).map fun _ ab ⟨us, vs, hphrase, hR, hS⟩ => ⟨us, vs, ab.2, hphrase, hR, hS⟩

theorem Plain.right (hr : Plain p r R q) (hs : Plain q s S q') :
    Plain p (r.right s) (fun phrase b => ∃ us vs a, phrase = us ++ vs ∧ R us a ∧ S vs b) q' :=
  (hr.pair hs).map fun _ ab ⟨us, vs, hphrase, hR, hS⟩ => ⟨us, vs, ab.1, hphrase, hR, hS⟩

end Stops

/-! ## 3. Expressions -/

/-- The tokens are an expression with a token of the given kind behind it. -/
def IsClosed (kind : TokenKind) (ts : List Token) (e : Expr) : Prop :=
  ∃ us t, ts = us ++ [t] ∧ IsSum us e ∧ t.kind = kind

theorem IsSum.exists_isClosed {us : List Token} {e : Expr} (h : IsSum us e) (kind : TokenKind) :
    ∃ vs, IsClosed kind (us ++ vs) e := ⟨[⟨kind, "", 1⟩], us, _, rfl, h, rfl⟩

theorem exists_isSum : ∃ us e, IsSum us e := by
  obtain ⟨us, e, hatom⟩ := exists_isAtom
  exact ⟨us, e, .product (.power (.atom hatom))⟩

theorem exists_isClosed (kind : TokenKind) : ∃ us e, IsClosed kind us e := by
  obtain ⟨us, e, hsum⟩ := exists_isSum
  obtain ⟨vs, hclosed⟩ := hsum.exists_isClosed kind
  exact ⟨us ++ vs, e, hclosed⟩

/-- An expression that a further token has to close. If it is not that token, it is a sign whose
    operand is missing, or the expression is read up to it whatever follows. -/
theorem reportsAt_closed (kind : TokenKind) {ts : List Token}
    (h : ReportsAt .before (unlimited expr) IsSum ts) :
    ReportsAt .before ((unlimited expr).left (token kind)) (IsClosed kind) ts := by
  intro stuck hstuck
  rcases run_left_eq_error.mp hstuck with hvalue | ⟨e, mid, he, hclose⟩
  · obtain ⟨us, hts, hstops⟩ := h stuck hvalue
    refine ⟨us, hts, hstops.lift hasOperands_nil rfl ?_ fun t rest other _ => run_left_error⟩
    intro phrase e hsum
    obtain ⟨vs, hclosed⟩ := hsum.exists_isClosed kind
    exact ⟨vs, e, hclosed⟩
  · obtain ⟨rfl, hmid⟩ := run_token_eq_error.mp hclose
    obtain ⟨us, rfl, hsum⟩ := reads_unlimited expr_reads _ _ _ he
    refine ⟨us, rfl, hsum.isRow.operands, ?_, ?_, ?_⟩
    · obtain ⟨vs, hclosed⟩ := hsum.exists_isClosed kind
      exact ⟨vs, e, hclosed⟩
    · intro t rest hcons hno other
      rw [hcons] at hmid
      have hother : AvoidsSign (t :: other) := by
        intro u hu
        cases hu
        exact Bool.of_not_eq_true fun hsign => hno ⟨hsign, hsum.isRow.after⟩
      refine run_left_eq_error.mpr (.inr ⟨e, _, hsum.run_unlimited_of_avoidsSign hother, ?_⟩)
      exact run_token_of_avoids (avoids_cons (hmid t rfl))
    · intro t rest hcons hsign _
      rw [hcons] at he
      obtain ⟨vs, e', hsum'⟩ := hsum.exists_extended hsign
      obtain ⟨ws, hclosed⟩ := hsum'.exists_isClosed kind
      rw [List.append_assoc] at hclosed
      exact ⟨lacksOperand_of_run_expr he hsign, vs ++ ws, e', hclosed⟩

/-- Some atom starts with the token. -/
def StartsAtom (t : Token) : Prop := ∃ more e, IsAtom (t :: more) e

theorem startsAtom_lparen {l : Token} (hl : l.kind = .lparen) : StartsAtom l := by
  obtain ⟨us, e, hsum⟩ := exists_isSum
  exact ⟨us ++ [⟨.rparen, ")", 1⟩], _, .paren hl hsum rfl⟩

theorem run_atom_of_not_startsAtom {ts : List Token} (h : ∀ t ∈ ts.head?, ¬StartsAtom t)
    (inner : Rule Expr) : (atom inner).run ts = .error ts := by
  have hname : Avoids ts [.identifier] :=
    fun t ht hk => h t ht ⟨[], _, .name (List.mem_singleton.mp hk)⟩
  have hparen : Avoids ts [.lparen] :=
    fun t ht hk => h t ht (startsAtom_lparen (List.mem_singleton.mp hk))
  have hconstant : ∃ stuck, constant.run ts = .error stuck := by
    cases hrun : constant.run ts with
    | error stuck => exact ⟨stuck, rfl⟩
    | ok reading =>
      obtain ⟨phrase, hts, hatom⟩ := constant_reads ts reading.1 reading.2 hrun
      cases phrase with
      | nil => cases hatom
      | cons t more => exact absurd ⟨more, _, hatom⟩ (h t (by rw [hts]; rfl))
  obtain ⟨stuck, hstuck⟩ := hconstant
  rw [atom, run_orElse_of_error]
  · exact run_map_error _ (run_right_error (run_token_of_avoids hparen))
  · rw [run_orElse_of_error hstuck]
    exact run_map_error _ (run_identifier_of_avoids hname)

/-- At an opening parenthesis only the last choice is left. -/
theorem run_atom_lparen {l : Token} (hl : l.kind = .lparen) (inner : Rule Expr)
    (rest : List Token) :
    (atom inner).run (l :: rest) =
      (((token .lparen).right (inner.left (token .rparen))).map Expr.paren).run (l :: rest) := by
  have hnumber : Avoids (l :: rest) [.number] := avoids_cons (by rw [hl]; decide)
  have hname : Avoids (l :: rest) [.identifier] := avoids_cons (by rw [hl]; decide)
  rw [atom, run_orElse_of_error]
  rw [run_orElse_of_error (run_constant_of_avoids hnumber)]
  exact run_map_error _ (run_identifier_of_avoids hname)

theorem reportsAt_paren {l : Token} {rest : List Token} (hl : l.kind = .lparen)
    (h : ReportsAt .before (unlimited expr) IsSum rest) :
    ReportsAt .before
      (((token .lparen).right ((unlimited expr).left (token .rparen))).map Expr.paren) IsAtom
      (l :: rest) := by
  have hinner : ∀ a mid, (token .lparen).run (l :: rest) = .ok (a, mid) →
      ReportsAt .before ((unlimited expr).left (token .rparen)) (IsClosed .rparen) mid := by
    intro a mid ha
    rw [run_token hl] at ha
    cases ha
    exact reportsAt_closed .rparen h
  have hlparen : Plain .before (token .lparen) _ .before := plain_token nofun rfl rfl
  refine (ReportsAt.right hlparen (exists_isClosed .rparen) hinner).map ?_
  intro phrase e ⟨us, vs, l', hphrase, ⟨hus, hl'⟩, ws, r, hvs, hsum, hr⟩
  rw [hphrase, hus, hvs]
  exact .paren hl' hsum hr

/-- Tokens that are cut behind their first one still start with it, whatever follows. -/
theorem exists_append_eq_cons {us vs rest : List Token} {t u : Token}
    (h : t :: vs = us ++ u :: rest) (other : List Token) : ∃ ws, us ++ u :: other = t :: ws := by
  cases us with
  | nil =>
    cases h
    exact ⟨other, rfl⟩
  | cons u' us =>
    cases h
    exact ⟨us ++ u :: other, rfl⟩

/-- Only an opening parenthesis leads further into an atom. -/
theorem reportsAt_atom {ts : List Token}
    (h : ∀ l rest, ts = l :: rest → ReportsAt .before (unlimited expr) IsSum rest) :
    ReportsAt .before (atom (unlimited expr)) IsAtom ts := by
  intro stuck hstuck
  by_cases hstart : ∃ t rest, ts = t :: rest ∧ StartsAtom t
  · obtain ⟨t, rest, rfl, more, e, hatom⟩ := hstart
    cases hatom with
    | number ht hv => cases hstuck.symm.trans (run_orElse (run_orElse (run_constant ht hv rest)))
    | name ht => cases hstuck.symm.trans (run_atom_name ht _ rest)
    | paren hl hsum hr =>
      rw [run_atom_lparen hl] at hstuck
      obtain ⟨us, hts, hstops⟩ := reportsAt_paren hl (h t rest rfl) stuck hstuck
      refine ⟨us, hts, hstops.lift hasOperands_nil rfl ?_ ?_⟩
      · intro phrase e hatom
        exact ⟨[], e, by rwa [List.append_nil]⟩
      · intro u behind other hcons hrun
        rw [hcons] at hts
        obtain ⟨vs, hvs⟩ := exists_append_eq_cons hts other
        rw [hvs] at hrun
        rwa [List.nil_append, hvs, run_atom_lparen hl]
  · have hno : ∀ us : List Token, us.head? = ts.head? → ∀ t ∈ us.head?, ¬StartsAtom t := by
      intro us hus t ht hatom
      rw [hus] at ht
      obtain ⟨rest, hts⟩ := List.head?_eq_some_iff.mp ht
      exact hstart ⟨t, rest, hts, hatom⟩
    rw [run_atom_of_not_startsAtom (hno ts rfl)] at hstuck
    cases hstuck
    refine ⟨[], rfl, hasOperands_nil, exists_isAtom, ?_, nofun⟩
    intro t rest hcons _ other
    exact run_atom_of_not_startsAtom (hno (t :: other) (by rw [hcons]; rfl)) _

theorem reportsAt_expr_of_atom {ts : List Token}
    (h : ReportsAt .before (atom (unlimited expr)) IsAtom ts) :
    ReportsAt .before (unlimited expr) IsSum ts := by
  intro stuck hstuck
  obtain ⟨us, hts, hstops⟩ := h stuck (run_expr_eq_error.mp hstuck)
  refine ⟨us, hts, hstops.lift hasOperands_nil rfl ?_ fun t rest other _ => run_expr_eq_error.mpr⟩
  intro phrase e hatom
  rw [← List.append_nil phrase] at hatom
  exact ⟨[], e, .product (.power (.atom hatom))⟩

/-- **An expression is stuck behind tokens that begin one**, and at a token that does not go on with
    it, unless it is a sign without an operand. -/
theorem reportsAt_expr : ∀ ts : List Token, ReportsAt .before (unlimited expr) IsSum ts
  | [] => reportsAt_expr_of_atom (reportsAt_atom nofun)
  | t :: ts => by
      refine reportsAt_expr_of_atom (reportsAt_atom fun l rest hts => ?_)
      cases hts
      exact reportsAt_expr ts

/-! ## 4. Statements -/

/-- A token before or behind which there is no expression. -/
theorem plain_outside (kind : TokenKind) (hsign : kind.isSign = false)
    (hq : Position.outside.step kind = .outside) :
    Plain .outside (token kind) (fun phrase t => phrase = [t] ∧ t.kind = kind) .outside :=
  plain_token nofun hsign hq

theorem plain_identifier :
    Plain .outside identifier
      (fun phrase x => ∃ t, phrase = [t] ∧ t.kind = .identifier ∧ x = t.lexeme) .outside :=
  (plain_outside .identifier rfl rfl).map fun _ t ⟨hphrase, ht⟩ => ⟨t, hphrase, ht, rfl⟩

theorem plain_printing : Plain .outside printing IsStatement .outside := by
  have hname := (plain_outside .lparen rfl rfl).right plain_identifier
  refine ((((plain_outside .print rfl rfl).right hname).left (plain_outside .rparen rfl rfl)).left
    (plain_outside .semicolon rfl rfl)).map ?_
  intro phrase x h
  obtain ⟨_, _, s, rfl, ⟨_, _, r, rfl, ⟨_, _, p, rfl, ⟨rfl, hp⟩,
    _, _, l, rfl, ⟨rfl, hl⟩, t, rfl, ht, rfl⟩, rfl, hr⟩, rfl, hs⟩ := h
  exact .print hp hl ht hr hs

theorem reportsAt_assignment (ts : List Token) :
    ReportsAt .outside (assignment (unlimited expr)) IsStatement ts := by
  have hassign : Plain .outside (token .assign) _ .before := plain_token nofun rfl rfl
  refine (ReportsAt.pair (plain_identifier.left hassign) (exists_isClosed .semicolon)
    fun _ mid _ => reportsAt_closed .semicolon (reportsAt_expr mid)).map ?_
  intro phrase ⟨x, e⟩ h
  obtain ⟨_, _, rfl, ⟨_, _, a, rfl, ⟨t, rfl, ht, rfl⟩, rfl, ha⟩, us, s, rfl, hsum, hs⟩ := h
  exact .assign ht ha hsum hs

theorem reportsAt_simpleWith (kind : TokenKind) (ts : List Token) :
    ReportsAt .outside (simpleWith (unlimited expr) kind) IsStatement ts := by
  unfold simpleWith
  split
  · exact plain_printing.reports ts
  · exact reportsAt_assignment ts

/-! ## 5. The walk -/

/-- What the error of tokens says about them, if the walk is stuck behind `before`, at `stuck`. -/
structure Reported (before stuck : List Token) : Prop where
  operands : HasOperands before
  viable : Viable before
  viable_iff : ∀ t after, stuck = t :: after →
    (Viable (before ++ [t]) ↔ t.kind.isSign = true ∧ EndsOperand before)
  lacks : ∀ t after, stuck = t :: after → Viable (before ++ [t]) → LacksOperand after

/-- At a place that the walk comes to, and in a statement that it cannot read there. -/
theorem Stops.reported {blocks : Nat} {read us stuck rest : List Token} {t : Token}
    (hread : Enters blocks read) (hl : t.kind ≠ .lbrace) (hr : ¬(t.kind = .rbrace ∧ 0 < blocks))
    (hts : t :: rest = us ++ stuck)
    (h : Stops .outside (simpleWith (unlimited expr) t.kind) IsStatement us stuck) :
    Reported (read ++ us) stuck := by
  have hafter : Position.outside.after (read ++ us) = Position.outside.after us := by
    rw [Position.after_append, hread.after]
  have hiff : ∀ u after, stuck = u :: after →
      (Viable (read ++ us ++ [u]) ↔ u.kind.isSign = true ∧ EndsOperand (read ++ us)) := by
    intro u after hcons
    rw [EndsOperand, hafter]
    constructor
    · intro ⟨other, program, hprogram⟩
      refine Classical.byContradiction fun hno => ?_
      -- the walk through that program would stop here, and not come to its end
      have hrun := h.blames u after hcons hno other
      rw [hcons] at hts
      obtain ⟨vs, hvs⟩ := exists_append_eq_cons hts other
      rw [hvs] at hrun
      have hstops : StopsAt (unlimited expr) ⟨blocks, us ++ u :: other⟩ (u :: other) :=
        ⟨t, vs, hvs, hl, hr, hrun⟩
      have hend := walks_unlimited_iff.mpr ⟨program, hprogram⟩
      rw [List.append_assoc, List.append_assoc, List.singleton_append] at hend
      exact hstops.not_walks (hread.walks _) 0 hend
    · intro ⟨hsign, hbehind⟩
      obtain ⟨-, more, s, hs⟩ := h.lacks u after hcons hsign hbehind
      rw [← List.singleton_append, ← List.append_assoc] at hs
      rw [List.append_assoc]
      exact hread.viable_append ⟨more, s, hs⟩
  refine ⟨hread.hasOperands.append h.operands, hread.viable_append h.begins, hiff, ?_⟩
  intro u after hcons hviable
  obtain ⟨hsign, hbehind⟩ := (hiff u after hcons).mp hviable
  rw [EndsOperand, hafter] at hbehind
  exact (h.lacks u after hcons hsign hbehind).1

section Walk

variable {ts : List Token} (hn : Nesting.check ts = .ok ())

include hn

/-- **Where the walk is stuck.** -/
theorem reported_of_walk {stuck : List Token} (h : walk 0 ts = .error stuck) :
    ∃ before, ts = before ++ stuck ∧ Reported before stuck := by
  obtain ⟨p, hp, t, us, htokens, hl, hr, hrun⟩ := (walk_eq_error_iff_unlimited hn).mp h
  obtain ⟨read, rfl, hread⟩ := Enters.of_walks (reads_unlimited expr_reads) hp
  obtain ⟨vs, hvs, hstops⟩ := reportsAt_simpleWith t.kind (t :: us) stuck hrun
  refine ⟨read ++ vs, ?_, hstops.reported hread hl hr hvs⟩
  rw [htokens, hvs, List.append_assoc]

/-- The error of tokens that are no program: they are stuck at a token, or they end too early. -/
theorem locate_eq_cases :
    (∃ before t after, ts = before ++ t :: after ∧ walk 0 ts = .error (t :: after) ∧
      locate ts = .unexpected t.lexeme t.line ∧ Reported before (t :: after)) ∨
    locate ts = .unexpectedEnd ∧ Viable ts ∧ HasOperands ts := by
  cases hwalk : walk 0 ts with
  | ok blocks =>
    have hwalks := (walks_iff_unlimited hn).mp (walk_eq_ok_iff.mp hwalk)
    obtain ⟨read, hts, hread⟩ := Enters.of_walks (reads_unlimited expr_reads) hwalks
    rw [List.append_nil] at hts
    rw [← hts] at hread
    exact .inr ⟨by rw [locate, hwalk], hread.viable, hread.hasOperands⟩
  | error stuck =>
    obtain ⟨before, hts, hreported⟩ := reported_of_walk hn hwalk
    cases stuck with
    | nil =>
      rw [List.append_nil] at hts
      rw [← hts] at hreported
      exact .inr ⟨by rw [locate, hwalk]; rfl, hreported.viable, hreported.operands⟩
    | cons t after =>
      exact .inl ⟨before, t, after, hts, rfl, by rw [locate, hwalk]; rfl, hreported⟩

end Walk

/-! ## 6. Errors -/

/-- **What stands before the named token is viable**, so no token before it is the first with which
    the tokens are not. If no token is named, the tokens are viable and only unfinished. -/
theorem viable_up_to_error {ts : List Token} {error : SyntaxError}
    (hn : Nesting.check ts = .ok ()) (h : parse ts = .error error) :
    (∃ before t after, ts = before ++ t :: after ∧ walk 0 ts = .error (t :: after) ∧
      error = .unexpected t.lexeme t.line ∧ Viable before ∧
      ∀ first, ¬Viable (ts.take (first + 1)) → before.length ≤ first) ∨
    error = .unexpectedEnd ∧ Viable ts ∧ ¬∃ program, IsProgram ts program := by
  obtain ⟨rfl, hnone⟩ := locate_of_parse hn h
  rcases locate_eq_cases hn with ⟨before, t, after, hts, hwalk, herror, hreported⟩ | hend
  · refine .inl ⟨before, t, after, hts, hwalk, herror, hreported.viable, fun first hfirst => ?_⟩
    refine Nat.le_of_not_lt fun hlt => hfirst ?_
    have hviable := hreported.viable
    rw [← List.take_append_drop (first + 1) before] at hviable
    rw [hts, List.take_append_of_le_length hlt]
    exact hviable.of_append
  · exact .inr ⟨hend.1, hend.2.1, hnone⟩

/-- The error of crossed brackets names the brace, and what stands before it is viable. -/
theorem viable_before_crossed_brace :
    Nesting.check crossedBrackets = .ok () ∧
    parse crossedBrackets = .error (.unexpected "\x7d" 1) ∧ Viable (crossedBrackets.take 7) := by
  have hn : Nesting.check crossedBrackets = .ok () := rfl
  have hparse : parse crossedBrackets = .error (.unexpected "\x7d" 1) := by with_unfolding_all rfl
  have hwalk : walk 0 crossedBrackets = .error (crossedBrackets.drop 7) := by
    with_unfolding_all rfl
  rcases viable_up_to_error hn hparse with ⟨before, t, after, hts, hstuck, -, hviable, -⟩ | ⟨h, -⟩
  · rw [hwalk] at hstuck
    cases hstuck
    have hbefore : before = crossedBrackets.take 7 := List.append_cancel_right hts.symm
    exact ⟨hn, hparse, hbefore ▸ hviable⟩
  · cases h

/-- **When the named token is to blame.** The tokens up to and with it are viable exactly if it is a
    sign behind an operand. So tokens that are only unfinished are reported as an early end exactly
    if every sign in them has its operand. -/
theorem viable_with_error_iff {ts : List Token} (hn : Nesting.check ts = .ok ()) :
    (∀ lexeme line, parse ts = .error (.unexpected lexeme line) →
      ∃ before t after, ts = before ++ t :: after ∧ walk 0 ts = .error (t :: after) ∧
        t.lexeme = lexeme ∧ t.line = line ∧
        (Viable (before ++ [t]) ↔ t.kind.isSign = true ∧ EndsOperand before)) ∧
    (Viable ts → (¬∃ program, IsProgram ts program) →
      (parse ts = .error .unexpectedEnd ↔ HasOperands ts)) := by
  refine ⟨fun lexeme line h => ?_, fun hviable hnone => ?_⟩
  · obtain ⟨hlocate, -⟩ := locate_of_parse hn h
    rcases locate_eq_cases hn with ⟨before, t, after, hts, hwalk, herror, hreported⟩ | hend
    · cases hlocate.trans herror
      exact ⟨before, t, after, hts, hwalk, rfl, rfl, hreported.viable_iff t after rfl⟩
    · cases hlocate.trans hend.1
  · obtain ⟨error, herror⟩ : ∃ error, parse ts = .error error := by
      cases hparse : parse ts with
      | error error => exact ⟨error, rfl⟩
      | ok program => exact absurd ⟨program, isProgram_of_parse hparse⟩ hnone
    obtain ⟨rfl, -⟩ := locate_of_parse hn herror
    rw [herror]
    rcases locate_eq_cases hn with ⟨before, t, after, hts, -, hlocate, hreported⟩ | hend
    · have hwith : Viable (before ++ [t]) := by
        rw [hts, ← List.singleton_append, ← List.append_assoc] at hviable
        exact hviable.of_append
      obtain ⟨hsign, -⟩ := (hreported.viable_iff t after rfl).mp hwith
      rw [hlocate]
      refine ⟨nofun, fun hoperands => ?_⟩
      exact absurd (hreported.lacks t after rfl hwith) (hoperands before t after hts hsign)
    · exact ⟨fun _ => hend.2.2, fun _ => by rw [hend.1]⟩

/-- The tokens of `x=(1+2;`, a parenthesis that is not closed. -/
def openParenthesis : List Token :=
  [⟨.identifier, "x", 1⟩, ⟨.assign, "=", 1⟩, ⟨.lparen, "(", 1⟩, ⟨.number, "1", 1⟩,
    ⟨.plus, "+", 1⟩, ⟨.number, "2", 1⟩, ⟨.semicolon, ";", 1⟩]

/-- The error names the semicolon, and no program begins with the tokens up to it. -/
theorem not_viable_openParenthesis :
    Nesting.check openParenthesis = .ok () ∧
    parse openParenthesis = .error (.unexpected ";" 1) ∧ ¬Viable openParenthesis := by
  have hn : Nesting.check openParenthesis = .ok () := rfl
  have hparse : parse openParenthesis = .error (.unexpected ";" 1) := by with_unfolding_all rfl
  have hwalk : walk 0 openParenthesis = .error (openParenthesis.drop 6) := by
    with_unfolding_all rfl
  obtain ⟨before, t, after, hts, hstuck, -, -, hiff⟩ := (viable_with_error_iff hn).1 _ _ hparse
  rw [hwalk] at hstuck
  cases hstuck
  refine ⟨hn, hparse, fun hviable => ?_⟩
  rw [hts, hiff] at hviable
  cases hviable.1

/-- The tokens of `x=1+`, a sum that is not finished. -/
def unfinishedSum : List Token :=
  [⟨.identifier, "x", 1⟩, ⟨.assign, "=", 1⟩, ⟨.number, "1", 1⟩, ⟨.plus, "+", 1⟩]

/-- Programs begin with the unfinished sum. Yet its error names the sign, which is the only token
    with that text, and not the end. -/
theorem error_of_unfinishedSum :
    Nesting.check unfinishedSum = .ok () ∧ parse unfinishedSum = .error (.unexpected "+" 1) ∧
    Viable unfinishedSum ∧
    ¬∃ before t after, unfinishedSum = before ++ t :: after ∧ t.lexeme = "+" ∧ t.line = 1 ∧
      ¬Viable (before ++ [t]) := by
  have hone : Numeral.value? "1" = some (.integer 1) := by with_unfolding_all rfl
  have hsum : IsSum ([⟨.number, "1", 1⟩] ++ ⟨.plus, "+", 1⟩ :: [⟨.identifier, "x", 1⟩])
      (.binary .add (.constant (.integer 1)) (.name "x")) :=
    .join (.product (.power (.atom (.number rfl hone)))) rfl (.power (.atom (.name rfl)))
  have hstatement := @IsStatement.assign ⟨.identifier, "x", 1⟩ ⟨.assign, "=", 1⟩
    ⟨.semicolon, ";", 1⟩ _ _ rfl rfl hsum rfl
  have hprogram := IsProgram.snoc .empty hstatement
  have hviable : Viable unfinishedSum :=
    ⟨[⟨.identifier, "x", 1⟩, ⟨.semicolon, ";", 1⟩], _, hprogram⟩
  refine ⟨rfl, by with_unfolding_all rfl, hviable, ?_⟩
  intro ⟨before, t, after, hts, _, _, hno⟩
  rw [hts, ← List.singleton_append, ← List.append_assoc] at hviable
  exact hno hviable.of_append

end Grammar

end Abacus
