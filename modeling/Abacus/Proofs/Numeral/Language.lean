import Abacus.Proofs.Token.Pieces
import Mathlib.Computability.RegularExpressions

/-!
# The languages of numbers

Two regular expressions say what numbers look like. The wider one, `[0-9]+(\.[0-9]*)?`, is what is
taken from a text as a number; the narrower one, `(0|[1-9][0-9]*)(\.[0-9]*[1-9])?`, has the
literals, which have no idle zeros. What is taken is then checked as a whole:

* a number is taken as far as the wider expression goes (`takeNumber_isLongest`), and no shorter
  part of it is ever a token instead;
* the check leaves exactly the narrower language (`mem_literalPattern`). A literal without a point
  is the decimal text of an integer (`toDigits_ofDigitChars`), and the value of the literal is that
  integer.

Main statement: a number alone is a token if it is a literal and an error as a whole if not, and the
numbers among the tokens of a text all have a value (`tokenize_number`).
-/

namespace Abacus

namespace Numeral

/-! ## 1. The two expressions -/

/-- One of the characters. -/
def oneOf (cs : List Char) : RegularExpression Char := (cs.map RegularExpression.char).sum

/-- The digits `[1-9]`. -/
def nonzeroDigits : List Char := ['1', '2', '3', '4', '5', '6', '7', '8', '9']

/-- The digits `[0-9]`. -/
def digits : List Char := '0' :: nonzeroDigits

/-- What is taken as a number: `[0-9]+(\.[0-9]*)?`. -/
def numberPattern : RegularExpression Char :=
  (oneOf digits * (oneOf digits).star) * (1 + .char '.' * (oneOf digits).star)

/-- The literals: `(0|[1-9][0-9]*)(\.[0-9]*[1-9])?`. -/
def literalPattern : RegularExpression Char :=
  (.char '0' + oneOf nonzeroDigits * (oneOf digits).star) *
    (1 + .char '.' * ((oneOf digits).star * oneOf nonzeroDigits))

theorem mem_oneOf {cs w : List Char} : w ∈ (oneOf cs).matches' ↔ ∃ c ∈ cs, w = [c] := by
  induction cs with
  | nil => simp [oneOf]
  | cons c cs ih =>
    have hcons : oneOf (c :: cs) = .char c + oneOf cs := rfl
    rw [hcons, RegularExpression.matches'_add, Language.mem_add, ih, List.exists_mem_cons_iff]
    rfl

theorem mem_digits {c : Char} : c ∈ digits ↔ c.isDigit = true := by
  constructor
  · have hall : ∀ c ∈ digits, c.isDigit = true := List.all_eq_true.mp rfl
    exact hall c
  · intro h
    have hall : ∀ d < 10, Char.ofNat (48 + d) ∈ digits := by decide
    have hbounds : 48 ≤ c.toNat ∧ c.toNat ≤ 57 := Char.isDigit_iff_toNat.mp h
    have hc := hall (c.toNat - 48) (by omega)
    rwa [Nat.add_sub_cancel' hbounds.1, Char.ofNat_toNat] at hc

theorem mem_nonzeroDigits {c : Char} : c ∈ nonzeroDigits ↔ c.isDigit = true ∧ c ≠ '0' := by
  rw [← mem_digits]
  constructor
  · intro h
    have hzero : '0' ∉ nonzeroDigits := by decide
    exact ⟨.tail _ h, fun hc => hzero (hc ▸ h)⟩
  · rintro ⟨h, hne⟩
    exact (List.mem_cons.mp h).resolve_left hne

theorem mem_star_digits {w : List Char} : w ∈ (oneOf digits).star.matches' ↔ IsDigits w := by
  rw [RegularExpression.matches'_star, Language.mem_kstar]
  constructor
  · rintro ⟨parts, rfl, hparts⟩ c hc
    obtain ⟨part, hpart, hc⟩ := List.mem_flatten.mp hc
    obtain ⟨d, hd, rfl⟩ := mem_oneOf.mp (hparts part hpart)
    rw [List.mem_singleton.mp hc]
    exact mem_digits.mp hd
  · intro h
    refine ⟨w.map ([·]), (List.flatMap_singleton' w).symm, fun part hpart => ?_⟩
    obtain ⟨c, hc, rfl⟩ := List.mem_map.mp hpart
    exact mem_oneOf.mpr ⟨c, mem_digits.mpr (h c hc), rfl⟩

/-- A part with a point in front of it, or nothing. -/
theorem mem_point {p : RegularExpression Char} {w : List Char} :
    w ∈ (1 + .char '.' * p).matches' ↔ w = [] ∨ ∃ fraction ∈ p.matches', w = '.' :: fraction := by
  rw [RegularExpression.matches'_add, Language.mem_add, RegularExpression.matches'_epsilon,
    Language.mem_one, RegularExpression.matches'_mul, Language.mem_mul]
  constructor
  · rintro (rfl | ⟨_, rfl, fraction, hf, rfl⟩)
    · exact .inl rfl
    · exact .inr ⟨fraction, hf, rfl⟩
  · rintro (rfl | ⟨fraction, hf, rfl⟩)
    · exact .inl rfl
    · exact .inr ⟨['.'], rfl, fraction, hf, rfl⟩

/-- What is taken as a number: digits, with a point and further digits if there are any. -/
theorem mem_numberPattern {w : List Char} :
    w ∈ numberPattern.matches' ↔
      ∃ whole, whole ≠ [] ∧ IsDigits whole ∧
        (w = whole ∨ ∃ fraction, IsDigits fraction ∧ w = whole ++ '.' :: fraction) := by
  have hwhole (w : List Char) :
      w ∈ (oneOf digits * (oneOf digits).star).matches' ↔ w ≠ [] ∧ IsDigits w := by
    rw [RegularExpression.matches'_mul, Language.mem_mul]
    constructor
    · rintro ⟨first, hfirst, more, hmore, rfl⟩
      obtain ⟨c, hc, rfl⟩ := mem_oneOf.mp hfirst
      exact ⟨List.cons_ne_nil _ _,
        List.forall_mem_cons.mpr ⟨mem_digits.mp hc, mem_star_digits.mp hmore⟩⟩
    · rintro ⟨hne, hd⟩
      obtain ⟨c, more, rfl⟩ := List.exists_cons_of_ne_nil hne
      obtain ⟨hc, hmore⟩ := List.forall_mem_cons.mp hd
      exact ⟨[c], mem_oneOf.mpr ⟨c, mem_digits.mpr hc, rfl⟩, more, mem_star_digits.mpr hmore, rfl⟩
  rw [numberPattern, RegularExpression.matches'_mul, Language.mem_mul]
  constructor
  · rintro ⟨whole, hw, rest, hr, rfl⟩
    obtain ⟨hne, hd⟩ := (hwhole whole).mp hw
    refine ⟨whole, hne, hd, ?_⟩
    rcases mem_point.mp hr with rfl | ⟨fraction, hf, rfl⟩
    · exact .inl (List.append_nil whole)
    · exact .inr ⟨fraction, mem_star_digits.mp hf, rfl⟩
  · rintro ⟨whole, hne, hd, rfl | ⟨fraction, hf, rfl⟩⟩
    · exact ⟨_, (hwhole _).mpr ⟨hne, hd⟩, [], mem_point.mpr (.inl rfl), List.append_nil _⟩
    · exact ⟨whole, (hwhole whole).mpr ⟨hne, hd⟩, _,
        mem_point.mpr (.inr ⟨fraction, mem_star_digits.mpr hf, rfl⟩), rfl⟩

/-- A whole part without idle zeros is zero or starts with another digit. -/
theorem mem_wholePattern {w : List Char} :
    w ∈ (.char '0' + oneOf nonzeroDigits * (oneOf digits).star : RegularExpression Char).matches' ↔
      w ≠ [] ∧ IsDigits w ∧ Lexer.wholeWellFormed w = true := by
  rw [RegularExpression.matches'_add, Language.mem_add, RegularExpression.matches'_mul,
    Language.mem_mul]
  constructor
  · rintro (rfl | ⟨_, hfirst, more, hmore, rfl⟩)
    · exact ⟨by decide, by decide, rfl⟩
    · obtain ⟨c, hc, rfl⟩ := mem_oneOf.mp hfirst
      obtain ⟨hd, hne⟩ := mem_nonzeroDigits.mp hc
      refine ⟨List.cons_ne_nil _ _, List.forall_mem_cons.mpr ⟨hd, mem_star_digits.mp hmore⟩, ?_⟩
      simp [Lexer.wholeWellFormed, hne]
  · rintro ⟨hne, hd, hw⟩
    obtain ⟨c, more, rfl⟩ := List.exists_cons_of_ne_nil hne
    obtain ⟨hc, hmore⟩ := List.forall_mem_cons.mp hd
    simp only [Lexer.wholeWellFormed, Bool.or_eq_true, beq_iff_eq, List.head?_cons, bne_iff_ne,
      ne_eq, Option.some.injEq] at hw
    rcases hw with hzero | hnonzero
    · exact .inl hzero
    · exact .inr ⟨[c], mem_oneOf.mpr ⟨c, mem_nonzeroDigits.mpr ⟨hc, hnonzero⟩, rfl⟩, more,
        mem_star_digits.mpr hmore, rfl⟩

/-- A fraction without idle zeros ends in a digit other than zero. -/
theorem mem_fractionPattern {w : List Char} :
    w ∈ ((oneOf digits).star * oneOf nonzeroDigits).matches' ↔
      IsDigits w ∧ Lexer.fractionWellFormed w = true := by
  rw [RegularExpression.matches'_mul, Language.mem_mul]
  constructor
  · rintro ⟨more, hmore, _, hlast, rfl⟩
    obtain ⟨c, hc, rfl⟩ := mem_oneOf.mp hlast
    obtain ⟨hd, hne⟩ := mem_nonzeroDigits.mp hc
    refine ⟨fun d h => ?_, by simp [Lexer.fractionWellFormed, hd, hne]⟩
    rcases List.mem_append.mp h with h | h
    · exact mem_star_digits.mp hmore d h
    · rw [List.mem_singleton.mp h]
      exact hd
  · rintro ⟨hd, hl⟩
    rcases List.eq_nil_or_concat w with rfl | ⟨more, c, rfl⟩
    · cases hl
    · rw [List.concat_eq_append] at hd hl ⊢
      have hne : c ≠ '0' := by
        simp only [Lexer.fractionWellFormed, List.getLast?_concat, Bool.and_eq_true,
          bne_iff_ne] at hl
        exact hl.2
      have hc : c.isDigit = true := hd c (by simp)
      exact ⟨more, mem_star_digits.mpr fun d h => hd d (List.mem_append_left _ h), [c],
        mem_oneOf.mpr ⟨c, mem_nonzeroDigits.mpr ⟨hc, hne⟩, rfl⟩, rfl⟩

/-- **The literals are a regular language.** -/
theorem mem_literalPattern {w : List Char} : w ∈ literalPattern.matches' ↔ IsLiteral w := by
  rw [literalPattern, RegularExpression.matches'_mul, Language.mem_mul]
  constructor
  · rintro ⟨whole, hwhole, rest, hrest, rfl⟩
    obtain ⟨hne, hd, hw⟩ := mem_wholePattern.mp hwhole
    rcases mem_point.mp hrest with rfl | ⟨fraction, hfraction, rfl⟩
    · rw [List.append_nil]
      exact .whole hne hd hw
    · obtain ⟨hf, hl⟩ := mem_fractionPattern.mp hfraction
      exact .point hne hd hw hf hl
  · intro h
    cases h with
    | whole hne hd hw =>
      exact ⟨w, mem_wholePattern.mpr ⟨hne, hd, hw⟩, [], mem_point.mpr (.inl rfl),
        List.append_nil w⟩
    | point hne hd hw hf hl =>
      exact ⟨_, mem_wholePattern.mpr ⟨hne, hd, hw⟩, _,
        mem_point.mpr (.inr ⟨_, mem_fractionPattern.mpr ⟨hf, hl⟩, rfl⟩), rfl⟩

/-! ## 2. The longest match -/

/-- The text starts with a word of the language, and with no longer one. -/
structure IsLongest (L : Language Char) (cs start : List Char) : Prop where
  mem : start ∈ L
  starts : start <+: cs
  longest : ∀ other ∈ L, other <+: cs → other.length ≤ start.length

/-- A word of the wider language is taken as a whole if nothing goes on behind it. -/
theorem takeNumber_of_mem {w rest : List Char} (h : w ∈ numberPattern.matches')
    (hr : EndsLiteral rest) : Lexer.takeNumber (w ++ rest) = (w, rest) := by
  obtain ⟨whole, -, hd, rfl | ⟨fraction, hf, rfl⟩⟩ := mem_numberPattern.mp h
  · exact takeNumber_whole hd hr
  · rw [List.append_assoc, List.cons_append]
    exact takeNumber_point hd hf hr

theorem exists_digit_of_mem {w : List Char} (h : w ∈ numberPattern.matches') :
    ∃ c tail, w = c :: tail ∧ c.isDigit = true := by
  obtain ⟨whole, hne, hd, hw⟩ := mem_numberPattern.mp h
  obtain ⟨c, more, rfl⟩ := List.exists_cons_of_ne_nil hne
  have hc : c.isDigit = true := hd c List.mem_cons_self
  rcases hw with rfl | ⟨fraction, -, rfl⟩
  · exact ⟨c, more, rfl, hc⟩
  · exact ⟨c, more ++ '.' :: fraction, rfl, hc⟩

/-- A word of the wider language at the start of a text is not longer than what is taken. -/
theorem length_le_takeNumber {other : List Char} (h : other ∈ numberPattern.matches')
    (rest : List Char) : other.length ≤ (Lexer.takeNumber (other ++ rest)).1.length := by
  obtain ⟨whole, -, hd, rfl | ⟨fraction, hf, rfl⟩⟩ := mem_numberPattern.mp h
  · simp only [Lexer.takeNumber, List.takeWhile_append_of_pos hd]
    split
    · simp only [List.length_append]
      omega
    · simp only [List.length_append]
      omega
  · have hpoint : ∀ c ∈ ('.' :: (fraction ++ rest)).head?, c.isDigit = false := by
      rintro c ⟨⟩
      decide
    obtain ⟨htake, hdrop⟩ := hd.span hpoint
    rw [List.append_assoc, List.cons_append]
    simp only [Lexer.takeNumber, htake, hdrop, List.takeWhile_append_of_pos hf,
      List.length_append, List.length_cons]
    omega

/-- **A number is taken as far as the wider language goes.** -/
theorem takeNumber_isLongest {c : Char} (hc : c.isDigit = true) (cs : List Char) :
    IsLongest numberPattern.matches' (c :: cs) (Lexer.takeNumber (c :: cs)).1 where
  mem := mem_numberPattern.mpr (Lexer.takeNumber_cases hc cs)
  starts := ⟨_, (Lexer.takeNumber_split (c :: cs)).1.symm⟩
  longest := by
    rintro other hother ⟨rest, hrest⟩
    rw [← hrest]
    exact length_le_takeNumber hother rest

/-! ## 3. The values of literals -/

/-- **A literal without a point is the decimal text of the integer that it stands for.** -/
theorem toDigits_ofDigitChars {whole : List Char} (hne : whole ≠ []) (hd : IsDigits whole)
    (hw : Lexer.wholeWellFormed whole = true) :
    Nat.toDigits 10 (Nat.ofDigitChars 10 whole 0) = whole := by
  induction whole using List.reverseRecOn with
  | nil => exact absurd rfl hne
  | append_singleton front c ih =>
    have hc : c.isDigit = true := hd c (by simp)
    have hbounds : 48 ≤ c.toNat ∧ c.toNat ≤ 57 := Char.isDigit_iff_toNat.mp hc
    have hlast : Nat.toDigits 10 (c.toNat - 48) = [c] := by
      have hall : ∀ d < 10, Nat.toDigits 10 d = [Char.ofNat (48 + d)] := by decide
      rw [hall _ (by omega), Nat.add_sub_cancel' hbounds.1, Char.ofNat_toNat]
    rw [Nat.ofDigitChars_append, Nat.ofDigitChars_cons, Nat.ofDigitChars_nil]
    by_cases hfront : front = []
    · subst hfront
      rw [Nat.ofDigitChars_nil, Nat.mul_zero, Nat.zero_add]
      exact hlast
    · obtain ⟨d, more, rfl⟩ := List.exists_cons_of_ne_nil hfront
      have hnonzero : d ≠ '0' := by
        rintro rfl
        simp [Lexer.wholeWellFormed] at hw
      have hdigits : Nat.toDigits 10 (Nat.ofDigitChars 10 (d :: more) 0) = d :: more :=
        ih hfront (fun e he => hd e (List.mem_append_left _ he))
          (by simp [Lexer.wholeWellFormed, hnonzero])
      -- the front stands for a number other than zero, so the last digit comes behind its digits
      have hpos : 0 < Nat.ofDigitChars 10 (d :: more) 0 := by
        refine Nat.pos_of_ne_zero fun hzero => ?_
        rw [hzero, Nat.toDigits_zero] at hdigits
        exact hnonzero (List.cons.inj hdigits).1.symm
      have happend := Nat.toDigits_append_toDigits (b := 10) (d := c.toNat - 48) (by decide) hpos
        (by omega)
      rw [hdigits, hlast] at happend
      exact happend.symm

/-- **Every literal has a value.** Without a point it is the integer that is written, and with one
    it is a binary number. -/
theorem IsLiteral.exists_value {cs : List Char} (h : IsLiteral cs) :
    ∃ v, value? (String.ofList cs) = some v ∧
      if '.' ∈ cs then ∃ x, v = .float x
      else ∃ n : Int, v = .integer n ∧ n.repr = String.ofList cs := by
  cases h with
  | whole hne hd hw =>
    refine ⟨_, value?_whole hne hd, ?_⟩
    rw [if_neg (hd.notMem (by decide))]
    have hrepr (n : Nat) : (n : Int).repr = n.repr := rfl
    exact ⟨_, rfl, by rw [hrepr, Nat.repr_eq_ofList_toDigits, toDigits_ofDigitChars hne hd hw]⟩
  | point hne hd hw hf hl =>
    refine ⟨_, value?_point hne hd hf, ?_⟩
    rw [if_pos (by simp)]
    exact ⟨_, rfl⟩

end Numeral

/-! ## 4. Numbers as tokens -/

namespace Lexer

open Numeral

theorem tokenize_of_isLiteral {w : String} (h : IsLiteral w.toList) :
    tokenize w = .ok [⟨.number, w, 1⟩] := by
  have hend : EndsLiteral [] := fun c hc => by cases hc
  have hscan : scan w = ⟨#[⟨.number, w, 1⟩], none⟩ := by
    have hread := h.scanFrom hend 1 #[]
    rw [List.append_nil, String.ofList_toList] at hread
    rw [scan, hread, scanFrom]
    rfl
  simp only [tokenize, hscan]

theorem tokenize_of_not_isLiteral {w : String} (h : w.toList ∈ numberPattern.matches')
    (hl : ¬IsLiteral w.toList) : tokenize w = .error (.illegal w 1) := by
  have hend : EndsLiteral [] := fun c hc => by cases hc
  have hnumber := takeNumber_of_mem h hend
  obtain ⟨c, tail, hw, hc⟩ := exists_digit_of_mem h
  rw [List.append_nil, hw] at hnumber
  rw [hw] at hl
  have hmalformed : isWellFormed (c :: tail) = false := by
    rw [Bool.eq_false_iff]
    exact fun hwell => hl (isLiteral_of_takeNumber hc hnumber hwell)
  have hfirst : first c tail = .illegal (c :: tail) :=
    first_eq_illegal_iff.mpr (.inl ⟨isAlpha_of_isDigit hc, hc, hmalformed, by rw [hnumber]⟩)
  obtain ⟨hblank, hbreak⟩ := ne_gap_of_isDigit hc
  have hscan : scan w = ⟨#[], some (.illegal w 1)⟩ := by
    rw [scan, hw, scanFrom_illegal hblank hbreak hfirst, ← hw, String.ofList_toList]
  simp only [tokenize, hscan]

/-- **Numbers are literals.** A text that looks like a number is one token if it is a literal, and
    is rejected as a whole if it is not. So every number among the tokens of a text has a value, and
    the rule for constants reads it: an integer whose decimal text is the literal, or a binary
    number if the literal has a point. -/
theorem tokenize_number :
    (∀ w : String, w.toList ∈ numberPattern.matches' →
      (tokenize w = .ok [⟨.number, w, 1⟩] ↔ w.toList ∈ literalPattern.matches') ∧
      (w.toList ∉ literalPattern.matches' → tokenize w = .error (.illegal w 1))) ∧
    ∀ (source : String) (ts : List Token), tokenize source = .ok ts →
      ∀ t ∈ ts, t.kind = .number →
        ∃ v, value? t.lexeme = some v ∧
          (∀ rest, Grammar.constant.run (t :: rest) = .ok (.constant v, rest)) ∧
          if '.' ∈ t.lexeme.toList then ∃ x, v = .float x
          else ∃ n : Int, v = .integer n ∧ n.repr = t.lexeme := by
  refine ⟨fun w hw => ?_, fun source ts h t ht hk => ?_⟩
  · have hreject : w.toList ∉ literalPattern.matches' → tokenize w = .error (.illegal w 1) :=
      fun hl => tokenize_of_not_isLiteral hw fun hliteral => hl (mem_literalPattern.mpr hliteral)
    refine ⟨⟨fun hok => ?_, fun hl => tokenize_of_isLiteral (mem_literalPattern.mp hl)⟩, hreject⟩
    by_contra hl
    rw [hreject hl] at hok
    cases hok
  · have hlexeme : IsLexeme t.kind t.lexeme.toList := isLexeme_of_tokenize h ht
    rw [hk] at hlexeme
    obtain ⟨v, hv, hkind⟩ := IsLiteral.exists_value hlexeme
    rw [String.ofList_toList] at hv hkind
    exact ⟨v, hv, fun rest => Grammar.run_constant hk hv rest, hkind⟩

/-- A literal with a point, and one that is no literal because of the zero at its end; and the two
    numbers of a text. -/
theorem tokenize_number_runs :
    "10.05".toList ∈ numberPattern.matches' ∧ "10.05".toList ∈ literalPattern.matches' ∧
    tokenize "10.05" = .ok [⟨.number, "10.05", 1⟩] ∧
    "3.10".toList ∈ numberPattern.matches' ∧ "3.10".toList ∉ literalPattern.matches' ∧
    tokenize "3.10" = .error (.illegal "3.10" 1) ∧
    tokenize "x=120^0.5" = .ok [⟨.identifier, "x", 1⟩, ⟨.assign, "=", 1⟩, ⟨.number, "120", 1⟩,
      ⟨.caret, "^", 1⟩, ⟨.number, "0.5", 1⟩] ∧
    (∃ n : Int, value? "120" = some (.integer n) ∧ n.repr = "120") ∧
    ∃ x, value? "0.5" = some (.float x) := by
  have hnumber : "10.05".toList ∈ numberPattern.matches' := by decide
  have hliteral : "10.05".toList ∈ literalPattern.matches' := by decide
  have hnumber' : "3.10".toList ∈ numberPattern.matches' := by decide
  have hliteral' : "3.10".toList ∉ literalPattern.matches' := by decide
  have htext : tokenize "x=120^0.5" = .ok [⟨.identifier, "x", 1⟩, ⟨.assign, "=", 1⟩,
      ⟨.number, "120", 1⟩, ⟨.caret, "^", 1⟩, ⟨.number, "0.5", 1⟩] := by with_unfolding_all rfl
  obtain ⟨v, hv, -, hinteger⟩ := tokenize_number.2 _ _ htext ⟨.number, "120", 1⟩ (by simp) rfl
  obtain ⟨u, hu, -, hfloat⟩ := tokenize_number.2 _ _ htext ⟨.number, "0.5", 1⟩ (by simp) rfl
  rw [if_neg (by decide)] at hinteger
  rw [if_pos (by decide)] at hfloat
  obtain ⟨n, rfl, hn⟩ := hinteger
  obtain ⟨x, rfl⟩ := hfloat
  exact ⟨hnumber, hliteral, (tokenize_number.1 _ hnumber).1.mpr hliteral, hnumber', hliteral',
    (tokenize_number.1 _ hnumber').2 hliteral', htext, ⟨n, hv, hn⟩, x, hu⟩

end Lexer

end Abacus
