import Abacus.Proofs.Decimal.Rational
import Abacus.Proofs.Session.RoundTrip
import Mathlib.Data.List.Induction

/-!
# Reading decimals back from their text

A decimal can be laid out in many ways, and each of them is read as the same number. What is read
may have another coefficient and another exponent: positional notation fills up with zeros, or sets
a point, which is read as an exponent of its own. So it is the number that is followed here, from
the digits in front of an exponent (`Numeral.IsPositional`) to the whole text.

* the text of a decimal, in either notation, is read as a decimal that stands for the same number
  (`decimal?_decimal`), as long as its exponent is below the bound at which reading stops;
* with its sign, the text of a finite binary number denotes the shortest decimal
  (`rational?_number`) and is read as the same binary number (`float?_number`);
* there is no mark in positional notation (`mark_notMem_plain`), so the text alone says which of the
  two notations it is in.
-/

namespace Abacus

namespace Numeral

/-! ## 1. Digits with or without a point -/

theorem isDigits_replicate_zero (n : Nat) : IsDigits (List.replicate n '0') := by
  intro c hc
  rw [List.eq_of_mem_replicate hc]
  rfl

theorem IsDigits.append {cs ds : List Char} (hcs : IsDigits cs) (hds : IsDigits ds) :
    IsDigits (cs ++ ds) := by
  intro c hc
  exact (List.mem_append.mp hc).elim (hcs c) (hds c)

/-- The text is written in digits and at most one point behind the first of them, and is read as
    the decimal. -/
inductive IsPositional : List Char → Decimal → Prop where
  | whole {whole : List Char} (hne : whole ≠ []) (hd : IsDigits whole) :
      IsPositional whole ⟨Nat.ofDigitChars 10 whole 0, 0⟩
  | point {whole fraction : List Char} (hne : whole ≠ []) (hd : IsDigits whole)
      (hf : IsDigits fraction) :
      IsPositional (whole ++ '.' :: fraction)
        ⟨Nat.ofDigitChars 10 (whole ++ fraction) 0, -(fraction.length : Int)⟩

namespace IsPositional

variable {cs : List Char} {d : Decimal}

theorem of_point {whole fraction : List Char} (hne : whole ≠ []) (hd : IsDigits whole)
    (hf : IsDigits fraction) (hc : Nat.ofDigitChars 10 (whole ++ fraction) 0 = d.coefficient)
    (he : -(fraction.length : Int) = d.exponent) : IsPositional (whole ++ '.' :: fraction) d := by
  have hpoint := IsPositional.point hne hd hf
  rw [hc, he] at hpoint
  exact hpoint

theorem isDigit_or_point (h : IsPositional cs d) {c : Char} (hc : c ∈ cs) :
    c.isDigit = true ∨ c = '.' := by
  cases h with
  | whole hne hd => exact .inl (hd c hc)
  | point hne hd hf =>
    rw [List.mem_append, List.mem_cons] at hc
    rcases hc with hc | hc | hc
    · exact .inl (hd c hc)
    · exact .inr hc
    · exact .inl (hf c hc)

theorem notMem (h : IsPositional cs d) {c : Char} (hc : c.isDigit = false) (hpoint : c ≠ '.') :
    c ∉ cs := by
  intro hmem
  rcases h.isDigit_or_point hmem with hdigit | hdot
  · rw [hc] at hdigit
    cases hdigit
  · exact hpoint hdot

/-- There is no sign in front. -/
theorem splitSign (h : IsPositional cs d) (rest : List Char) :
    splitSign (cs ++ rest) = (false, cs ++ rest) := by
  cases h with
  | whole hne hd => exact hd.splitSign hne rest
  | point hne hd hf =>
    rw [List.append_assoc]
    exact hd.splitSign hne _

/-- **An exponent behind the digits is added to that of the point.** -/
theorem decimal? (h : IsPositional cs d) {rest : List Char} (hr : EndsLiteral rest) {e : Int}
    (he : exponent? rest = some e) :
    decimal? (cs ++ rest) = some ⟨d.coefficient, e + d.exponent⟩ := by
  cases h with
  | whole hne hd =>
    obtain ⟨htake, hdrop⟩ := hd.span fun c hc => (hr c hc).1
    have hfraction : splitFraction rest = ([], rest) := by
      unfold splitFraction
      split
      · exact absurd rfl (hr '.' rfl).2
      · rfl
    have hempty : cs.isEmpty = false := List.isEmpty_eq_false_iff.mpr hne
    simp only [Numeral.decimal?, htake, hdrop, hfraction, hempty, he]
    simp
  | @point whole fraction hne hd hf =>
    have hpoint : ∀ c ∈ ('.' :: (fraction ++ rest)).head?, c.isDigit = false := by
      intro c hc
      cases hc
      decide
    obtain ⟨htake, hdrop⟩ := hd.span hpoint
    obtain ⟨htake', hdrop'⟩ := hf.span fun c hc => (hr c hc).1
    have hempty : whole.isEmpty = false := List.isEmpty_eq_false_iff.mpr hne
    rw [List.append_assoc, List.cons_append]
    simp only [Numeral.decimal?, htake, hdrop, splitFraction, htake', hdrop', hempty, he]
    simp [Int.sub_eq_add_neg]

end IsPositional

/-! ## 2. Exponents -/

/-- Below the bound an exponent is read as it is written. -/
theorem exponentValue_of_lt {cs : List Char} (h : Nat.ofDigitChars 10 cs 0 < exponentBound) :
    exponentValue cs = Nat.ofDigitChars 10 cs 0 := by
  -- a digit at the end is read last, and what is in front of it is not larger than the whole
  induction cs using List.reverseRecOn with
  | nil => rfl
  | append_singleton cs c ih =>
    have hlast : Nat.ofDigitChars 10 (cs ++ [c]) 0 =
        10 * Nat.ofDigitChars 10 cs 0 + (c.toNat - '0'.toNat) := by
      rw [Nat.ofDigitChars_append]
      rfl
    rw [hlast] at h ⊢
    have hfront := ih (by omega)
    rw [exponentValue] at hfront ⊢
    rw [List.foldl_append, List.foldl_cons, List.foldl_nil, hfront, if_pos (by omega)]

end Numeral

open Numeral

namespace Layout

/-- The sign of an exponent. -/
def exponentSign (layout : Layout) (e : Int) : List Char :=
  if e < 0 then ['-'] else if layout.exponentPlus then ['+'] else []

theorem exponentText_eq (layout : Layout) (e : Int) :
    layout.exponentText e = 'e' :: (layout.exponentSign e ++ layout.exponentDigits e.natAbs) := rfl

theorem isDigits_exponentDigits (layout : Layout) (n : Nat) :
    IsDigits (layout.exponentDigits n) :=
  (isDigits_replicate_zero _).append (isDigits_toDigits n)

theorem length_exponentDigits (layout : Layout) (n : Nat) :
    layout.exponentWidth ≤ (layout.exponentDigits n).length := by
  rw [exponentDigits, List.length_append, List.length_replicate]
  omega

theorem exponentDigits_ne_nil (layout : Layout) (n : Nat) : layout.exponentDigits n ≠ [] :=
  List.append_ne_nil_of_right_ne_nil _ Nat.toDigits_ne_nil

/-- Filling up with zeros does not change an exponent. -/
theorem ofDigitChars_exponentDigits (layout : Layout) (n : Nat) :
    Nat.ofDigitChars 10 (layout.exponentDigits n) 0 = n := by
  rw [exponentDigits, Nat.ofDigitChars_append, Nat.ofDigitChars_replicate_zero, Nat.mul_zero]
  exact Nat.ofDigitChars_ten_toDigits

theorem mem_exponentSign {layout : Layout} {e : Int} {c : Char}
    (hc : c ∈ layout.exponentSign e) : c = '-' ∨ c = '+' := by
  unfold exponentSign at hc
  split at hc
  · exact .inl (List.mem_singleton.mp hc)
  · split at hc
    · exact .inr (List.mem_singleton.mp hc)
    · cases hc

theorem splitSign_exponent (layout : Layout) (e : Int) (n : Nat) :
    splitSign (layout.exponentSign e ++ layout.exponentDigits n) =
      (decide (e < 0), layout.exponentDigits n) := by
  unfold exponentSign
  split
  · rename_i hneg
    rw [decide_eq_true hneg]
    rfl
  · rename_i hneg
    rw [decide_eq_false hneg]
    split
    · rfl
    · have hsign := (layout.isDigits_exponentDigits n).splitSign (layout.exponentDigits_ne_nil n) []
      rw [List.append_nil] at hsign
      exact hsign

theorem signed_natAbs (e : Int) :
    (if decide (e < 0) = true then -(e.natAbs : Int) else e.natAbs) = e := by
  split
  · rename_i hneg
    have := of_decide_eq_true hneg
    omega
  · rename_i hneg
    have := of_decide_eq_false (Bool.eq_false_iff.mpr hneg)
    omega

/-- **An exponent below the bound is read as it was.** -/
theorem exponent?_exponentText (layout : Layout) {e : Int} (h : e.natAbs < exponentBound) :
    exponent? (layout.exponentText e) = some e := by
  have hdigits : (layout.exponentDigits e.natAbs).all Char.isDigit = true :=
    List.all_eq_true.mpr (layout.isDigits_exponentDigits e.natAbs)
  have hempty : (layout.exponentDigits e.natAbs).isEmpty = false :=
    List.isEmpty_eq_false_iff.mpr (layout.exponentDigits_ne_nil e.natAbs)
  have hvalue : exponentValue (layout.exponentDigits e.natAbs) = e.natAbs := by
    rw [exponentValue_of_lt, ofDigitChars_exponentDigits]
    rwa [ofDigitChars_exponentDigits]
  simp only [exponentText_eq, exponent?, splitSign_exponent, hdigits, hempty, hvalue, signed_natAbs]
  rfl

/-! ## 3. The two notations -/

/-- The digits in front of an exponent: a point stands behind the first one if there are more. -/
def mantissa (d : Decimal) : List Char :=
  match digits d with
  | first :: second :: rest => first :: '.' :: second :: rest
  | short => short

theorem scientific_eq (layout : Layout) (d : Decimal) :
    layout.scientific d = mantissa d ++ layout.exponentText (leadingExponent d) := rfl

theorem isDigits_digits (d : Decimal) : IsDigits (digits d) := isDigits_toDigits d.coefficient

theorem digits_ne_nil (d : Decimal) : digits d ≠ [] := Nat.toDigits_ne_nil

theorem ofDigitChars_digits (d : Decimal) : Nat.ofDigitChars 10 (digits d) 0 = d.coefficient :=
  Nat.ofDigitChars_ten_toDigits

/-- In front of an exponent the point takes away what the exponent of the leading digit adds. -/
theorem isPositional_mantissa (d : Decimal) :
    IsPositional (mantissa d) ⟨d.coefficient, d.exponent - leadingExponent d⟩ := by
  have hd := isDigits_digits d
  rw [← ofDigitChars_digits d, mantissa, leadingExponent]
  cases hdigits : digits d with
  | nil => exact absurd hdigits (digits_ne_nil d)
  | cons first tail =>
    rw [hdigits] at hd
    cases tail with
    | nil =>
      have hexponent : d.exponent - (([first].length : Int) - 1 + d.exponent) = 0 := by
        rw [List.length_singleton]
        omega
      rw [hexponent]
      exact .whole (List.cons_ne_nil _ _) hd
    | cons second rest =>
      have hexponent : d.exponent - (((first :: second :: rest).length : Int) - 1 + d.exponent) =
          -((second :: rest).length : Int) := by
        rw [List.length_cons]
        omega
      rw [hexponent]
      show IsPositional ([first] ++ '.' :: second :: rest) _
      exact .point (List.cons_ne_nil _ _)
        (fun c hc => hd c (List.mem_cons.mpr (.inl (List.mem_singleton.mp hc))))
        (fun c hc => hd c (List.mem_cons_of_mem _ hc))

/-- A whole number is filled up with zeros. -/
theorem isPositional_plain_of_nonneg (layout : Layout) {d : Decimal} (he : 0 ≤ d.exponent) :
    ∃ d', IsPositional (layout.plain d) d' ∧ d'.toRat = d.toRat := by
  let whole := digits d ++ List.replicate d.exponent.toNat '0'
  have hne : whole ≠ [] := List.append_ne_nil_of_left_ne_nil (digits_ne_nil d) _
  have hd : IsDigits whole := (isDigits_digits d).append (isDigits_replicate_zero _)
  have hvalue : Nat.ofDigitChars 10 whole 0 = 10 ^ d.exponent.toNat * d.coefficient := by
    rw [Nat.ofDigitChars_append, Nat.ofDigitChars_replicate_zero, ofDigitChars_digits]
  have hexponent : (0 : Int) + d.exponent.toNat = d.exponent := by omega
  have hplain : layout.plain d = whole ++ if layout.wholePoint then ['.', '0'] else [] := by
    simp only [plain]
    rw [if_pos he]
  rw [hplain]
  cases layout.wholePoint with
  | false =>
    refine ⟨_, .whole ?_ ?_, ?_⟩
    · simpa using hne
    · simpa using hd
    · rw [if_neg Bool.false_ne_true, List.append_nil, hvalue, Decimal.toRat_shift, hexponent]
  | true =>
    have hzero : Nat.ofDigitChars 10 (whole ++ ['0']) 0 =
        10 ^ 1 * (10 ^ d.exponent.toNat * d.coefficient) := by
      rw [Nat.ofDigitChars_append, hvalue]
      exact Nat.ofDigitChars_replicate_zero (n := 1)
    have hcancel : -(['0'].length : Int) + (1 : Nat) + d.exponent.toNat = d.exponent := by
      rw [List.length_singleton]
      omega
    refine ⟨_, .point hne hd (isDigits_replicate_zero 1), ?_⟩
    show Decimal.toRat ⟨Nat.ofDigitChars 10 (whole ++ ['0']) 0, -(['0'].length : Int)⟩ = d.toRat
    rw [hzero, Decimal.toRat_shift, Decimal.toRat_shift, hcancel]

/-- Digits behind the point are as many as the exponent says. -/
theorem isPositional_plain_of_neg (layout : Layout) {d : Decimal} (he : d.exponent < 0) :
    IsPositional (layout.plain d) d := by
  have hd := isDigits_digits d
  have hvalue := ofDigitChars_digits d
  simp only [plain]
  rw [if_neg (by omega)]
  split
  · refine .of_point ?_ ?_ ?_ ?_ ?_
    · rw [ne_eq, List.take_eq_nil_iff, ← List.length_eq_zero_iff]
      omega
    · exact fun c hc => hd c (List.mem_of_mem_take hc)
    · exact fun c hc => hd c (List.mem_of_mem_drop hc)
    · rw [List.take_append_drop, hvalue]
    · rw [List.length_drop]
      omega
  · let zeros := List.replicate (-((digits d).length + d.exponent)).toNat '0'
    show IsPositional (['0'] ++ '.' :: (zeros ++ digits d)) d
    refine .of_point (List.cons_ne_nil _ _) (isDigits_replicate_zero 1)
      ((isDigits_replicate_zero _).append hd) ?_ ?_
    · rw [List.singleton_append, Nat.ofDigitChars_cons, Nat.ofDigitChars_append,
        Nat.ofDigitChars_replicate_zero]
      exact hvalue
    · rw [List.length_append, List.length_replicate]
      omega

/-- **Positional notation keeps the number.** -/
theorem isPositional_plain (layout : Layout) (d : Decimal) :
    ∃ d', IsPositional (layout.plain d) d' ∧ d'.toRat = d.toRat := by
  by_cases he : 0 ≤ d.exponent
  · exact layout.isPositional_plain_of_nonneg he
  · exact ⟨d, layout.isPositional_plain_of_neg (Int.not_le.mp he), rfl⟩

/-! ## 4. Texts without a sign -/

variable {layout : Layout} {d : Decimal}

/-- The exponent of the leading digit decides between the two notations. -/
theorem decimal_eq (layout : Layout) (d : Decimal) :
    layout.decimal d =
      if layout.plainFrom ≤ leadingExponent d ∧ leadingExponent d < layout.plainBelow then
        layout.plain d
      else layout.scientific d := by
  simp only [decimal, isPlain, Bool.and_eq_true, decide_eq_true_eq]

/-- Positional notation has digits and a point. -/
theorem mem_plain {c : Char} (hc : c ∈ layout.plain d) : c.isDigit = true ∨ c = '.' := by
  obtain ⟨d', hd, -⟩ := layout.isPositional_plain d
  exact hd.isDigit_or_point hc

/-- The characters of numbers that are no digits, those of the words for what is not finite among
    them. -/
def marks : List Char := ['.', 'e', '-', '+', 'i', 'n', 'f', 'N', 'a']

/-- Scientific notation has a mark and a sign besides. -/
theorem mem_decimal {c : Char} (hc : c ∈ layout.decimal d) : c.isDigit = true ∨ c ∈ marks := by
  have hpositional (h : c.isDigit = true ∨ c = '.') : c.isDigit = true ∨ c ∈ marks :=
    h.imp_right fun hpoint => by simp [hpoint, marks]
  unfold decimal at hc
  split at hc
  · exact hpositional (mem_plain hc)
  · rw [scientific_eq, exponentText_eq, List.mem_append, List.mem_cons, List.mem_append] at hc
    rcases hc with hc | hc | hc | hc
    · exact hpositional ((isPositional_mantissa d).isDigit_or_point hc)
    · exact .inr (by simp [hc, marks])
    · rcases mem_exponentSign hc with hsign | hsign
      · exact .inr (by simp [hsign, marks])
      · exact .inr (by simp [hsign, marks])
    · exact .inl (layout.isDigits_exponentDigits _ c hc)

theorem mark_notMem_mantissa (d : Decimal) : 'e' ∉ mantissa d :=
  (isPositional_mantissa d).notMem (by decide) (by decide)

theorem mark_notMem_plain (layout : Layout) (d : Decimal) : 'e' ∉ layout.plain d := by
  obtain ⟨d', hd, -⟩ := layout.isPositional_plain d
  exact hd.notMem (by decide) (by decide)

theorem endsLiteral_exponentText (layout : Layout) (e : Int) :
    EndsLiteral (layout.exponentText e) := by
  intro c hc
  cases hc
  decide

theorem decimal?_plain (layout : Layout) (d : Decimal) :
    ∃ d', decimal? (layout.plain d) = some d' ∧ d'.toRat = d.toRat := by
  obtain ⟨d', hd, hrat⟩ := layout.isPositional_plain d
  have hend : EndsLiteral [] := fun c hc => by cases hc
  have hread := hd.decimal? hend rfl
  rw [List.append_nil, Int.zero_add] at hread
  exact ⟨d', hread, hrat⟩

/-- **Scientific notation keeps even the coefficient and the exponent.** -/
theorem decimal?_scientific (h : (leadingExponent d).natAbs < exponentBound) :
    decimal? (layout.scientific d) = some d := by
  have hread := (isPositional_mantissa d).decimal? (layout.endsLiteral_exponentText _)
    (layout.exponent?_exponentText h)
  have hexponent : leadingExponent d + (d.exponent - leadingExponent d) = d.exponent := by omega
  rw [scientific_eq, hread]
  show some (Decimal.mk d.coefficient (leadingExponent d + (d.exponent - leadingExponent d))) = _
  rw [hexponent]

/-- **The text of a decimal is read as its number.** -/
theorem decimal?_decimal (layout : Layout) (h : (leadingExponent d).natAbs < exponentBound) :
    ∃ d', decimal? (layout.decimal d) = some d' ∧ d'.toRat = d.toRat := by
  unfold decimal
  split
  · exact layout.decimal?_plain d
  · exact ⟨d, decimal?_scientific h, rfl⟩

theorem splitSign_decimal (layout : Layout) (d : Decimal) :
    splitSign (layout.decimal d) = (false, layout.decimal d) := by
  unfold decimal
  split
  · obtain ⟨d', hd, -⟩ := layout.isPositional_plain d
    have hsign := hd.splitSign []
    rw [List.append_nil] at hsign
    exact hsign
  · exact (isPositional_mantissa d).splitSign (layout.exponentText _)

end Layout

/-! ## 5. Binary numbers -/

/-- The rational number that a decimal with a sign stands for. -/
def Decimal.signedRat (d : Decimal) (negative : Bool) : ℚ := if negative then -d.toRat else d.toRat

/-- The rational number that a text denotes: an optional sign, digits with or without a point, and
    an optional exponent. -/
def Numeral.rational? (cs : List Char) : Option ℚ :=
  let (negative, rest) := splitSign cs
  (decimal? rest).map fun d => d.signedRat negative

namespace Layout

/-- A text with a minus sign in front, or without. -/
def signed (negative : Bool) (cs : List Char) : List Char := (if negative then ['-'] else []) ++ cs

theorem splitSign_signed (layout : Layout) (d : Decimal) (negative : Bool) :
    splitSign (signed negative (layout.decimal d)) = (negative, layout.decimal d) := by
  cases negative with
  | true => rfl
  | false => exact layout.splitSign_decimal d

/-- The characters of a number, infinite or no number at all included. -/
theorem mem_number {layout : Layout} {x : Binary64} {c : Char}
    (hc : c ∈ (layout.number x).toList) : c.isDigit = true ∨ c ∈ marks := by
  have hnan : "NaN".toList ⊆ marks := by simp [marks]
  have hinfinite : ['i', 'n', 'f'] ⊆ marks := by simp [marks]
  have hsign (negative : Bool) : (if negative then ['-'] else []) ⊆ marks := by
    cases negative <;> simp [marks]
  unfold number at hc
  split at hc
  · exact .inr (hnan hc)
  · rw [String.toList_ofList, List.mem_append] at hc
    rcases hc with hc | hc
    · exact .inr (hsign _ hc)
    · split at hc
      · exact .inr (hinfinite hc)
      · exact mem_decimal hc

variable (layout : Layout) {x : Binary64} (hx : x.isFinite = true)

include hx

theorem toList_number :
    (layout.number x).toList = signed x.negative (layout.decimal (.shortest x.magnitude)) := by
  rw [number, Binary64.isFinite_isNaN hx, Binary64.isFinite_isInfinite hx]
  exact String.toList_ofList

theorem natAbs_leadingExponent_lt :
    (leadingExponent (.shortest x.magnitude)).natAbs < exponentBound := by
  have hbounds := Decimal.leadingExponent_shortest (of_decide_eq_true hx)
  unfold exponentBound
  omega

/-- **The text of a finite number denotes the shortest decimal**, whatever its layout is. -/
theorem rational?_number :
    rational? (layout.number x).toList =
      some ((Decimal.shortest x.magnitude).signedRat x.negative) := by
  obtain ⟨d, hread, hrat⟩ := layout.decimal?_decimal (natAbs_leadingExponent_lt hx)
  rw [layout.toList_number hx, rational?, splitSign_signed]
  simp only [hread, Option.map_some, Decimal.signedRat, hrat]

/-- **The text of a finite number is read as the same number**, down to the sign of zero. -/
theorem float?_number : float? (layout.number x).toList = some x := by
  obtain ⟨d, hread, hrat⟩ := layout.decimal?_decimal (natAbs_leadingExponent_lt hx)
  rw [layout.toList_number hx, float?, splitSign_signed]
  simp only [hread, Option.map_some, Option.some.injEq]
  apply Binary64.ext
  · exact Decimal.nearest_negative ..
  · rw [Decimal.nearest_magnitude, Decimal.roundedMagnitude_congr hrat]
    exact Decimal.roundedMagnitude_shortest (of_decide_eq_true hx)

omit hx in
/-- Different finite numbers have different texts. -/
theorem number_injective {y : Binary64} (hx : x.isFinite = true) (hy : y.isFinite = true)
    (h : layout.number x = layout.number y) : x = y := by
  have hread := layout.float?_number hx
  rw [h, layout.float?_number hy] at hread
  exact (Option.some.inj hread).symm

end Layout

end Abacus
