import Abacus.Proofs.Binary64.Whole
import Abacus.Proofs.Numeral.Literals
import Abacus.Proofs.Session.Joining

/-!
# Printed values are literals

What a program prints can be written into another program, as long as it has neither a sign nor an
exponent: the text is a literal, and the literal stands for the value that was printed. The digits
come from two places. An integer has the digits of a natural number, of which the first one is no
zero. A binary number has the shortest digits that read back, and the last one is no zero; if the
number is not whole some of them stand behind the point (`Decimal.shortest_exponent_neg`), so the
last one is the end of the fraction.

Main statement: the program that shows a printed value prints it (`run_printed_text`).
-/

namespace Abacus

/-! ## 1. The digits of a natural number -/

namespace Numeral

theorem isDigits_toDigits (n : Nat) : IsDigits (Nat.toDigits 10 n) := by
  intro c hc
  exact Nat.isDigit_of_mem_toDigits (by decide) (by decide) hc

theorem isDigit_digitChar : ∀ d < 10, d ≠ 0 →
    (Nat.digitChar d).isDigit = true ∧ Nat.digitChar d ≠ '0' := by
  decide

/-- The first digit is zero only if the number is. -/
theorem head?_toDigits (n : Nat) (h : n ≠ 0) : (Nat.toDigits 10 n).head? ≠ some '0' := by
  induction n using Nat.strongRecOn with
  | ind n ih =>
    by_cases hn : n < 10
    · rw [Nat.toDigits_of_lt_base hn, List.head?_cons, ne_eq, Option.some.injEq]
      exact (isDigit_digitChar n hn h).2
    · have hle : 10 ≤ n := by omega
      have hfront := ih (n / 10) (by omega) (by omega)
      have hne : Nat.toDigits 10 (n / 10) ≠ [] := Nat.toDigits_ne_nil
      obtain ⟨c, cs, hcs⟩ := List.exists_cons_of_ne_nil hne
      rw [Nat.toDigits_of_base_le (by decide) hle, hcs]
      rw [hcs] at hfront
      exact hfront

theorem getLast?_toDigits (n : Nat) :
    (Nat.toDigits 10 n).getLast? = some (Nat.digitChar (n % 10)) := by
  by_cases hn : n < 10
  · rw [Nat.toDigits_of_lt_base hn, Nat.mod_eq_of_lt hn]
    rfl
  · rw [Nat.toDigits_of_base_le (by decide) (by omega), List.getLast?_concat]

theorem wholeWellFormed_toDigits (n : Nat) :
    Lexer.wholeWellFormed (Nat.toDigits 10 n) = true := by
  by_cases hn : n = 0
  · rw [hn]
    rfl
  · simp [Lexer.wholeWellFormed, head?_toDigits n hn]

/-- **A natural number is written as a literal that stands for it.** -/
theorem denotes_toDigits (n : Nat) : Denotes (Nat.toDigits 10 n) (.integer n) := by
  have hne : Nat.toDigits 10 n ≠ [] := Nat.toDigits_ne_nil
  have hd := isDigits_toDigits n
  refine ⟨.whole hne hd (wholeWellFormed_toDigits n), ?_⟩
  rw [value?_whole hne hd, Nat.ofDigitChars_ten_toDigits]

end Numeral

/-! ## 2. The shortest digits -/

namespace Decimal

/-- The shortest decimal of a number other than zero does not end in zero. -/
theorem shortest_coefficient_mod {m : Nat} (h : m < Binary64.infiniteMagnitude) (h0 : m ≠ 0) :
    (shortest m).coefficient % 10 ≠ 0 := by
  have hround := roundedMagnitude_shortest h
  rw [shortest, if_neg h0] at hround ⊢
  refine trim_coefficient_mod _ fun hzero => h0 ?_
  rw [← hround, roundedMagnitude_trim]
  exact roundedMagnitude_of_coefficient_zero hzero

/-- **The shortest decimal of a number that is not whole has digits behind the point.** -/
theorem shortest_exponent_neg {m : Nat} (h : m < Binary64.infiniteMagnitude)
    (hw : ¬Binary64.unitsPerOne ∣ Binary64.unitsOf m) : (shortest m).exponent < 0 := by
  have hround := roundedMagnitude_shortest h
  refine Int.not_le.mp fun he => ?_
  have hden : (shortest m).denominator = 1 := by
    rw [denominator, Int.toNat_eq_zero.mpr (by omega), Nat.pow_zero]
  rw [roundedMagnitude, hden, numerator] at hround
  rw [← hround] at h hw
  exact hw (Binary64.unitsPerOne_dvd_unitsOf h)

end Decimal

/-! ## 3. The point among the digits -/

namespace Numeral

/-- The digits of a decimal number with the point at its place are a literal that stands for the
    number. -/
theorem denotes_point {d : Decimal} {whole fraction : List Char} (hne : whole ≠ [])
    (hd : IsDigits whole) (hw : Lexer.wholeWellFormed whole = true) (hf : IsDigits fraction)
    (hl : fraction.getLast? = some (Nat.digitChar (d.coefficient % 10)))
    (hc : d.coefficient % 10 ≠ 0)
    (hcoefficient : Nat.ofDigitChars 10 (whole ++ fraction) 0 = d.coefficient)
    (hexponent : -(fraction.length : Int) = d.exponent) :
    Denotes (whole ++ '.' :: fraction) (.float (d.nearest false)) := by
  have hlast := isDigit_digitChar _ (Nat.mod_lt d.coefficient (by decide)) hc
  have hend : Lexer.fractionWellFormed fraction = true := by
    simp [Lexer.fractionWellFormed, hl, hlast]
  refine ⟨.point hne hd hw hf hend, ?_⟩
  rw [value?_point hne hd hf, hcoefficient, hexponent]

section Point

variable {d : Decimal} (hc : d.coefficient % 10 ≠ 0)

include hc

/-- The point stands between the digits. -/
theorem denotes_inside {n : Nat} (hn : 0 < n) (hlt : n < (Layout.digits d).length)
    (hplace : (n : Int) = (Layout.digits d).length + d.exponent) :
    Denotes ((Layout.digits d).take n ++ '.' :: (Layout.digits d).drop n)
      (.float (d.nearest false)) := by
  have hd := isDigits_toDigits d.coefficient
  have hzero : d.coefficient ≠ 0 := by
    intro h
    rw [h] at hc
    exact hc rfl
  have hhead : ((Layout.digits d).take n).head? ≠ some '0' := by
    rw [List.head?_take, if_neg (by omega)]
    exact head?_toDigits d.coefficient hzero
  refine denotes_point ?_ ?_ ?_ ?_ ?_ hc ?_ ?_
  · rw [ne_eq, List.take_eq_nil_iff, ← List.length_eq_zero_iff]
    omega
  · exact fun c h => hd c (List.mem_of_mem_take h)
  · simp [Lexer.wholeWellFormed, hhead]
  · exact fun c h => hd c (List.mem_of_mem_drop h)
  · rw [List.getLast?_drop, if_neg (by omega)]
    exact getLast?_toDigits d.coefficient
  · rw [List.take_append_drop]
    exact Nat.ofDigitChars_ten_toDigits
  · rw [List.length_drop]
    omega

/-- The point stands before the digits, with zeros between. -/
theorem denotes_before {zeros : Nat}
    (hplace : -(zeros : Int) = (Layout.digits d).length + d.exponent) :
    Denotes ('0' :: '.' :: (List.replicate zeros '0' ++ Layout.digits d))
      (.float (d.nearest false)) := by
  have hd := isDigits_toDigits d.coefficient
  have hlast : (Layout.digits d).getLast? = _ := getLast?_toDigits d.coefficient
  refine @denotes_point d ['0'] _ (by decide) (by decide) rfl ?_ ?_ hc ?_ ?_
  · intro c h
    rcases List.mem_append.mp h with h | h
    · rw [List.eq_of_mem_replicate h]
      rfl
    · exact hd c h
  · rw [List.getLast?_append, hlast, Option.some_or]
  · rw [List.singleton_append, Nat.ofDigitChars_cons, Nat.ofDigitChars_append,
      Nat.ofDigitChars_replicate_zero]
    exact Nat.ofDigitChars_ten_toDigits
  · rw [List.length_append, List.length_replicate]
    omega

/-- **Positional notation with digits behind the point is a literal**, and the literal stands for
    the binary number nearest to the decimal one. -/
theorem denotes_plain (layout : Layout) (he : d.exponent < 0) :
    Denotes (layout.plain d) (.float (d.nearest false)) := by
  simp only [Layout.plain]
  rw [if_neg (by omega)]
  split
  · rename_i hn
    exact denotes_inside hc hn (by omega) (by omega)
  · exact denotes_before hc (by omega)

end Point

end Numeral

/-! ## 4. Printed values -/

/-- Scientific notation has a mark before the exponent. -/
theorem Layout.mark_mem_scientific (layout : Layout) (d : Decimal) : 'e' ∈ layout.scientific d := by
  rw [scientific]
  exact List.mem_append_right _ (List.mem_cons_self)

/-- A finite number above zero without a mark in its text is written positionally. -/
theorem Layout.number_eq_plain {layout : Layout} {x : Binary64} (hx : x.isFinite = true)
    (hs : x.negative = false) (he : 'e' ∉ (layout.number x).toList) :
    layout.number x = String.ofList (layout.plain (Decimal.shortest x.magnitude)) := by
  have hnumber : layout.number x =
      String.ofList (layout.decimal (Decimal.shortest x.magnitude)) := by
    simp [Layout.number, Binary64.isFinite_isNaN hx, Binary64.isFinite_isInfinite hx, hs]
  rw [hnumber, String.toList_ofList] at he
  rw [hnumber]
  unfold Layout.decimal at he ⊢
  split
  · rfl
  · rename_i hplain
    rw [if_neg hplain] at he
    exact absurd (mark_mem_scientific layout _) he

/-- A finite number that is no integer is not a whole number of steps. -/
theorem Binary64.not_dvd_unitsOf {x : Binary64} (hx : x.isFinite = true) (hi : x.toInt? = none) :
    ¬unitsPerOne ∣ unitsOf x.magnitude := by
  intro hdvd
  have hmod : x.units % unitsPerOne = 0 := Nat.mod_eq_zero_of_dvd hdvd
  rw [toInt?, hx, hmod] at hi
  cases hi

/-- The printed value is an integer that is not negative, or a finite number above zero that is no
    integer and is printed without an exponent. -/
def Printed.IsPlain : Printed → Prop
  | .integer n => 0 ≤ n
  | .float x =>
    x.isFinite = true ∧ x.negative = false ∧ x.toInt? = none ∧ 'e' ∉ (Printed.float x).text.toList

/-- The text of a printed value without sign and exponent is a literal, and the value it stands for
    is printed in the same way. -/
theorem Printed.IsPlain.denotes {v : Printed} (h : v.IsPlain) :
    ∃ cs w, v.text = String.ofList cs ∧ Numeral.Denotes cs w ∧ w.toPrinted = v := by
  cases v with
  | integer n =>
    obtain ⟨n, rfl⟩ := Int.eq_ofNat_of_zero_le h
    have htext : (Printed.integer n).text = String.ofList (Nat.toDigits 10 n) := by
      rw [Printed.text, Int.repr_eq_if, if_pos (Int.natCast_nonneg n), Int.toNat_natCast,
        Nat.repr_eq_ofList_toDigits]
    exact ⟨_, _, htext, Numeral.denotes_toDigits n, rfl⟩
  | float x =>
    obtain ⟨hx, hs, hi, he⟩ := h
    have hm : x.magnitude < Binary64.infiniteMagnitude := of_decide_eq_true hx
    have hw := Binary64.not_dvd_unitsOf hx hi
    have h0 : x.magnitude ≠ 0 := by
      intro h0
      rw [h0] at hw
      exact hw (Nat.dvd_zero _)
    have hnearest : (Decimal.shortest x.magnitude).nearest false = x := by
      apply Binary64.ext
      · rw [Decimal.nearest_negative, hs]
      · rw [Decimal.nearest_magnitude, Decimal.roundedMagnitude_shortest hm]
    have hdenotes := Numeral.denotes_plain (Decimal.shortest_coefficient_mod hm h0) Printed.layout
      (Decimal.shortest_exponent_neg hm hw)
    rw [hnearest] at hdenotes
    exact ⟨_, _, Layout.number_eq_plain hx hs he, hdenotes, Value.toPrinted_float hi⟩

/-- **Printed values are literals of the language.** The program that gives a printed value to a
    name and prints the name prints the value again. -/
theorem run_printed_text {v : Printed} (h : v.IsPlain) :
    (run ("x = " ++ v.text ++ "; print(x);")).result = .ok [v] := by
  obtain ⟨cs, w, htext, hcs, rfl⟩ := h.denotes
  rw [htext]
  exact (Session.eval_of_parseText (Grammar.parseText_showing hcs) Session.new).2

/-- One tenth and two tenths, added as binary numbers: the shortest digits of the sum are 17. -/
theorem run_printed_threeTenths :
    (Printed.float (.ofBits 0x3FD3333333333334)).text = "0.30000000000000004" ∧
    Printed.IsPlain (.float (.ofBits 0x3FD3333333333334)) ∧
    (run "x = 0.30000000000000004; print(x);").result =
      .ok [.float (.ofBits 0x3FD3333333333334)] := by
  have htext : (Printed.float (.ofBits 0x3FD3333333333334)).text = "0.30000000000000004" := by
    decide +kernel
  have hplain : Printed.IsPlain (.float (.ofBits 0x3FD3333333333334)) := by
    refine ⟨by decide, by decide, by decide +kernel, ?_⟩
    rw [htext]
    decide
  have hrun := run_printed_text hplain
  rw [htext] at hrun
  exact ⟨htext, hplain, hrun⟩

end Abacus
