import Abacus.Proofs.Decimal.Text

/-!
# What a printed number shows

A printed binary number has the shortest digits that read back, and only their layout depends on how
large the number is. The layout can be had from two simpler texts with the same digits: one that is
in scientific notation throughout, and one that is in positional notation throughout. The exponent
is taken from the first text, as a text, and decides between the two (`reformat?`). So the text
behind the mark has to be an integer of 32 bits, and it is one, since no leading digit of a finite
number has an exponent of more than three digits (`Decimal.leadingExponent_shortest`).

Main statement: the printed text is the one that is chosen in this way, denotes the same rational
number as the scientific one and is read as the number that was printed; it has an exponent exactly
below `10 ^ (-4)` and from `10 ^ 16` on, and then with a sign and two digits at least
(`text_of_isFinite`).
-/

namespace Abacus

open Numeral Layout

/-- Scientific notation throughout, with no sign and no filling at an exponent. -/
def Layout.exponential : Layout where
  plainFrom := 0
  plainBelow := 0
  wholePoint := false
  exponentPlus := false
  exponentWidth := 1

namespace Printed

/-! ## 1. Two texts and a choice -/

/-- The shortest digits of a number in scientific notation. -/
def scientificText (x : Binary64) : List Char := (exponential.number x).toList

/-- The shortest digits of a finite number in positional notation. -/
def positionalText (x : Binary64) : List Char :=
  signed x.negative (layout.plain (.shortest x.magnitude))

/-- The integer of 32 bits that a text stands for: digits with at most one sign in front. -/
def int32? (cs : List Char) : Option Int :=
  let (negative, unsigned) := splitSign cs
  if !unsigned.isEmpty && unsigned.all Char.isDigit then
    let size : Int := Nat.ofDigitChars 10 unsigned 0
    let n := if negative then -size else size
    if -2 ^ (31 : Nat) ≤ n ∧ n < 2 ^ (31 : Nat) then some n else none
  else none

/-- The text of a number from its two other texts. A text without a mark has no exponent to choose
    by. With a mark, the exponent behind it says which notation is taken, and in scientific notation
    it is written anew. There is no text if the exponent is no integer of 32 bits. -/
def reformat? (scientific positional : List Char) : Option (List Char) :=
  match scientific.dropWhile (· != 'e') with
  | [] => some positional
  | _ :: exponent =>
    (int32? exponent).map fun e =>
      if -4 ≤ e ∧ e < 16 then positional
      else
        scientific.takeWhile (· != 'e') ++
          'e' :: (if e < 0 then '-' else '+') :: layout.exponentDigits e.natAbs

/-! ## 2. The exponent -/

/-- An exponent of a layout is an integer of 32 bits if it is not too large for one. -/
theorem int32?_exponent (layout : Layout) {e : Int}
    (h : -2 ^ (31 : Nat) ≤ e ∧ e < 2 ^ (31 : Nat)) :
    int32? (layout.exponentSign e ++ layout.exponentDigits e.natAbs) = some e := by
  have hdigits : (layout.exponentDigits e.natAbs).all Char.isDigit = true :=
    List.all_eq_true.mpr (layout.isDigits_exponentDigits e.natAbs)
  have hempty : (layout.exponentDigits e.natAbs).isEmpty = false :=
    List.isEmpty_eq_false_iff.mpr (layout.exponentDigits_ne_nil e.natAbs)
  simp only [int32?, splitSign_exponent, hdigits, hempty, ofDigitChars_exponentDigits,
    signed_natAbs]
  exact if_pos h

theorem decimal_exponential (d : Decimal) : exponential.decimal d = exponential.scientific d := by
  rw [decimal_eq, if_neg]
  show ¬(0 ≤ leadingExponent d ∧ leadingExponent d < 0)
  omega

theorem decimal_layout (d : Decimal) :
    layout.decimal d =
      if -4 ≤ leadingExponent d ∧ leadingExponent d < 16 then layout.plain d
      else layout.scientific d :=
  layout.decimal_eq d

theorem exponentSign_layout (e : Int) :
    layout.exponentSign e = [if e < 0 then '-' else '+'] := by
  unfold exponentSign
  split
  · rfl
  · rfl

/-! ## 3. The text of a finite number -/

/-- The exponent of the leading one of the shortest digits. -/
def exponent (x : Binary64) : Int := leadingExponent (.shortest x.magnitude)

/-- What stands in front of the mark in scientific notation. -/
def significand (x : Binary64) : List Char := signed x.negative (mantissa (.shortest x.magnitude))

theorem mark_notMem_signed {negative : Bool} {cs : List Char} (h : 'e' ∉ cs) :
    'e' ∉ signed negative cs := by
  cases negative with
  | false => exact h
  | true => exact List.not_mem_cons_of_ne_of_not_mem (by decide) h

theorem mark_notMem_significand (x : Binary64) : 'e' ∉ significand x :=
  mark_notMem_signed (mark_notMem_mantissa _)

theorem mark_notMem_positionalText (x : Binary64) : 'e' ∉ positionalText x :=
  mark_notMem_signed (layout.mark_notMem_plain _)

section Finite

variable {x : Binary64} (hx : x.isFinite = true)

include hx

theorem scientificText_eq :
    scientificText x =
      significand x ++
        'e' :: (exponential.exponentSign (exponent x) ++
          exponential.exponentDigits (exponent x).natAbs) := by
  rw [scientificText, toList_number _ hx, decimal_exponential, scientific_eq, exponentText_eq,
    significand, exponent, signed, signed, List.append_assoc]

/-- **The exponent decides between the two notations.** -/
theorem toList_text :
    (float x).text.toList =
      if -4 ≤ exponent x ∧ exponent x < 16 then positionalText x
      else
        significand x ++
          'e' :: (if exponent x < 0 then '-' else '+') ::
            layout.exponentDigits (exponent x).natAbs := by
  rw [text, toList_number _ hx, decimal_layout, ← exponent]
  by_cases hplain : -4 ≤ exponent x ∧ exponent x < 16
  · rw [if_pos hplain, if_pos hplain, positionalText]
  · rw [if_neg hplain, if_neg hplain, scientific_eq, exponentText_eq, exponentSign_layout,
      significand, signed, signed, List.append_assoc]
    rfl

theorem exponent_mem : -324 ≤ exponent x ∧ exponent x ≤ 308 :=
  Decimal.leadingExponent_shortest (of_decide_eq_true hx)

/-- **The choice between the two texts gives the printed one**, and the exponent it is made by is
    always read. -/
theorem reformat?_eq :
    reformat? (scientificText x) (positionalText x) = some (float x).text.toList := by
  have hmark : ∀ c ∈ significand x, (c != 'e') = true := by
    intro c hc
    rw [bne_iff_ne]
    intro he
    exact mark_notMem_significand x (he ▸ hc)
  have hbounds := exponent_mem hx
  have hexponent := int32?_exponent exponential (e := exponent x) (by omega)
  have hfirst (rest : List Char) : ∀ c ∈ ('e' :: rest).head?, (c != 'e') = false := by
    intro c hc
    cases hc
    decide
  obtain ⟨htake, hdrop⟩ := Lexer.span_append hmark (hfirst
    (exponential.exponentSign (exponent x) ++ exponential.exponentDigits (exponent x).natAbs))
  rw [scientificText_eq hx, reformat?, htake, hdrop, toList_text hx]
  simp only [hexponent, Option.map_some]

/-- **There is an exponent exactly if the number is not in positional notation.** -/
theorem mark_mem_text_iff :
    'e' ∈ (float x).text.toList ↔ exponent x < -4 ∨ 16 ≤ exponent x := by
  rw [toList_text hx]
  by_cases hplain : -4 ≤ exponent x ∧ exponent x < 16
  · rw [if_pos hplain]
    have hmark := mark_notMem_positionalText x
    constructor
    · intro h
      exact absurd h hmark
    · omega
  · rw [if_neg hplain]
    constructor
    · omega
    · intro _
      exact List.mem_append_right _ List.mem_cons_self

end Finite

/-- **A printed number shows what was printed.** The text of a finite number is made from its two
    other texts by the exponent that stands behind the mark, which is an integer of 32 bits. It
    denotes the same rational number as the scientific text and is read as the number with the same
    bits, so that no other finite number has it. There is an exponent in it exactly if the
    scientific one is below `-4` or not below `16`, and this exponent has a sign and two digits at
    least. -/
theorem text_of_isFinite {x : Binary64} (hx : x.isFinite = true) :
    ∃ mantissa exponent e,
      scientificText x = mantissa ++ 'e' :: exponent ∧ 'e' ∉ mantissa ∧
      int32? exponent = some e ∧
      reformat? (scientificText x) (positionalText x) = some (float x).text.toList ∧
      (∃ q, rational? (float x).text.toList = some q ∧ rational? (scientificText x) = some q) ∧
      float? (float x).text.toList = some x ∧
      (∀ y : Binary64, y.isFinite = true → (float y).text = (float x).text → y = x) ∧
      ('e' ∈ (float x).text.toList ↔ e < -4 ∨ 16 ≤ e) ∧
      ('e' ∈ (float x).text.toList → ∃ digits,
        (float x).text.toList = mantissa ++ 'e' :: (if e < 0 then '-' else '+') :: digits ∧
          IsDigits digits ∧ 2 ≤ digits.length ∧ Nat.ofDigitChars 10 digits 0 = e.natAbs) := by
  have hbounds := exponent_mem hx
  refine ⟨significand x, _, exponent x, scientificText_eq hx, mark_notMem_significand x,
    int32?_exponent exponential (by omega), reformat?_eq hx,
    ⟨_, layout.rational?_number hx, exponential.rational?_number hx⟩, layout.float?_number hx,
    fun y hy h => layout.number_injective hy hx h, mark_mem_text_iff hx, fun hmark => ?_⟩
  refine ⟨layout.exponentDigits (exponent x).natAbs, ?_, layout.isDigits_exponentDigits _,
    layout.length_exponentDigits _, layout.ofDigitChars_exponentDigits _⟩
  have hexponent := (mark_mem_text_iff hx).mp hmark
  rw [toList_text hx, if_neg (by omega)]

/-- A number below zero with a small exponent: the two texts have it with one digit and with two. -/
theorem text_of_isFinite_small :
    (Binary64.ofBits 0xBE8421F5F40D8376).isFinite = true ∧
    scientificText (.ofBits 0xBE8421F5F40D8376) = "-1.5e-7".toList ∧
    (float (.ofBits 0xBE8421F5F40D8376)).text.toList = "-1.5e-07".toList ∧
    float? "-1.5e-07".toList = some (.ofBits 0xBE8421F5F40D8376) ∧
    rational? "-1.5e-07".toList = rational? "-1.5e-7".toList := by
  have hx : (Binary64.ofBits 0xBE8421F5F40D8376).isFinite = true := by decide
  have hscientific : scientificText (.ofBits 0xBE8421F5F40D8376) = "-1.5e-7".toList := by
    decide +kernel
  have htext : (float (.ofBits 0xBE8421F5F40D8376)).text.toList = "-1.5e-07".toList := by
    decide +kernel
  obtain ⟨mantissa, exponent, e, -, -, -, -, hrational, hfloat, -⟩ := text_of_isFinite hx
  rw [htext] at hfloat hrational
  rw [hscientific] at hrational
  obtain ⟨q, htextq, hscientificq⟩ := hrational
  exact ⟨hx, hscientific, htext, hfloat, htextq.trans hscientificq.symm⟩

end Printed

end Abacus
