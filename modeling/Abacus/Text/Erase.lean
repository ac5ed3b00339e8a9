import Abacus.Text.Grapheme

/-!
# Text with backspaces

A line may hold backspaces, each of which takes back the grapheme before it. The size of a grapheme
is counted in bytes, and the count has eight bits: of a grapheme of 256 bytes or more a backspace
takes back only the surplus over a multiple of 256.

Main statements: a text without backspaces is kept (`erase_of_no_backspace`), and a backspace takes
back a grapheme of at most 255 bytes as a whole (`text_step_backspace`).
-/

namespace Abacus

namespace Text

/-- The character that takes back the one before it. -/
def backspace : Char := '\x08'

/-- The size of a text in bytes. -/
def byteSize : List Char → Nat
  | [] => 0
  | c :: cs => c.utf8Size + byteSize cs

/-- The text without as many bytes at its beginning; a character goes as a whole. -/
def dropBytes : Nat → List Char → List Char
  | _, [] => []
  | 0, cs => cs
  | n + 1, c :: cs => dropBytes (n + 1 - c.utf8Size) cs

/-- The text written so far, in reverse, and the sizes of its graphemes, the last one first. -/
structure Erasing where
  reversed : List Char
  sizes : List UInt8

namespace Erasing

/-- Nothing is written. -/
def empty : Erasing := ⟨[], []⟩

/-- The text that is written. -/
def text (e : Erasing) : List Char := e.reversed.reverse

/-- Writes a grapheme. -/
def write (e : Erasing) (grapheme : List Char) : Erasing :=
  ⟨grapheme.reverse ++ e.reversed, UInt8.ofNat (byteSize grapheme) :: e.sizes⟩

/-- Takes back the last grapheme, if there is one. -/
def takeBack (e : Erasing) : Erasing :=
  match e.sizes with
  | [] => e
  | size :: sizes => ⟨dropBytes size.toNat e.reversed, sizes⟩

/-- Reads the next grapheme of the input. -/
def step (e : Erasing) (grapheme : List Char) : Erasing :=
  if grapheme = [backspace] then e.takeBack else e.write grapheme

end Erasing

/-- The text after every backspace has taken back the grapheme before it. -/
def erase (cs : List Char) : List Char := ((graphemes cs).foldl Erasing.step .empty).text

/-! ## Laws -/

theorem dropBytes_zero (cs : List Char) : dropBytes 0 cs = cs := by
  cases cs <;> rfl

/-- Dropping the size of a text drops just the text. -/
theorem dropBytes_append (cs rest : List Char) : dropBytes (byteSize cs) (cs ++ rest) = rest := by
  induction cs with
  | nil => exact dropBytes_zero rest
  | cons c cs ih =>
    have hs : byteSize (c :: cs) = c.utf8Size + byteSize cs := rfl
    have hc := Char.utf8Size_pos c
    obtain ⟨n, hn⟩ : ∃ n, byteSize (c :: cs) = n + 1 := ⟨byteSize (c :: cs) - 1, by omega⟩
    rw [hn, List.cons_append, dropBytes, ← hn, hs, Nat.add_sub_cancel_left, ih]

theorem byteSize_append (cs ds : List Char) : byteSize (cs ++ ds) = byteSize cs + byteSize ds := by
  induction cs with
  | nil => simp [byteSize]
  | cons c cs ih => simp only [List.cons_append, byteSize, ih, Nat.add_assoc]

theorem byteSize_reverse (cs : List Char) : byteSize cs.reverse = byteSize cs := by
  induction cs with
  | nil => rfl
  | cons c cs ih =>
    rw [List.reverse_cons, byteSize_append, ih]
    simp only [byteSize]
    omega

/-- **A backspace takes back a grapheme of at most 255 bytes as a whole.** -/
theorem text_step_backspace (e : Erasing) {grapheme : List Char} (h : byteSize grapheme < 256) :
    ((e.write grapheme).step [backspace]) = e := by
  have hs : (UInt8.ofNat (byteSize grapheme)).toNat = byteSize grapheme := by
    rw [UInt8.toNat_ofNat']
    omega
  simp only [Erasing.step, Erasing.takeBack, Erasing.write, if_true, hs]
  rw [← byteSize_reverse, dropBytes_append]

theorem text_foldl_step {gs : List (List Char)} (h : [backspace] ∉ gs) (e : Erasing) :
    (gs.foldl Erasing.step e).text = e.text ++ gs.flatten := by
  induction gs generalizing e with
  | nil => simp
  | cons g gs ih =>
    simp only [List.mem_cons, not_or] at h
    have hg : g ≠ [backspace] := fun he => h.1 he.symm
    rw [List.foldl_cons, ih h.2, Erasing.step, if_neg hg]
    simp [Erasing.text, Erasing.write]

/-- **A text without backspaces is kept.** -/
theorem erase_of_no_backspace {cs : List Char} (h : backspace ∉ cs) : erase cs = cs := by
  have hg : [backspace] ∉ graphemes cs := by
    intro hm
    refine h ?_
    rw [← flatten_graphemes cs]
    exact List.mem_flatten.2 ⟨_, hm, List.mem_singleton.2 rfl⟩
  rw [erase, text_foldl_step hg, flatten_graphemes]
  rfl

end Text

end Abacus
