import Abacus.Text.Grapheme.Role

/-!
# Graphemes

A grapheme is a character as a reader sees it: a letter with the marks on it, a syllable block, a
picture with its variants, the two letters of a flag, or a carriage return with the line feed behind
it. This file fixes where a grapheme ends, by the rules for extended grapheme clusters of Unicode
17.0. A character belongs to the grapheme before it

* if the roles of the two neighbours say so (`Role.binds`);
* or if the grapheme so far says so: it ends in a linked consonant, in a picture with a joiner, or
  in a single letter of a flag (`joins`).

Main statements: cutting a text into graphemes loses nothing (`flatten_graphemes`), and no grapheme
is empty (`ne_nil_of_mem_graphemes`).
-/

namespace Abacus

namespace Text

/-! ## 1. Neighbours -/

namespace Role

/-- A character of this role ends a grapheme on both sides. -/
def isolates : Role → Bool
  | carriageReturn | lineFeed | control => true
  | _ => false

/-- A character of this role belongs to whatever stands before it. -/
def follows : Role → Bool
  | extend | joiner | spacing => true
  | _ => false

/-- Neighbours in a syllable block. -/
def inSyllable : Role → Role → Bool
  | initialLetter, initialLetter => true
  | initialLetter, medialLetter => true
  | initialLetter, openSyllable => true
  | initialLetter, closedSyllable => true
  | medialLetter, medialLetter => true
  | medialLetter, finalLetter => true
  | openSyllable, medialLetter => true
  | openSyllable, finalLetter => true
  | closedSyllable, finalLetter => true
  | finalLetter, finalLetter => true
  | _, _ => false

/-- Neighbours that belong together whatever stands before them. -/
def binds (first second : Role) : Bool :=
  (first == carriageReturn && second == lineFeed) ||
    (!first.isolates && !second.isolates &&
      (second.follows || first == leading || inSyllable first second))

end Role

/-! ## 2. What stands before -/

/-- The character may stand between the consonants of a conjunct. -/
def isConjunctMark (c : Char) : Bool :=
  c == joiner || (role c == .extend && c != nonJoiner)

/-- The text, in reverse, ends in a consonant with marks of which one links; `linked` says whether
    such a mark was passed already. -/
def endsLinked (linked : Bool) : List Char → Bool
  | [] => false
  | c :: before =>
    if isLinker c then endsLinked true before
    else if isConjunctMark c then endsLinked linked before
    else linked && isConsonant c

/-- The text, in reverse, ends in a pictograph with its marks and a joiner. -/
def endsJoined : List Char → Bool
  | [] => false
  | c :: before =>
    c == joiner && (before.dropWhile fun b => role b == .extend).head?.any isPictograph

/-- The text, in reverse, ends in a letter of a flag that has no partner yet. -/
def endsInHalfFlag (before : List Char) : Bool :=
  (before.takeWhile flagLetters.contains).length % 2 == 1

/-- The character belongs to the grapheme that stands right before it, given in reverse. -/
def joins (grapheme : List Char) (c : Char) : Bool :=
  match grapheme with
  | [] => false
  | last :: _ =>
    if (role last).binds (role c) then true
    else
      match role c with
      | .consonant => endsLinked false grapheme
      | .pictograph => endsJoined grapheme
      | .flagLetter => endsInHalfFlag grapheme
      | _ => false

/-! ## 3. Cutting -/

/-- Puts a character behind the last grapheme if it belongs to it, and begins a grapheme otherwise.
    The last grapheme comes first, and each is in reverse. -/
def putChar (graphemes : List (List Char)) (c : Char) : List (List Char) :=
  match graphemes with
  | [] => [[c]]
  | last :: rest => if joins last c then (c :: last) :: rest else [c] :: last :: rest

/-- The graphemes of a text. -/
def graphemes (cs : List Char) : List (List Char) :=
  ((cs.foldl putChar []).map List.reverse).reverse

theorem flatten_putChar (gs : List (List Char)) (c : Char) :
    (putChar gs c).flatten = c :: gs.flatten := by
  unfold putChar
  split
  · rfl
  · split <;> simp

theorem flatten_foldl_putChar (cs : List Char) (gs : List (List Char)) :
    (cs.foldl putChar gs).flatten = cs.reverse ++ gs.flatten := by
  induction cs generalizing gs with
  | nil => rfl
  | cons c cs ih => rw [List.foldl_cons, ih, flatten_putChar]; simp

/-- **Cutting a text into graphemes loses nothing.** -/
theorem flatten_graphemes (cs : List Char) : (graphemes cs).flatten = cs := by
  have h := flatten_foldl_putChar cs []
  have hr : (graphemes cs).flatten = (cs.foldl putChar []).flatten.reverse := by
    rw [List.reverse_flatten, graphemes]
  rw [hr, h]
  simp

theorem ne_nil_of_mem_putChar {gs : List (List Char)} (h : ∀ g ∈ gs, g ≠ []) (c : Char) :
    ∀ g ∈ putChar gs c, g ≠ [] := by
  intro g hg
  unfold putChar at hg
  split at hg
  · rw [List.mem_singleton.1 hg]
    exact List.cons_ne_nil _ _
  · split at hg
    · rcases List.mem_cons.1 hg with rfl | hg
      · exact List.cons_ne_nil _ _
      · exact h g (List.mem_cons_of_mem _ hg)
    · rcases List.mem_cons.1 hg with rfl | hg
      · exact List.cons_ne_nil _ _
      · exact h g hg

/-- **No grapheme is empty.** -/
theorem ne_nil_of_mem_graphemes {cs g : List Char} (hg : g ∈ graphemes cs) : g ≠ [] := by
  have key : ∀ (cs : List Char) (gs : List (List Char)), (∀ g ∈ gs, g ≠ []) →
      ∀ g ∈ cs.foldl putChar gs, g ≠ [] := by
    intro cs
    induction cs with
    | nil => exact fun _ h => h
    | cons c cs ih => exact fun gs h => ih _ (ne_nil_of_mem_putChar h c)
  obtain ⟨r, hr, rfl⟩ := List.mem_map.1 (List.mem_reverse.1 hg)
  have := key cs [] (fun _ h => absurd h List.not_mem_nil) r hr
  exact fun he => this (List.reverse_eq_nil_iff.1 he)

end Text

end Abacus
