import Abacus.Text.Extender
import Abacus.Text.Grapheme.Conjunct
import Abacus.Text.Grapheme.Pictograph
import Abacus.Text.Grapheme.Spacing

/-!
# The role of a character in a grapheme

Where a grapheme ends depends on its characters only through their roles. This file fixes the role
of each character, by the property Grapheme_Cluster_Break of Unicode 17.0, with pictographs and the
consonants of conjuncts as roles of their own.
-/

namespace Abacus

namespace Text

/-! ## 1. Small tables -/

/-- Controls, separators of lines and paragraphs, and format characters: they stand alone. Carriage
    return and line feed are roles of their own. -/
def controls : CharClass :=
  [(0x0, 0x9), (0xB, 0xC), (0xE, 0x1F), (0x7F, 0x9F), (0xAD, 0xAD), (0x61C, 0x61C),
   (0x180E, 0x180E), (0x200B, 0x200B), (0x200E, 0x200F), (0x2028, 0x202E), (0x2060, 0x206F),
   (0xFEFF, 0xFEFF), (0xFFF0, 0xFFFB), (0x13430, 0x1343F), (0x1BCA0, 0x1BCA3), (0x1D173, 0x1D17A),
   (0xE0000, 0xE001F), (0xE0080, 0xE00FF), (0xE01F0, 0xE0FFF)]

theorem controls_isOrdered : controls.isOrdered = true := by decide

/-- Signs that belong to the character behind them, such as the number signs of Arabic. -/
def leadingSigns : CharClass :=
  [(0x600, 0x605), (0x6DD, 0x6DD), (0x70F, 0x70F), (0x890, 0x891), (0x8E2, 0x8E2), (0xD4E, 0xD4E),
   (0x110BD, 0x110BD), (0x110CD, 0x110CD), (0x111C2, 0x111C3), (0x113D1, 0x113D1),
   (0x1193F, 0x1193F), (0x11941, 0x11941), (0x11A84, 0x11A89), (0x11D46, 0x11D46),
   (0x11F02, 0x11F02)]

theorem leadingSigns_isOrdered : leadingSigns.isOrdered = true := by decide

/-- The colours of skin, which extend the picture before them. -/
def skinTones : CharClass := [(0x1F3FB, 0x1F3FF)]

/-- The letters of flags: two of them make one flag. -/
def flagLetters : CharClass := [(0x1F1E6, 0x1F1FF)]

/-- The joiner, which binds to the character before it, and a pictograph behind it to that. -/
def joiner : Char := '\u200d'

/-- The sign against joining. It extends the character before it, but it ends a conjunct. -/
def nonJoiner : Char := '\u200c'

/-! ## 2. Syllables in blocks -/

/-- Consonants at the beginning of a syllable block. -/
def initialLetters : CharClass := [(0x1100, 0x115F), (0xA960, 0xA97C)]

/-- Vowels in the middle of a syllable block. -/
def medialLetters : CharClass :=
  [(0x1160, 0x11A7), (0xD7B0, 0xD7C6), (0x16D63, 0x16D63), (0x16D67, 0x16D6A)]

/-- Consonants at the end of a syllable block. -/
def finalLetters : CharClass := [(0x11A8, 0x11FF), (0xD7CB, 0xD7FB)]

/-- Whole syllable blocks. -/
def syllables : CharClass := [(0xAC00, 0xD7A3)]

/-- How many syllable blocks share an initial letter and a medial one. The first of them has no
    final letter, and every other one has. -/
def finalsPerMedial : Nat := 28

/-- The syllable block has no final letter. -/
def isOpenSyllable (c : Char) : Bool := (c.toNat - 0xAC00) % finalsPerMedial == 0

/-! ## 3. Roles -/

/-- What a character does in a grapheme. -/
inductive Role where
  | carriageReturn
  | lineFeed
  /-- It stands alone. -/
  | control
  /-- It extends the character before it. -/
  | extend
  | joiner
  /-- It stands beside the character before it. -/
  | spacing
  /-- It stands before the character it belongs to. -/
  | leading
  | flagLetter
  | pictograph
  /-- It may be linked to another consonant. -/
  | consonant
  | initialLetter
  | medialLetter
  | finalLetter
  /-- A syllable block without a final letter. -/
  | openSyllable
  /-- A syllable block with a final letter. -/
  | closedSyllable
  /-- Any other character, which begins a grapheme. -/
  | plain
deriving DecidableEq

/-- The role of a character. -/
def role (c : Char) : Role :=
  if c = '\r' then .carriageReturn
  else if c = '\n' then .lineFeed
  else if c = joiner then .joiner
  else if controls.contains c then .control
  else if isExtender c || skinTones.contains c then .extend
  else if spacingMarks.contains c then .spacing
  else if leadingSigns.contains c then .leading
  else if flagLetters.contains c then .flagLetter
  else if isPictograph c then .pictograph
  else if isConsonant c then .consonant
  else if initialLetters.contains c then .initialLetter
  else if medialLetters.contains c then .medialLetter
  else if finalLetters.contains c then .finalLetter
  else if syllables.contains c then
    if isOpenSyllable c then .openSyllable else .closedSyllable
  else .plain

end Text

end Abacus
