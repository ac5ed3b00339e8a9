import Abacus.Session
import Abacus.Text.Blank
import Abacus.Text.Erase

/-!
# Entries at the prompt

At the prompt a program is entered piece by piece. An entry is one line, unless the line ends in a
backslash or leaves a brace open: then the next line belongs to it. This file fixes

* when an entry goes on (`isIncomplete`);
* how it is completed before it is evaluated (`complete`): a backslash before a line break stands
  for a blank, and a missing semicolon at the end is added;
* how entries are read from lines (`readEntry`). A line may hold backspaces, and bytes that are no
  text end the input.

Main statement: completion adds nothing to an entry that ends in a semicolon or a closing brace
(`complete_of_ends`).
-/

namespace Abacus

namespace Prompt

/-! ## 1. Completion -/

/-- More braces are opened than closed. -/
def hasOpenBraces (cs : List Char) : Bool := decide (cs.count '\x7d' < cs.count '\x7b')

/-- The entry goes on in the next line. -/
def isIncomplete (cs : List Char) : Bool := cs.getLast? == some '\x5c' || hasOpenBraces cs

/-- The text with a blank for each backslash before a line break. -/
def joinLines : List Char → List Char
  | [] => []
  | '\x5c' :: '\n' :: rest => ' ' :: joinLines rest
  | c :: rest => c :: joinLines rest

/-- The text ends, blanks aside, in the middle of a statement. -/
def lacksSemicolon (cs : List Char) : Bool :=
  match (Text.trimEnd cs).getLast? with
  | none => false
  | some c => c != ';' && c != '\x7d'

/-- The entry as it is evaluated. -/
def complete (cs : List Char) : List Char :=
  let joined := joinLines cs
  if lacksSemicolon joined then joined ++ [';'] else joined

/-- Completion adds nothing to an entry that ends a statement. -/
theorem complete_of_ends {cs : List Char} (h : lacksSemicolon (joinLines cs) = false) :
    complete cs = joinLines cs := by
  simp [complete, h]

/-- The entry ends the session. -/
def isQuit (cs : List Char) : Bool := Text.trim cs == ['q', 'u', 'i', 't']

/-! ## 2. Lines -/

/-- A line of the input, with its line break if it has one. -/
inductive Line where
  | text (cs : List Char)
  /-- The bytes of the line are no text. -/
  | unreadable
deriving DecidableEq

/-- The line with the given bytes. -/
def Line.ofBytes (bytes : List UInt8) : Line :=
  match String.fromUTF8? ⟨bytes.toArray⟩ with
  | some s => .text s.toList
  | none => .unreadable

/-- The byte of a line break. -/
def lineBreak : UInt8 := 10

/-- The bytes cut behind each line break; the bytes of the line that is read stand in reverse. -/
def cutLines (done : Array (List UInt8)) (line : List UInt8) : List UInt8 → Array (List UInt8)
  | [] => if line.isEmpty then done else done.push line.reverse
  | b :: bytes =>
    if b = lineBreak then cutLines (done.push (b :: line).reverse) [] bytes
    else cutLines done (b :: line) bytes

/-- The lines of an input. -/
def lines (input : ByteArray) : List Line := (cutLines #[] [] input.toList).toList.map Line.ofBytes

/-! ## 3. Entries -/

/-- What is read at the prompt. -/
inductive Entry where
  | entry (cs : List Char)
  /-- The input is at its end; a line that goes on is dropped. -/
  | endOfInput
  /-- The input is no text. -/
  | unreadable
deriving DecidableEq

/-- A text split into what stands before its line break, and the line break. -/
def splitBreak (cs : List Char) : List Char × List Char :=
  match cs.reverse with
  | '\n' :: '\r' :: rest => (rest.reverse, ['\r', '\n'])
  | '\n' :: rest => (rest.reverse, ['\n'])
  | _ => (cs, [])

/-- Reads an entry that begins with the given text, and gives the lines behind it. -/
def readEntry (buffer : List Char) : List Line → Entry × List Line
  | [] => (.endOfInput, [])
  | .unreadable :: rest => (.unreadable, rest)
  | .text cs :: rest =>
    let (body, ending) := splitBreak (buffer ++ cs)
    let body := Text.erase body
    if isIncomplete body then readEntry (body ++ ending) rest else (.entry body, rest)

/-- An entry takes at least one line. -/
theorem readEntry_rest_lt {buffer entry : List Char} {ls rest : List Line}
    (h : readEntry buffer ls = (.entry entry, rest)) : rest.length < ls.length := by
  induction ls generalizing buffer with
  | nil => simp [readEntry] at h
  | cons l ls ih =>
    cases l with
    | unreadable => simp [readEntry] at h
    | text cs =>
      simp only [readEntry] at h
      split at h
      · exact Nat.lt_succ_of_lt (ih h)
      · cases h; simp

end Prompt

end Abacus
