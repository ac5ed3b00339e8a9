import Abacus.Error

/-!
# Scopes

Names have values in scopes, and scopes are nested. The outermost one is the global scope: it is a
part of the type, so it is always there. A name is looked up from the innermost scope outwards, and
a value is always given in the innermost one, so that a block shadows the names around it and never
changes them.

Main statements: a name has the value it was given last (`get?_insert_self`), and giving a value to
one name changes no other (`get?_insert_of_ne`).
-/

namespace Abacus

/-! ## 1. One scope -/

/-- The names of one scope with their values, in the order in which they first got one. -/
abbrev Frame (α : Type) : Type := List (String × α)

namespace Frame

variable {α : Type}

/-- The value of a name in this scope. -/
def get? : Frame α → String → Option α
  | [], _ => none
  | (y, w) :: frame, x => if y = x then some w else get? frame x

/-- The scope after the name was given a value. -/
def insert : Frame α → String → α → Frame α
  | [], x, v => [(x, v)]
  | (y, w) :: frame, x, v => if y = x then (x, v) :: frame else (y, w) :: insert frame x v

@[simp] theorem get?_insert_self (frame : Frame α) (x : String) (v : α) :
    (insert frame x v).get? x = some v := by
  induction frame with
  | nil => simp [insert, get?]
  | cons entry frame ih =>
    unfold insert
    split
    · simp [get?]
    · rename_i h
      simp [get?, h, ih]

theorem get?_insert_of_ne (frame : Frame α) {x y : String} (v : α) (h : y ≠ x) :
    (insert frame y v).get? x = frame.get? x := by
  induction frame with
  | nil => simp [insert, get?, h]
  | cons entry frame ih =>
    unfold insert
    split
    · rename_i he
      simp [get?, he, h]
    · simp only [get?, ih]

end Frame

/-! ## 2. Nested scopes -/

/-- The open scopes. -/
structure Scopes (α : Type) where
  /-- The scopes inside the global one, the innermost first. -/
  inner : List (Frame α)
  /-- The global scope. -/
  globals : Frame α
deriving DecidableEq

namespace Scopes

variable {α : Type}

/-- The global scope alone, without names. -/
def empty : Scopes α := ⟨[], []⟩

/-- Opens a scope. -/
def push (s : Scopes α) : Scopes α := { s with inner := [] :: s.inner }

/-- Closes the innermost scope; the global scope cannot be closed. -/
def pop? (s : Scopes α) : Option (Scopes α) :=
  match s.inner with
  | [] => none
  | _ :: inner => some { s with inner := inner }

/-- Closes all scopes but the global one. -/
def unwind (s : Scopes α) : Scopes α := { s with inner := [] }

/-- The number of open scopes, the global one included. -/
def depth (s : Scopes α) : Nat := s.inner.length + 1

/-- All scopes, the innermost first. -/
def frames (s : Scopes α) : List (Frame α) := s.inner ++ [s.globals]

/-- The value of a name: that of the innermost scope that has one. -/
def get? (s : Scopes α) (x : String) : Option α := s.frames.findSome? (·.get? x)

/-- The value of a name, or the error that it has none. -/
def lookup (s : Scopes α) (x : String) : Except RuntimeError α :=
  match s.get? x with
  | some v => .ok v
  | none => .error (.undefined x)

/-- Gives a name a value in the innermost scope. -/
def insert (s : Scopes α) (x : String) (v : α) : Scopes α :=
  match s.inner with
  | [] => { s with globals := s.globals.insert x v }
  | frame :: inner => { s with inner := frame.insert x v :: inner }

/-! ## 3. What the operations do -/

@[simp] theorem depth_push (s : Scopes α) : s.push.depth = s.depth + 1 := rfl

@[simp] theorem depth_unwind (s : Scopes α) : s.unwind.depth = 1 := rfl

@[simp] theorem depth_insert (s : Scopes α) (x : String) (v : α) :
    (s.insert x v).depth = s.depth := by
  unfold insert depth
  split
  · rename_i h; simp [h]
  · rename_i h; simp [h]

@[simp] theorem pop?_push (s : Scopes α) : s.push.pop? = some s := rfl

/-- **A name has the value it was given last.** -/
@[simp] theorem get?_insert_self (s : Scopes α) (x : String) (v : α) :
    (s.insert x v).get? x = some v := by
  unfold insert get? frames
  split
  · rename_i h; simp [h]
  · rename_i h; simp

/-- **A value given to one name changes no other.** -/
theorem get?_insert_of_ne (s : Scopes α) {x y : String} (v : α) (h : y ≠ x) :
    (s.insert y v).get? x = s.get? x := by
  unfold insert get? frames
  split
  · rename_i hi; simp [hi, Frame.get?_insert_of_ne _ v h]
  · rename_i hi
    simp only [hi, List.cons_append, List.findSome?_cons, Frame.get?_insert_of_ne _ v h]

end Scopes

end Abacus
