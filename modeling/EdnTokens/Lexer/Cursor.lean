import EdnTokens.Text.Basic
import EdnTokens.Character

/-!
# Cursors

A cursor stands between two characters of a text and only moves forward. It knows what lies ahead,
and how far it has come in bytes, in characters, and in lines and columns. Moving past the end
changes nothing.
-/

namespace EdnTokens

/-- A place in a text. -/
structure Cursor where
  /-- The whole text. -/
  source : Text
  /-- The part of the text that lies ahead. -/
  rest : Text
  /-- Number of bytes passed. -/
  offset : Nat := 0
  /-- Offset of the next character, counted from one. -/
  position : Nat := 1
  /-- Line of the next character, a 32-bit word. -/
  line : UInt32 := 1
  /-- Column of the next character, a 32-bit word. -/
  column : UInt32 := 1
  deriving DecidableEq, Repr

namespace Cursor

/-- The cursor at the beginning of a text. -/
def ofText (t : Text) : Cursor :=
  { source := t, rest := t }

/-! ### Looking ahead -/

/-- The next character. -/
def current? (c : Cursor) : Option Char :=
  c.rest.head?

/-- The character after `n` others. -/
def charAt? (c : Cursor) (n : Nat) : Option Char :=
  c.rest[n]?

/-- The next `n` characters, or as many as there are. -/
def peek (c : Cursor) (n : Nat) : Text :=
  c.rest.take n

/-- Whether nothing lies ahead. -/
def atEnd (c : Cursor) : Bool :=
  c.rest.isEmpty

/-- Whether the next character is a separator. -/
def atSeparator (c : Cursor) : Bool :=
  c.current?.any Character.isSeparator

/-- The text from byte `start` of the source up to the cursor; none if that byte lies behind the
cursor or inside a character. -/
def sliceFrom? (c : Cursor) (start : Nat) : Option Text :=
  Text.dropBytes? start (c.source.take (c.position - 1))

/-! ### Moving -/

/-- The cursor one character further. -/
def advance (c : Cursor) : Cursor :=
  match c.rest with
  | [] => c
  | x :: rest =>
    { c with
      rest
      offset := c.offset + x.utf8Size
      position := c.position + 1
      line := if x = '\n' then c.line + 1 else c.line
      column := if x = '\n' then 1 else c.column + 1 }

/-- The cursor `n` characters further, or at the end. -/
def advanceBy (c : Cursor) : Nat → Cursor
  | 0 => c
  | n + 1 => if c.atEnd then c else c.advance.advanceBy n

/-- Moves over `x` if it is the next character, and tells whether it was. -/
def eat (c : Cursor) (x : Char) : Bool × Cursor :=
  if c.current? = some x then (true, c.advance) else (false, c)

/-! ### What movement does to the text ahead -/

/-- Moving leaves the source as it is. -/
@[simp] theorem source_advance (c : Cursor) : c.advance.source = c.source := by
  unfold advance
  split <;> rfl

/-- Moving passes one character of what lies ahead. -/
@[simp] theorem rest_advance (c : Cursor) : c.advance.rest = c.rest.tail := by
  unfold advance
  split <;> simp_all

/-- However far the cursor moves, the source stays as it is. -/
@[simp] theorem source_advanceBy (c : Cursor) (n : Nat) :
    (c.advanceBy n).source = c.source := by
  induction n generalizing c with
  | zero => rfl
  | succ n ih =>
    unfold advanceBy
    split
    · rfl
    · rw [ih, source_advance]

/-- Moving several times passes as many characters. -/
@[simp] theorem rest_advanceBy (c : Cursor) (n : Nat) :
    (c.advanceBy n).rest = c.rest.drop n := by
  induction n generalizing c with
  | zero => rfl
  | succ n ih =>
    unfold advanceBy
    split
    · rename_i h
      rw [atEnd, List.isEmpty_iff] at h
      simp [h]
    · rw [ih, rest_advance, List.drop_tail]

/-! ### Moving over runs -/

/-- As long as there is a next character, less lies ahead behind it. -/
theorem rest_advance_lt {c : Cursor} {x : Char} (h : c.current? = some x) :
    c.advance.rest.length < c.rest.length := by
  have hne : c.rest ≠ [] := by
    intro hnil
    rw [current?, hnil] at h
    cases h
  have hpos := List.length_pos_iff.mpr hne
  rw [rest_advance, List.length_tail]
  omega

/-- Moves over the characters that satisfy `p`, up to the first that does not, and adds their number
to `eaten`. -/
def eatWhileFrom (p : Char → Bool) (eaten : Nat) (c : Cursor) : Nat × Cursor :=
  match h : c.current? with
  | none => (eaten, c)
  | some x => if p x then eatWhileFrom p (eaten + 1) c.advance else (eaten, c)
termination_by c.rest.length
decreasing_by exact rest_advance_lt h

/-- Moves over the characters that satisfy `p`, up to the first that does not, and tells how many
they were. -/
def eatWhile (c : Cursor) (p : Char → Bool) : Nat × Cursor :=
  eatWhileFrom p 0 c

end Cursor

end EdnTokens
