import EdnTokens.Text.Basic
import EdnTokens.Source.Span

/-!
# Line tables

The line table of a text lists where its lines begin: in one column the offsets, in another one the
numbers of bytes before them. A line ends with a line feed, so a text with `n` line feeds has
`n + 1` lines. An offset is placed on its line by bisection in the first column, and a line is cut
out of the encoded text at the bytes of the second one.
-/

namespace EdnTokens

/-- The line table of a text, with the number of its characters. -/
structure Lines where
  /-- Offsets of the first characters of the lines, in order. -/
  starts : Array Nat
  /-- Numbers of bytes before the lines, in the same order. -/
  byteStarts : Array Nat
  /-- Number of characters of the text. -/
  chars : Nat
  deriving DecidableEq, Repr

namespace Lines

/-- Extends the table of the part before `offset` by the lines that begin in `t`. -/
def collect (offset : Nat) (starts : Array Nat) : Text → Array Nat
  | [] => starts
  | c :: t =>
    collect (offset + 1) (if c = '\n' then starts.push (offset + 1) else starts) t

/-- Extends the bytes before the lines of a part with `byte` bytes by those before the lines that
begin in `t`. -/
def collectBytes (byte : Nat) (starts : Array Nat) : Text → Array Nat
  | [] => starts
  | c :: t =>
    collectBytes (byte + c.utf8Size) (if c = '\n' then starts.push (byte + 1) else starts) t

/-- The line table of a text. -/
def ofText (t : Text) : Lines where
  starts := collect 1 #[1] t
  byteStarts := collectBytes 0 #[0] t
  chars := t.length

/-- Number of lines. -/
def count (l : Lines) : Nat :=
  l.starts.size

/-- The index in `lo, …, hi - 1` of the last line that begins at or before `offset`, or `lo` if
there is none. -/
def bisect (starts : Array Nat) (offset lo hi : Nat) : Nat :=
  if hi ≤ lo + 1 then lo
  else
    let mid := (lo + hi) / 2
    if starts.getD mid 0 ≤ offset then bisect starts offset mid hi
    else bisect starts offset lo mid
termination_by hi - lo

/-- The nearest offset that lies in the text or directly behind it. -/
def clamp (l : Lines) (offset : Nat) : Nat :=
  max 1 (min offset (l.chars + 1))

/-- Line and column of an offset, after clamping it to the text. -/
def position (l : Lines) (offset : Nat) : Position :=
  let o := l.clamp offset
  let i := bisect l.starts o 0 l.starts.size
  ⟨i + 1, o - l.starts.getD i 0 + 1⟩

/-- The byte at which a line of a text of `size` bytes begins and the byte at which the next one
would. -/
def bounds? (l : Lines) (size line : Nat) : Option (Nat × Nat) :=
  if line = 0 then none
  else l.byteStarts[line - 1]?.map fun start => (start, l.byteStarts[line]?.getD size)

end Lines

end EdnTokens
