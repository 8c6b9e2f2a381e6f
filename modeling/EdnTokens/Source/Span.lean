/-!
# Positions and spans

A position is a line and a column, both counted from one. A span is a range of offsets together
with the line and column of its beginning and the file it lies in.
-/

namespace EdnTokens

/-- A line and a column. -/
structure Position where
  line : Nat
  column : Nat
  deriving DecidableEq, Repr

/-- The offsets from `start` up to but not including `stop`. Lines and columns of a span are
32-bit words. -/
structure Span where
  start : Nat := 0
  stop : Nat := 0
  line : UInt32 := 0
  column : UInt32 := 0
  /-- Number of the file in its source map. -/
  file : Nat := 0
  deriving DecidableEq, Repr

namespace Span

/-- The span of something without a place. -/
def dummy : Span := {}

/-- Number of characters covered; a span that ends before it begins covers none. -/
def length (s : Span) : Nat :=
  s.stop - s.start

/-- Whether the span covers no character. -/
def isEmpty (s : Span) : Bool :=
  s.length == 0

end Span

end EdnTokens
