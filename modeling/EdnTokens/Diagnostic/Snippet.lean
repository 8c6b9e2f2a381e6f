import EdnTokens.Source.File

/-!
# Source snippets

The line under a diagnostic with its number, and below it carets under the columns in question.
-/

namespace EdnTokens

/-- A source line with a range of columns marked; `stopColumn` is the first one behind the
range. -/
structure Snippet where
  line : Text
  lineNumber : Nat
  startColumn : Nat
  stopColumn : Nat
  deriving DecidableEq, Repr

namespace Snippet

/-- The snippet for a span. A span that runs past the end of its first line is cut there. The end
of the range is a 64-bit word, so that it is computed modulo the number of such words. -/
def ofSpan? (file : SourceFile) (span : Span) : Option Snippet :=
  let p := file.position span.start
  (file.lineAt? p.line).map fun line =>
    { line
      lineNumber := p.line
      startColumn := p.column
      stopColumn := min ((p.column + span.length) % UInt64.size) (line.length + 1) }

/-- Width of the column of line numbers. -/
def gutter (s : Snippet) : Nat :=
  max 3 (Text.ofNat s.lineNumber).length

/-- Number of carets: one for each marked column, and one if there is none. -/
def carets (s : Snippet) : Nat :=
  max 1 (s.stopColumn - s.startColumn)

/-- The row with the source line. -/
def sourceRow (s : Snippet) : Text :=
  Text.alignRight s.gutter (Text.ofNat s.lineNumber) ++ " | ".toList ++ s.line

/-- The row with the carets. -/
def caretRow (s : Snippet) : Text :=
  Text.alignRight s.gutter [] ++ " | ".toList ++
    (List.replicate (s.startColumn - 1) ' ' ++ List.replicate s.carets '^')

/-- Both rows. -/
def format (s : Snippet) : Text :=
  s.sourceRow ++ '\n' :: s.caretRow

end Snippet

end EdnTokens
