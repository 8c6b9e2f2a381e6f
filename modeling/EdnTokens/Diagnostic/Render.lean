import EdnTokens.Diagnostic.Basic
import EdnTokens.Diagnostic.Snippet

/-!
# Rendered diagnostics

The form in which a diagnostic is shown to a reader: a header, the place, the snippet, then notes
and advice. On a terminal the header is coloured.
-/

namespace EdnTokens

/-- When rendered diagnostics are coloured. -/
inductive ColorMode
  | auto
  | always
  | never
  deriving DecidableEq, Repr

/-- Whether to colour the output of a stream. -/
def ColorMode.useColor (mode : ColorMode) (terminal : Bool) : Bool :=
  match mode with
  | .auto => terminal
  | .always => true
  | .never => false

namespace Diagnostic

/-- The control sequence that switches to bold red. -/
def boldRed : Text := "\x1b[1;31m".toList

/-- The control sequence that switches colours off. -/
def plain : Text := "\x1b[0m".toList

/-- The word `error` with the code, if there is one. -/
def label (d : Diagnostic) : Text :=
  match d.code with
  | some code => "error[".toList ++ code.display ++ "]".toList
  | none => "error".toList

/-- The first line. -/
def header (d : Diagnostic) (color : Bool) : Text :=
  (if color then boldRed ++ d.label ++ plain else d.label) ++ ": ".toList ++ d.message.toList

/-- The lines under the place: the snippet, the notes and the advice. -/
def details (d : Diagnostic) (file : SourceFile) : List Text :=
  (Snippet.ofSpan? file d.span).toList.map Snippet.format ++
    d.notes.map ("  = note: ".toList ++ ·) ++
    d.helps.map ("  = help: ".toList ++ ·)

/-- A diagnostic as shown to a reader, against the file in which its span lies. -/
def render (d : Diagnostic) (file : SourceFile) (color : Bool) : Text :=
  (d.header color :: (" --> ".toList ++ file.location d.span.start) :: d.details file).flatMap
    Text.line

end Diagnostic

end EdnTokens
