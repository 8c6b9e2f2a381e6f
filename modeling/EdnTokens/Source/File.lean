import EdnTokens.Text.Escape
import EdnTokens.Source.Lines

/-!
# Source files

A source file is a name, a content and the line table of that content.
-/

namespace EdnTokens

/-- A named text with its line table. -/
structure SourceFile where
  name : String
  content : Text
  lines : Lines := Lines.ofText content
  lines_eq : lines = Lines.ofText content := by rfl

namespace SourceFile

/-- Number of characters. -/
def chars (f : SourceFile) : Nat :=
  f.lines.chars

/-- Line and column of an offset. -/
def position (f : SourceFile) (offset : Nat) : Position :=
  f.lines.position offset

/-- The text of a line without the line feed that ends it and the carriage returns before that. -/
def lineAt? (f : SourceFile) (line : Nat) : Option Text :=
  (f.lines.bounds? f.content.utf8Length line).bind fun (start, next) =>
    (f.content.sliceBytes? start next).map fun whole =>
      Text.dropTrailing '\r' (Text.dropTrailing '\n' whole)

/-- A one-line description: name, number of characters and number of lines. -/
def summary (f : SourceFile) : Text :=
  "SourceFile \x7b name: ".toList ++ Text.quoted f.name.toList ++
    ", chars: ".toList ++ Text.ofNat f.chars ++
    ", lines: ".toList ++ Text.ofNat f.lines.count ++ " \x7d".toList

/-- A place in a file, as `name:line:column`. -/
def location (f : SourceFile) (offset : Nat) : Text :=
  let p := f.position offset
  f.name.toList ++ ':' :: Text.ofNat p.line ++ ':' :: Text.ofNat p.column

end SourceFile

end EdnTokens
