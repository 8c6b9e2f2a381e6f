import EdnTokens.Source.Span
import EdnTokens.Text.Escape
import EdnTokens.Token.Kind

/-!
# Diagnostics

A diagnostic explains what is wrong with a piece of a text: a message, the place, a code, what was
found there and what would help. Diagnostics are handed to a collector, which keeps them in order
until they are taken.
-/

namespace EdnTokens

/-- A letter and a number that identify a sort of diagnostic. -/
structure DiagnosticCode where
  category : String
  number : Nat
  deriving DecidableEq, Repr

namespace DiagnosticCode

/-- The text of a code: the letter, then at least four digits. -/
def display (c : DiagnosticCode) : Text :=
  let digits := Text.ofNat c.number
  c.category.toList ++ List.replicate (4 - digits.length) '0' ++ digits

/-- A code with the name of its sort. -/
def summary (c : DiagnosticCode) : Text :=
  "DiagnosticCode(".toList ++ c.display ++ ")".toList

/-- The code of malformed input, by error type. Every sort of malformed input has one; that of an
unterminated string stands where there is no type. -/
def ofErrorType : Option ErrorType → DiagnosticCode
  | some .invalidNumberFormat => ⟨"E", 1001⟩
  | some .invalidKeyword => ⟨"E", 1002⟩
  | some .invalidDispatch => ⟨"E", 1003⟩
  | none => ⟨"E", 1004⟩
  | some .unrecognizedCharacter => ⟨"E", 1005⟩
  | some .invalidCharacterEscape => ⟨"E", 1006⟩

/-- The codes of malformed input, by number. -/
def lexical : List DiagnosticCode :=
  [some .invalidNumberFormat, some .invalidKeyword, some .invalidDispatch, none,
    some .unrecognizedCharacter, some .invalidCharacterEscape].map ofErrorType

end DiagnosticCode

/-- What is wrong, where, and how to mend it. -/
structure Diagnostic where
  message : String
  span : Span := .dummy
  code : Option DiagnosticCode := none
  notes : List Text := []
  helps : List Text := []
  deriving DecidableEq, Repr

namespace Diagnostic

/-! ### Putting a diagnostic together -/

/-- A part that a diagnostic is given while it is put together. -/
inductive Part
  | code (c : DiagnosticCode)
  | span (s : Span)
  | note (t : Text)
  | help (t : Text)
  deriving DecidableEq, Repr

/-- The diagnostic with one more part. A code or a span takes the place of the one before; notes and
helps come behind those before. -/
def add (d : Diagnostic) : Part → Diagnostic
  | .code c => { d with code := some c }
  | .span s => { d with span := s }
  | .note t => { d with notes := d.notes ++ [t] }
  | .help t => { d with helps := d.helps ++ [t] }

/-- The diagnostic that is put together from a message and then some parts, one after the other. -/
def ofParts (message : String) (parts : List Part) : Diagnostic :=
  parts.foldl add { message }

/-! ### Malformed input -/

/-- The message for malformed input of a type. -/
def messageFor : Option ErrorType → String
  | some .invalidNumberFormat => "invalid number format"
  | some .invalidKeyword => "invalid keyword"
  | some .invalidDispatch => "invalid dispatch macro"
  | none => "unterminated string literal"
  | some .unrecognizedCharacter => "unrecognized character"
  | some .invalidCharacterEscape => "invalid character escape"

/-- The advice for malformed input of a type. -/
def helpFor : Option ErrorType → Option String
  | some .invalidNumberFormat => some "separate the number from what follows it with whitespace"
  | some .invalidKeyword => some "keywords take at most two leading colons"
  | some .invalidDispatch => some "`#` must be followed by `\x7b`, `_` or a tag name"
  | none => some "add a closing `\"`"
  | some .unrecognizedCharacter => none
  | some .invalidCharacterEscape =>
    some "use `\\uXXXX` with four hex digits or `\\oNNN` with three octal digits"

/-- The note that shows a piece of text. -/
def foundNote (text : Text) : Text :=
  "found `".toList ++ Text.escape text ++ "`".toList

/-- The diagnostic for malformed input `text` at `span`. -/
def ofLexError (type : Option ErrorType) (text : Text) (span : Span) : Diagnostic where
  message := messageFor type
  span
  code := some (.ofErrorType type)
  notes := [foundNote text]
  helps := (helpFor type).toList.map String.toList

/-- The diagnostic for malformed input is put together from its code, its span, the note on what was
found and, if there is any, advice. -/
theorem ofLexError_eq_ofParts (type : Option ErrorType) (text : Text) (span : Span) :
    ofLexError type text span =
      ofParts (messageFor type)
        ([.code (.ofErrorType type), .span span, .note (foundNote text)] ++
          (helpFor type).toList.map fun help => .help help.toList) := by
  cases h : helpFor type with
  | none => simp [ofLexError, ofParts, add, h]
  | some help => simp [ofLexError, ofParts, add, h]

end Diagnostic

/-- Diagnostics in the order in which they were emitted. -/
structure Collector where
  held : Array Diagnostic := #[]
  deriving DecidableEq, Repr

namespace Collector

/-- The collector that holds nothing. -/
def empty : Collector := {}

/-- The collector after one more diagnostic. -/
def emit (c : Collector) (d : Diagnostic) : Collector :=
  { held := c.held.push d }

/-- The diagnostics held. -/
def diagnostics (c : Collector) : List Diagnostic :=
  c.held.toList

/-- Number of diagnostics held. -/
def count (c : Collector) : Nat :=
  c.held.size

/-- Whether any diagnostic is held. -/
def hasErrors (c : Collector) : Bool :=
  !c.held.isEmpty

/-- The diagnostics held, and the collector without them. -/
def take (c : Collector) : List Diagnostic × Collector :=
  (c.diagnostics, empty)

/-- At the beginning nothing has been collected. -/
@[simp] theorem diagnostics_empty : empty.diagnostics = [] := rfl

/-- What is emitted comes last. -/
@[simp] theorem diagnostics_emit (c : Collector) (d : Diagnostic) :
    (c.emit d).diagnostics = c.diagnostics ++ [d] := by
  simp [emit, diagnostics]

/-- The count of a collector is that of its diagnostics. -/
@[simp] theorem length_diagnostics (c : Collector) : c.diagnostics.length = c.count :=
  Array.length_toList

/-- There are errors exactly if something has been collected. -/
theorem hasErrors_iff (c : Collector) : c.hasErrors = true ↔ 0 < c.count := by
  simp [hasErrors, count, Nat.pos_iff_ne_zero]

end Collector

end EdnTokens
