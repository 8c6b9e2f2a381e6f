import EdnTokens.Text.Numeral
import EdnTokens.Text.Printable

/-!
# Escaped texts

One-line forms of a text. Control characters, backslashes and quotes are written as backslash
escapes, and characters that cannot be shown as their code point in hexadecimal.

Two forms are in use. `escape` writes a text for insertion between quotes of either sort and hides
a combining character only at its beginning, where there is nothing to combine with. `quoted`
puts the double quotes around the text itself, so it leaves single quotes alone, and hides
combining characters everywhere.
-/

namespace EdnTokens.Text

/-- Which of the optional escapes apply to a character. -/
structure EscapeStyle where
  singleQuotes : Bool
  extenders : Bool
  deriving DecidableEq, Repr

/-- The code point escape of a character. -/
def codePointEscape (c : Char) : Text :=
  "\\u\x7b".toList ++ Nat.toDigits 16 c.toNat ++ "\x7d".toList

/-- The form of one character. -/
def escapeChar (style : EscapeStyle) (c : Char) : Text :=
  if c = '\x00' then "\\0".toList
  else if c = '\t' then "\\t".toList
  else if c = '\r' then "\\r".toList
  else if c = '\n' then "\\n".toList
  else if c = '\\' then "\\\\".toList
  else if c = '"' then "\\\"".toList
  else if c = '\x27' ∧ style.singleQuotes then "\\\x27".toList
  else if style.extenders ∧ isExtender c then codePointEscape c
  else if isPrintable c then [c]
  else codePointEscape c

/-- Style of the first character of an escaped text. -/
def leadingStyle : EscapeStyle := ⟨true, true⟩

/-- Style of the other characters of an escaped text. -/
def innerStyle : EscapeStyle := ⟨true, false⟩

/-- Style of the characters of a quoted text. -/
def quotedStyle : EscapeStyle := ⟨false, true⟩

/-- A text on one line, to stand between quotes of either sort. -/
def escape : Text → Text
  | [] => []
  | c :: t => escapeChar leadingStyle c ++ t.flatMap (escapeChar innerStyle)

/-- A text on one line between double quotes. -/
def quoted (t : Text) : Text :=
  '"' :: t.flatMap (escapeChar quotedStyle) ++ ['"']

end EdnTokens.Text
