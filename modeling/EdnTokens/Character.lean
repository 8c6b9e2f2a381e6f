/-!
# Character classes

The classes on which the token grammar of EDN is built. All of them contain ASCII characters only,
so a character outside ASCII can occur inside strings, comments and character literals but never
begins or continues a name.
-/

namespace EdnTokens.Character

/-- Separators: blanks, line ends and the comma, which EDN reads as a blank. -/
def isSeparator (c : Char) : Bool :=
  c == ' ' || c == '\t' || c == '\n' || c == '\r' || c == ','

/-- The punctuation that may begin a symbol. -/
def symbolPunctuation : List Char :=
  ['.', '*', '+', '!', '-', '_', '?', '$', '%', '&', '=', '<', '>', '/']

/-- Membership in `symbolPunctuation`. -/
def isPunctuation (c : Char) : Bool :=
  symbolPunctuation.contains c

/-- Letters of the ASCII alphabet. -/
def isLetter (c : Char) : Bool :=
  c.isAlpha

/-- Decimal digits. -/
def isDigit (c : Char) : Bool :=
  c.isDigit

/-- Letters and decimal digits: the digits of a number with a radix. -/
def isAlphanumeric (c : Char) : Bool :=
  isLetter c || isDigit c

/-- Octal digits. -/
def isOctalDigit (c : Char) : Bool :=
  '0' ≤ c && c ≤ '7'

/-- Hexadecimal digits in either case. -/
def isHexDigit (c : Char) : Bool :=
  isDigit c || ('a' ≤ c && c ≤ 'f') || ('A' ≤ c && c ≤ 'F')

/-- Characters that may begin a symbol. -/
def isSymbolStart (c : Char) : Bool :=
  isLetter c || isPunctuation c

/-- Characters that may continue a symbol, a keyword or a tag. -/
def isSymbolRest (c : Char) : Bool :=
  isSymbolStart c || isDigit c || c == ':' || c == '#'

/-- The brackets, braces and parentheses. -/
def isDelimiter (c : Char) : Bool :=
  c == '(' || c == ')' || c == '[' || c == ']' || c == '\x7b' || c == '\x7d'

/-- Whether a number begins at `c`: at a digit, or at a sign or point that a digit follows. -/
def isNumberStart (c : Char) (next : Option Char) : Bool :=
  isDigit c || ((c == '-' || c == '+' || c == '.') && next.any isDigit)

/-- Names that stand for a character after a backslash. -/
def names : List (List Char) :=
  ["newline".toList, "return".toList, "space".toList, "tab".toList]

end EdnTokens.Character
