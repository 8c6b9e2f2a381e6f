import EdnTokens.Character
import EdnTokens.Lexer.Extent
import EdnTokens.Token.Kind

/-!
# Scanners

A scanner looks at the text ahead and decides how much of it to take and what that is. There are
eight of them, one for each family of tokens; `Scan.next` picks one by the next character or two.

Nothing here depends on what was read before. The one decision that needs the whole text of the
token, whether a word is reserved, is left open by the verdict `word`.
-/

namespace EdnTokens

/-- What a scanner makes of the characters it takes. -/
inductive Verdict
  /-- A token of a fixed kind. -/
  | token (kind : TokenKind)
  /-- A symbol, or a reserved word if the text of the token is one. -/
  | word
  /-- Malformed input. -/
  | error (type : Option ErrorType)
  deriving DecidableEq, Repr

/-- How many characters a scanner takes, and what it makes of them. -/
structure Scan where
  width : Nat
  verdict : Verdict
  deriving DecidableEq, Repr

/-- The families of tokens that have a scanner. -/
inductive Scanner
  | whitespace
  | number
  | symbol
  | string
  | character
  | keyword
  | comment
  | dispatch
  deriving DecidableEq, Repr

namespace Scan

open Character

/-! ### Blanks and comments -/

/-- A run of separators. -/
def whitespace (t : Text) : Scan :=
  ⟨Extent.run isSeparator t, .token .whitespace⟩

/-- The rest of the line with the line feed that ends it. -/
def comment (t : Text) : Scan :=
  ⟨Extent.followedBy (.run (· != '\n')) (.option (· == '\n')) t, .token .comment⟩

/-! ### Numbers -/

/-- A run of decimal digits. -/
def digits : Extent :=
  .run isDigit

/-- An exponent without a sign, or the digits of a number with a radix. -/
def magnitude : Extent
  | 'r' :: t => Extent.run isAlphanumeric t + 1
  | t => Extent.after (fun c => c == 'E' || c == 'e') digits t

/-- A number: a sign, digits, a fraction, an exponent or radix digits and the mark of an exact
decimal, each of them optional. -/
def numeral : Extent :=
  .followedBy (.option fun c => c == '+' || c == '-') <|
  .followedBy digits <|
  .followedBy (.after (· == '.') digits) <|
  .followedBy magnitude (.option (· == 'M'))

/-- A number. A letter or symbol punctuation right behind it makes it malformed, and the malformed
token takes that one character as well. -/
def number (t : Text) : Scan :=
  let width := numeral t
  if (t.drop width).head?.any isSymbolStart then
    ⟨width + 1, .error (some .invalidNumberFormat)⟩
  else
    ⟨width, .token .number⟩

/-! ### Names -/

/-- One character of any sort, then characters that continue a symbol. -/
def symbol (t : Text) : Scan :=
  ⟨Extent.followedBy (.upTo 1) (.run isSymbolRest) t, .word⟩

/-- One character of any sort and one colon if there is one, then characters that continue a
symbol. Another colon makes the token malformed and ends it. -/
def keyword (t : Text) : Scan :=
  let width := Extent.followedBy (.upTo 1) (.option (· == ':')) t
  if (t.drop width).head? = some ':' then
    ⟨width + 1, .error (some .invalidKeyword)⟩
  else
    ⟨width + Extent.run isSymbolRest (t.drop width), .token .keyword⟩

/-- One character of any sort, then what selects the form: an opening brace, an underscore or the
name of a tag. Anything else is malformed up to the next separator. -/
def dispatch (t : Text) : Scan :=
  let width := Extent.upTo 1 t
  match t.drop width with
  | [] => ⟨width, .error (some .invalidDispatch)⟩
  | c :: rest =>
    if c = '\x7b' then ⟨width + 1, .token .set⟩
    else if c = '_' then ⟨width + 1, .token .discard⟩
    else if isLetter c then ⟨width + 1 + Extent.run isSymbolRest rest, .token .tag⟩
    else
      ⟨width + Extent.run (fun c => !isSeparator c) (c :: rest), .error (some .invalidDispatch)⟩

/-! ### Strings and characters -/

/-- Where a string literal ends: `taken` plus the number of characters up to the first double quote
that no backslash hides. A backslash hides exactly the next character. -/
def closing? (taken : Nat) : Text → Option Nat
  | [] => none
  | '"' :: _ => some (taken + 1)
  | ['\\'] => none
  | '\\' :: _ :: t => closing? (taken + 2) t
  | _ :: t => closing? (taken + 1) t

/-- One character of any sort, then everything up to the closing quote. Without one the token is
malformed, has no error type and takes the whole text. -/
def string (t : Text) : Scan :=
  match closing? 0 (t.drop 1) with
  | some n => ⟨n + 1, .token .string⟩
  | none => ⟨t.length, .error none⟩

/-- The letter of an escape and the `count` characters behind it. With strict escapes they must
all be there and be digits. -/
def characterEscape (strict : Bool) (count : Nat) (isDigit : Char → Bool) (t : Text) : Scan :=
  let found := t.take count
  ⟨found.length + 2,
    if strict && !(found.length == count && found.all isDigit) then
      .error (some .invalidCharacterEscape)
    else .token .character⟩

/-- One character of any sort, then a character name, a Unicode or octal escape, or any single
character. -/
def character (strict : Bool) (t : Text) : Scan :=
  match names.find? (·.isPrefixOf (t.drop 1)) with
  | some name => ⟨name.length + 1, .token .character⟩
  | none =>
    match t.drop 1 with
    | 'u' :: rest => characterEscape strict 4 isHexDigit rest
    | 'o' :: rest => characterEscape strict 3 isOctalDigit rest
    | _ => ⟨Extent.upTo 2 t, .token .character⟩

/-! ### The next token -/

/-- What the scanner of a family makes of the text ahead. -/
def ofFamily (strict : Bool) : Scanner → Text → Scan
  | .whitespace => whitespace
  | .number => number
  | .symbol => symbol
  | .string => string
  | .character => character strict
  | .keyword => keyword
  | .comment => comment
  | .dispatch => dispatch

/-- The scanner for a token that begins with `c` before `rest`, except that delimiters and
characters that begin no token need none. -/
def scannerFor? (c : Char) (rest : Text) : Option Scanner :=
  if isSeparator c then some .whitespace
  else if isDelimiter c then none
  else if isNumberStart c rest.head? then some .number
  else if isSymbolStart c then some .symbol
  else if c = '"' then some .string
  else if c = '\\' then some .character
  else if c = ':' then some .keyword
  else if c = ';' then some .comment
  else if c = '#' then some .dispatch
  else none

/-- The next token of a text. -/
def next (strict : Bool) : Text → Scan
  | [] => ⟨0, .token .eof⟩
  | c :: rest =>
    match scannerFor? c rest with
    | some scanner => ofFamily strict scanner (c :: rest)
    | none =>
      match TokenKind.ofDelimiter? c with
      | some kind => ⟨1, .token kind⟩
      | none => ⟨1, .error (some .unrecognizedCharacter)⟩

end Scan

end EdnTokens
