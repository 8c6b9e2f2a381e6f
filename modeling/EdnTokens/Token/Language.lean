import EdnTokens.Character
import EdnTokens.Text.Basic
import EdnTokens.Token.Kind

/-!
# Token languages

Which texts a token of a given kind can have, said without reference to any way of reading them.
`TokenKind.Language` collects the languages of the well-formed kinds, and `ErrorType.Language` those
of the types of malformed input.
-/

namespace EdnTokens.Language

open Character

/-! ### Blanks and comments -/

/-- One or more separators. -/
def Whitespace (t : Text) : Prop :=
  t ≠ [] ∧ ∀ c ∈ t, isSeparator c

/-- A semicolon, the rest of its line, and the line feed if the line has one. -/
def Comment (t : Text) : Prop :=
  ∃ body, '\n' ∉ body ∧ (t = ';' :: body ∨ t = ';' :: body ++ ['\n'])

/-! ### Numbers -/

/-- Any number of decimal digits. -/
def Digits (t : Text) : Prop :=
  ∀ c ∈ t, isDigit c

/-- The part of a number before its exponent or radix digits: digits with or without a sign, which
a point and a fraction may follow, or a point and digits. -/
inductive Fixed : Text → Prop
  | whole {sign digits : Text} (hs : sign = [] ∨ sign = ['+'] ∨ sign = ['-']) (hne : digits ≠ [])
    (hd : Digits digits) : Fixed (sign ++ digits)
  | decimal {sign digits fraction : Text} (hs : sign = [] ∨ sign = ['+'] ∨ sign = ['-'])
    (hne : digits ≠ []) (hd : Digits digits) (hf : Digits fraction) :
    Fixed (sign ++ digits ++ '.' :: fraction)
  | fraction {digits : Text} (hne : digits ≠ []) (hd : Digits digits) : Fixed ('.' :: digits)

/-- What may follow that part: nothing, an exponent without a sign, or radix digits. -/
inductive Magnitude : Text → Prop
  | none : Magnitude []
  | exponent {mark : Char} {digits : Text} (hm : mark = 'E' ∨ mark = 'e') (hd : Digits digits) :
    Magnitude (mark :: digits)
  | radix {digits : Text} (hd : ∀ c ∈ digits, isAlphanumeric c) : Magnitude ('r' :: digits)

/-- A number, with or without the mark of an exact decimal. -/
def Number (t : Text) : Prop :=
  ∃ fixed magnitude mark, Fixed fixed ∧ Magnitude magnitude ∧ (mark = [] ∨ mark = ['M']) ∧
    t = fixed ++ magnitude ++ mark

/-! ### Names -/

/-- A character that begins a symbol and characters that continue it, unless a number begins
there. -/
def Word (t : Text) : Prop :=
  ∃ c rest, t = c :: rest ∧ isSymbolStart c ∧ (∀ x ∈ rest, isSymbolRest x) ∧
    ¬ isNumberStart c rest.head?

/-- The words with a meaning of their own. -/
def reserved : List Text :=
  ["nil".toList, "true".toList, "false".toList]

/-- A colon and characters that continue a symbol, but no three colons at the beginning. -/
def Keyword (t : Text) : Prop :=
  ∃ rest, t = ':' :: rest ∧ (∀ x ∈ rest, isSymbolRest x) ∧ ¬ [':', ':'] <+: rest

/-- A number sign, a letter and characters that continue a symbol. -/
def Tag (t : Text) : Prop :=
  ∃ c rest, t = '#' :: c :: rest ∧ isLetter c ∧ ∀ x ∈ rest, isSymbolRest x

/-! ### Strings and characters -/

/-- The inside of a string: a backslash hides the character behind it, and no quote is left
unhidden. -/
inductive StringBody : Text → Prop
  | nil : StringBody []
  | plain {c : Char} {t : Text} (hq : c ≠ '"') (hb : c ≠ '\\') (h : StringBody t) :
    StringBody (c :: t)
  | hidden {c : Char} {t : Text} (h : StringBody t) : StringBody ('\\' :: c :: t)

/-- A string. -/
def StringLiteral (t : Text) : Prop :=
  ∃ body, StringBody body ∧ t = '"' :: body ++ ['"']

/-- A backslash with what it may stand before: nothing, any character, the name of a character, or
the letter of an escape and some of the characters that belong to it. -/
inductive CharacterLiteral : Text → Prop
  | alone : CharacterLiteral ['\\']
  | single (c : Char) : CharacterLiteral ['\\', c]
  | named {name : Text} (h : name ∈ names) : CharacterLiteral ('\\' :: name)
  | unicode {t : Text} (h : t.length ≤ 4) : CharacterLiteral ('\\' :: 'u' :: t)
  | octal {t : Text} (h : t.length ≤ 3) : CharacterLiteral ('\\' :: 'o' :: t)

/-- A Unicode or octal escape that does not have all of its digits. -/
def BrokenEscape (t : Text) : Prop :=
  (∃ u, t = '\\' :: 'u' :: u ∧ u.length ≤ 4 ∧ ¬ (u.length = 4 ∧ ∀ c ∈ u, isHexDigit c)) ∨
    ∃ u, t = '\\' :: 'o' :: u ∧ u.length ≤ 3 ∧ ¬ (u.length = 3 ∧ ∀ c ∈ u, isOctalDigit c)

end EdnTokens.Language

namespace EdnTokens

open Character

/-- The texts that a token of a kind can have. Malformed input has languages of its own. -/
def TokenKind.Language : TokenKind → Text → Prop
  | .whitespace => Language.Whitespace
  | .comment => Language.Comment
  | .number => Language.Number
  | .nilWord => (· = "nil".toList)
  | .trueWord => (· = "true".toList)
  | .falseWord => (· = "false".toList)
  | .symbol => fun t => Language.Word t ∧ t ∉ Language.reserved
  | .keyword => Language.Keyword
  | .string => Language.StringLiteral
  | .character => Language.CharacterLiteral
  | .leftParen => (· = ['('])
  | .rightParen => (· = [')'])
  | .leftBracket => (· = ['['])
  | .rightBracket => (· = [']'])
  | .leftBrace => (· = ['\x7b'])
  | .rightBrace => (· = ['\x7d'])
  | .set => (· = ['#', '\x7b'])
  | .discard => (· = ['#', '_'])
  | .tag => Language.Tag
  | .eof => (· = [])
  | .lexError => fun _ => False

/-- The texts of malformed input of a type; without a type it is a string that is never closed. -/
def ErrorType.Language : Option ErrorType → Text → Prop
  | some .invalidNumberFormat => fun t =>
    ∃ w c, t = w ++ [c] ∧ Language.Number w ∧ isSymbolStart c ∧ ¬ Language.Number t
  | some .invalidKeyword => (· = [':', ':', ':'])
  | some .invalidDispatch => fun t =>
    t = ['#'] ∨ ∃ c rest, t = '#' :: c :: rest ∧ c ≠ '\x7b' ∧ c ≠ '_' ∧ ¬ isLetter c ∧
      ∀ x ∈ c :: rest, ¬ isSeparator x
  | some .unrecognizedCharacter => fun t =>
    ∃ c, t = [c] ∧ ¬ isSeparator c ∧ ¬ isDelimiter c ∧ ¬ isDigit c ∧ ¬ isSymbolStart c ∧
      c ∉ ['"', '\\', ':', ';', '#']
  | some .invalidCharacterEscape => Language.BrokenEscape
  | none => fun t => ∃ body, t = '"' :: body ∧ ¬ ∃ inside rest, Language.StringBody inside ∧
      body = inside ++ '"' :: rest

end EdnTokens
