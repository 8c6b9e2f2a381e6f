import EdnTokens.Text.Numeral

/-!
# JSON documents

The JSON values that a token listing is made of, and their indented form: two blanks for each
level, one item or member on a line, and `[]` or a pair of braces when there is none.
-/

namespace EdnTokens

/-- A JSON value built from texts, natural numbers, arrays and objects. -/
inductive Json
  | number (n : Nat)
  | string (t : Text)
  | array (items : List Json)
  | object (members : List (Text × Json))
  deriving Repr

namespace Json

/-! ### Strings -/

/-- The two hexadecimal digits of a byte. -/
def hexByte (n : Nat) : Text :=
  [Nat.digitChar (n / 16), Nat.digitChar (n % 16)]

/-- The form of a character inside a string: quotes, backslashes and control characters are
escaped, everything else stands for itself. -/
def escapeChar (c : Char) : Text :=
  if c = '"' then "\\\"".toList
  else if c = '\\' then "\\\\".toList
  else if c = '\x08' then "\\b".toList
  else if c = '\x0c' then "\\f".toList
  else if c = '\n' then "\\n".toList
  else if c = '\r' then "\\r".toList
  else if c = '\t' then "\\t".toList
  else if c.toNat < 0x20 then "\\u00".toList ++ hexByte c.toNat
  else [c]

/-- A text as a JSON string. -/
def quote (t : Text) : Text :=
  '"' :: t.flatMap escapeChar ++ ['"']

/-! ### Layout -/

/-- A line break and the blanks before the next item at some depth. -/
def newline (depth : Nat) : Text :=
  '\n' :: List.replicate (2 * depth) ' '

mutual

/-- The indented form of a value that stands at some depth. -/
def pretty (depth : Nat) : Json → Text
  | number n => Text.ofNat n
  | string t => quote t
  | array [] => "[]".toList
  | array (item :: items) =>
    '[' :: newline (depth + 1) ++ pretty (depth + 1) item ++ prettyItems depth items ++
      newline depth ++ [']']
  | object [] => "\x7b\x7d".toList
  | object ((key, value) :: members) =>
    '\x7b' :: newline (depth + 1) ++ quote key ++ ": ".toList ++ pretty (depth + 1) value ++
      prettyMembers depth members ++ newline depth ++ ['\x7d']

/-- The items behind the first one. -/
def prettyItems (depth : Nat) : List Json → Text
  | [] => []
  | item :: items =>
    ',' :: newline (depth + 1) ++ pretty (depth + 1) item ++ prettyItems depth items

/-- The members behind the first one. -/
def prettyMembers (depth : Nat) : List (Text × Json) → Text
  | [] => []
  | (key, value) :: members =>
    ',' :: newline (depth + 1) ++ quote key ++ ": ".toList ++ pretty (depth + 1) value ++
      prettyMembers depth members

end

/-- A document: the indented form of a value. -/
def render (j : Json) : Text :=
  pretty 0 j

end Json

end EdnTokens
