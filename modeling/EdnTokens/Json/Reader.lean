import EdnTokens.Json.Basic

/-!
# Reading JSON

`parse?` reads a document with any blanks between its parts and any of the escapes that a string may
hold. Values other than texts, natural numbers, arrays and objects are refused.
-/

namespace EdnTokens.Json

open Text (digitValue valueIn charOfCodePoint?)

/-- Takes a value off the front of a text, if there is one. -/
abbrev Reader (α : Type) := Text → Option (α × Text)

/-- The blanks between the parts of a document. -/
def isBlank (c : Char) : Bool :=
  c == ' ' || c == '\t' || c == '\n' || c == '\r'

/-- Leaves out blanks. -/
def skipBlanks (t : Text) : Text :=
  t.dropWhile isBlank

/-! ### Strings -/

/-- The character that a letter behind a backslash stands for. -/
def unescapeLetter? (c : Char) : Option Char :=
  if c = '"' then some '"'
  else if c = '\\' then some '\\'
  else if c = '/' then some '/'
  else if c = 'b' then some '\x08'
  else if c = 'f' then some '\x0c'
  else if c = 'n' then some '\n'
  else if c = 'r' then some '\r'
  else if c = 't' then some '\t'
  else none

/-- Reads the four digits of a code unit. -/
def readUnit (t : Text) : Option (Nat × Text) :=
  let digits := t.take 4
  if digits.length = 4 ∧ digits.all (digitValue · < 16) then some (valueIn 16 digits, t.drop 4)
  else none

/-- The code point of a pair of surrogates. -/
def joinSurrogates (high low : Nat) : Nat :=
  0x10000 + (high - 0xD800) * 0x400 + (low - 0xDC00)

/-- Reads the digits of a code point escape, and the second escape of a pair of surrogates. -/
def readCodePoint (t : Text) : Option (Char × Text) :=
  match readUnit t with
  | none => none
  | some (unit, t) =>
    if 0xD800 ≤ unit ∧ unit < 0xDC00 then
      match t with
      | '\\' :: 'u' :: t =>
        match readUnit t with
        | none => none
        | some (low, t) =>
          if 0xDC00 ≤ low ∧ low < 0xE000 then
            (charOfCodePoint? (joinSurrogates unit low)).map fun c => (c, t)
          else none
      | _ => none
    else (charOfCodePoint? unit).map fun c => (c, t)

/-- Reads one character of a string, other than the quote that ends it. -/
def readChar : Reader Char
  | [] => none
  | ['\\'] => none
  | '\\' :: 'u' :: t => readCodePoint t
  | '\\' :: c :: t => (unescapeLetter? c).map fun c => (c, t)
  | c :: t => if c = '"' ∨ c.toNat < 0x20 then none else some (c, t)

/-- Reading a code unit leaves no more than there was. -/
theorem readUnit_le {t : Text} {n : Nat} {rest : Text} (h : readUnit t = some (n, rest)) :
    rest.length ≤ t.length := by
  simp only [readUnit] at h
  split at h
  · cases h
    simp
  · cases h

/-- Reading an escaped code point, which may take two units, leaves no more than there was. -/
theorem readCodePoint_le {t : Text} {c : Char} {rest : Text}
    (h : readCodePoint t = some (c, rest)) : rest.length ≤ t.length := by
  unfold readCodePoint at h
  split at h
  · cases h
  · rename_i hunit
    have hle := readUnit_le hunit
    split at h
    · split at h
      · split at h
        · cases h
        · rename_i hlow
          have hle' := readUnit_le hlow
          split at h
          · obtain ⟨x, -, hx⟩ := Option.map_eq_some_iff.1 h
            cases hx
            simp only [List.length_cons] at hle
            omega
          · cases h
      · cases h
    · obtain ⟨x, -, hx⟩ := Option.map_eq_some_iff.1 h
      cases hx
      exact hle

/-- What is left after a character is shorter than before. -/
theorem readChar_lt {t : Text} {c : Char} {rest : Text} (h : readChar t = some (c, rest)) :
    rest.length < t.length := by
  unfold readChar at h
  split at h
  · cases h
  · cases h
  · have hle := readCodePoint_le h
    simp only [List.length_cons]
    omega
  · obtain ⟨x, -, hx⟩ := Option.map_eq_some_iff.1 h
    cases hx
    simp only [List.length_cons]
    omega
  · split at h
    · cases h
    · cases h
      simp

/-- Reads the quote that ends a string. -/
def readQuote : Text → Option (Text × Text)
  | '"' :: rest => some ([], rest)
  | _ => none

/-- Reads the characters of a string and the quote that ends it. -/
def readString (t : Text) : Option (Text × Text) :=
  match _h : readChar t with
  | some (c, rest) => (readString rest).map fun (cs, rest) => (c :: cs, rest)
  | none => readQuote t
termination_by t.length
decreasing_by exact readChar_lt _h

/-! ### Values -/

/-- Reads a natural number without superfluous zeros. -/
def readNumber (t : Text) : Option (Json × Text) :=
  let digits := t.takeWhile Char.isDigit
  if digits = [] ∨ digits.head? = some '0' ∧ digits.length ≠ 1 then none
  else some (.number (valueIn 10 digits), t.dropWhile Char.isDigit)

/-- Reads parts with commas between them and the character that closes them, at least one and at
most `fuel` parts. -/
def readSeq {α : Type} (close : Char) (part : Reader α) : Nat → Reader (List α)
  | 0, _ => none
  | fuel + 1, t =>
    match part t with
    | none => none
    | some (x, t) =>
      match skipBlanks t with
      | [] => none
      | c :: t =>
        if c = close then some ([x], t)
        else if c = ',' then (readSeq close part fuel t).map fun (xs, t) => (x :: xs, t)
        else none

/-- Reads any number of parts and the character that closes them. -/
def readParts {α : Type} (close : Char) (part : Reader α) (t : Text) : Option (List α × Text) :=
  match skipBlanks t with
  | [] => none
  | c :: t => if c = close then some ([], t) else readSeq close part (t.length + 1) (c :: t)

/-- Reads a member of an object. -/
def readMember (item : Reader Json) (t : Text) : Option ((Text × Json) × Text) :=
  match skipBlanks t with
  | '"' :: t =>
    match readString t with
    | none => none
    | some (key, t) =>
      match skipBlanks t with
      | ':' :: t => (item t).map fun (value, t) => ((key, value), t)
      | _ => none
  | _ => none

/-- Reads a value in which arrays and objects nest less than `depth` deep. -/
def readValue : Nat → Reader Json
  | 0, _ => none
  | depth + 1, t =>
    match skipBlanks t with
    | '"' :: t => (readString t).map fun (s, t) => (.string s, t)
    | '[' :: t => (readParts ']' (readValue depth) t).map fun (items, t) => (.array items, t)
    | '\x7b' :: t =>
      (readParts '\x7d' (readMember (readValue depth)) t).map fun (ms, t) => (.object ms, t)
    | t => readNumber t

/-- The value of a document. -/
def parse? (t : Text) : Option Json :=
  match readValue (t.length + 1) t with
  | some (value, rest) => if skipBlanks rest = [] then some value else none
  | none => none

end EdnTokens.Json
