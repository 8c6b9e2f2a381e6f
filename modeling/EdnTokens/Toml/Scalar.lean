import EdnTokens.Text.Numeral
import EdnTokens.Toml.Table

/-!
# Bare scalars

Booleans, numbers and date-times are written without quotes. Each of them is a run of letters,
digits and the signs `+ - _ . :`, and what follows such a value is never one of these characters;
so the run is cut out first and then read as a whole.
-/

namespace EdnTokens.Toml

open Text (digitValue)

/-- The characters of a bare scalar. -/
def isScalarChar (c : Char) : Bool :=
  c.isAlphanum || c == '+' || c == '-' || c == '_' || c == '.' || c == ':'

/-! ### Integers -/

/-- Whether a text consists of digits in a base, with single underscores between digits at most. -/
def isDigits (base : Nat) : Text → Bool
  | [] => false
  | [c] => digitValue c < base
  | c :: '_' :: t => digitValue c < base && isDigits base t
  | c :: t => digitValue c < base && isDigits base t

/-- The number that digits denote, underscores left out. -/
def digitsValue (base : Nat) (t : Text) : Nat :=
  Text.valueIn base (t.filter (· != '_'))

/-- Whether a text is a decimal number without superfluous zeros at its beginning. -/
def isDecimal (t : Text) : Bool :=
  isDigits 10 t && (t.head? != some '0' || t.length == 1)

/-- Splits off a sign; the first part tells whether it is a minus. -/
def splitSign : Text → Bool × Text
  | '-' :: t => (true, t)
  | '+' :: t => (false, t)
  | t => (false, t)

/-- The first number that is too large for a signed 64-bit word. -/
def integerLimit : Nat :=
  Nat.pow 2 63

/-- The value of digits with a base prefix; it must fit into 63 bits. -/
def basedInteger? (base : Nat) (digits : Text) : Option Int :=
  if isDigits base digits && digitsValue base digits < integerLimit then
    some (digitsValue base digits)
  else none

/-- A decimal integer, which must fit into a signed 64-bit word. -/
def decimalInteger? (t : Text) : Option Int :=
  let (negative, digits) := splitSign t
  let n := digitsValue 10 digits
  if !isDecimal digits then none
  else if negative then if n ≤ integerLimit then some (-(n : Int)) else none
  else if n < integerLimit then some n else none

/-- An integer. Hexadecimal, octal and binary integers have no sign. -/
def integer? : Text → Option Int
  | '0' :: 'x' :: digits => basedInteger? 16 digits
  | '0' :: 'o' :: digits => basedInteger? 8 digits
  | '0' :: 'b' :: digits => basedInteger? 2 digits
  | t => decimalInteger? t

/-! ### Floats -/

/-- Whether a text is an exponent behind its mark: digits with or without a sign. -/
def isExponent (t : Text) : Bool :=
  isDigits 10 (splitSign t).2

/-- The value of an exponent. -/
def exponentValue (t : Text) : Int :=
  let (negative, digits) := splitSign t
  let n : Int := digitsValue 10 digits
  if negative then -n else n

/-- A decimal fraction as digits and a power of ten. -/
structure Decimal where
  digits : Nat
  exponent : Int
  deriving DecidableEq, Repr

/-- Whether a decimal is too large for a double: it is at least as large as the midpoint between the
largest double and the next power of two. -/
def Decimal.overflows (d : Decimal) : Bool :=
  let size : Int := (Nat.toDigits 10 d.digits).length + d.exponent
  if d.digits = 0 || size < 300 then false
  else if 400 < size then true
  else
    let bound := Nat.pow 2 1024 - Nat.pow 2 970
    if 0 ≤ d.exponent then bound ≤ d.digits * Nat.pow 10 d.exponent.toNat
    else bound * Nat.pow 10 (-d.exponent).toNat ≤ d.digits

/-- The digits and the power of ten of a float without sign: a decimal number, then a fraction, an
exponent or both. -/
def decimal? (t : Text) : Option Decimal :=
  let isPart (c : Char) : Bool := c.isDigit || c == '_'
  let whole := t.takeWhile isPart
  if !isDecimal whole then none
  else
    match t.dropWhile isPart with
    | '.' :: rest =>
      let fraction := rest.takeWhile isPart
      let places := (fraction.filter (· != '_')).length
      let digits := digitsValue 10 (whole ++ fraction)
      if !isDigits 10 fraction then none
      else
        match rest.dropWhile isPart with
        | [] => some ⟨digits, -places⟩
        | c :: rest =>
          if (c == 'e' || c == 'E') && isExponent rest then
            some ⟨digits, exponentValue rest - places⟩
          else none
    | c :: rest =>
      if (c == 'e' || c == 'E') && isExponent rest then
        some ⟨digitsValue 10 whole, exponentValue rest⟩
      else none
    | [] => none

/-- Whether a text is a float. A positive number that is too large for a double is none; a negative
one counts as minus infinity. -/
def isFloat (t : Text) : Bool :=
  let (negative, rest) := splitSign t
  rest == "inf".toList || rest == "nan".toList ||
    (decimal? rest).any fun d => negative || !d.overflows

/-! ### Date-times -/

/-- Number of days of a month. -/
def daysInMonth (year month : Nat) : Nat :=
  if month == 2 then
    if year % 4 == 0 && (year % 100 != 0 || year % 400 == 0) then 29 else 28
  else if month == 4 || month == 6 || month == 9 || month == 11 then 30
  else 31

/-- The value of two digits. -/
def twoDigits? (a b : Char) : Option Nat :=
  if a.isDigit && b.isDigit then some (digitValue a * 10 + digitValue b) else none

/-- Whether two digits denote a number in a range. -/
def inRange (a b : Char) (lo hi : Nat) : Bool :=
  (twoDigits? a b).any fun n => lo ≤ n && n ≤ hi

/-- Splits off a date. -/
def date? : Text → Option Text
  | y₁ :: y₂ :: y₃ :: y₄ :: '-' :: m₁ :: m₂ :: '-' :: d₁ :: d₂ :: rest => do
    let century ← twoDigits? y₁ y₂
    let year ← twoDigits? y₃ y₄
    let month ← twoDigits? m₁ m₂
    if 1 ≤ month && month ≤ 12 && inRange d₁ d₂ 1 (daysInMonth (century * 100 + year) month) then
      some rest
    else none
  | _ => none

/-- Splits off the fraction of a second, if there is one. -/
def secondFraction? : Text → Option Text
  | '.' :: rest =>
    if (rest.takeWhile Char.isDigit).isEmpty then none else some (rest.dropWhile Char.isDigit)
  | t => some t

/-- Splits off a time of day. A leap second is a second. -/
def time? : Text → Option Text
  | h₁ :: h₂ :: ':' :: m₁ :: m₂ :: ':' :: s₁ :: s₂ :: rest =>
    if inRange h₁ h₂ 0 23 && inRange m₁ m₂ 0 59 && inRange s₁ s₂ 0 60 then secondFraction? rest
    else none
  | _ => none

/-- Whether a text is empty or an offset from universal time. -/
def isOffset : Text → Bool
  | [] => true
  | ['Z'] | ['z'] => true
  | [sign, h₁, h₂, ':', m₁, m₂] =>
    (sign == '+' || sign == '-') && inRange h₁ h₂ 0 23 && inRange m₁ m₂ 0 59
  | _ => false

/-- Whether a text is a time of day that may stand behind a date. -/
def isZonedTime (t : Text) : Bool :=
  (time? t).any isOffset

/-- Whether a text is a date. -/
def isDate (t : Text) : Bool :=
  date? t == some []

/-- Whether a text is a date, a time of day, or both with a letter between them. -/
def isDateTime (t : Text) : Bool :=
  time? t == some [] ||
    match date? t with
    | none => false
    | some [] => true
    | some (c :: rest) => (c == 'T' || c == 't') && isZonedTime rest

/-! ### All scalars -/

/-- The value of a bare scalar. -/
def scalar? (t : Text) : Option Node :=
  if t = "true".toList then some (.boolean true)
  else if t = "false".toList then some (.boolean false)
  else
    match integer? t with
    | some n => some (.integer n)
    | none =>
      if isFloat t then some .float
      else if isDateTime t then some .dateTime
      else none

/-- Reads a bare scalar at the beginning of a text. A blank may stand between a date and a time. -/
def readScalar (t : Text) : Option (Node × Text) :=
  let run := t.takeWhile isScalarChar
  let rest := t.dropWhile isScalarChar
  match scalar? run with
  | none => none
  | some value =>
    match isDate run, rest with
    | true, ' ' :: more =>
      if isZonedTime (more.takeWhile isScalarChar) then
        some (value, more.dropWhile isScalarChar)
      else some (value, rest)
    | _, _ => some (value, rest)

end EdnTokens.Toml
