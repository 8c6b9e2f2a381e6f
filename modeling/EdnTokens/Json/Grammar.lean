import EdnTokens.Json.Basic

/-!
# The grammar of JSON

Which texts stand for which value, said without reference to any way of writing or reading them.
The rules are those of JSON for the values of `Json`: blanks may stand around every part, and a
character of a string may be written in several ways. `Form t v` says that the text `t`, from its
first character to its last, stands for the value `v`; a document may have blanks around that.
-/

namespace EdnTokens.Json

open Text (digitValue valueIn)

/-- Any number of blanks. -/
def Blanks (t : Text) : Prop :=
  ∀ c ∈ t, c ∈ [' ', '\t', '\n', '\r']

instance (t : Text) : Decidable (Blanks t) :=
  List.decidableBAll (· ∈ [' ', '\t', '\n', '\r']) t

/-! ### Strings -/

/-- The letters of the short escapes, with the characters they stand for. -/
def escapeLetters : List (Char × Char) :=
  [('"', '"'), ('\\', '\\'), ('/', '/'), ('b', '\x08'), ('f', '\x0c'), ('n', '\n'), ('r', '\r'),
    ('t', '\t')]

/-- Four hexadecimal digits that denote a code unit. -/
structure CodeUnit (t : Text) (n : Nat) : Prop where
  length_eq : t.length = 4
  digits : ∀ c ∈ t, digitValue c < 16
  value_eq : valueIn 16 t = n

/-- The ways to write a character inside a string: as it is unless it is a quote, a backslash or a
control character, as a short escape, or by its code point, which beyond the first plane takes a
pair of surrogates. -/
inductive CharForm : Text → Char → Prop
  | plain {c : Char} (hq : c ≠ '"') (hb : c ≠ '\\') (hc : 0x20 ≤ c.toNat) : CharForm [c] c
  | letter {l c : Char} (h : (l, c) ∈ escapeLetters) : CharForm ['\\', l] c
  | codePoint {t : Text} {c : Char} (h : CodeUnit t c.toNat) : CharForm ('\\' :: 'u' :: t) c
  | surrogates {s t : Text} {high low : Nat} {c : Char} (hs : CodeUnit s high) (ht : CodeUnit t low)
    (hhigh : 0xD800 ≤ high ∧ high < 0xDC00) (hlow : 0xDC00 ≤ low ∧ low < 0xE000)
    (hc : c.toNat = 0x10000 + (high - 0xD800) * 0x400 + (low - 0xDC00)) :
    CharForm ('\\' :: 'u' :: s ++ '\\' :: 'u' :: t) c

/-- The ways to write a text between quotes. -/
inductive StringForm : Text → Text → Prop
  | nil : StringForm [] []
  | cons {s t : Text} {c : Char} {cs : Text} (hc : CharForm s c) (h : StringForm t cs) :
    StringForm (s ++ t) (c :: cs)

/-! ### Values -/

/-- The decimal numeral of a number, without superfluous zeros. -/
structure NumberForm (t : Text) (n : Nat) : Prop where
  ne_nil : t ≠ []
  digits : ∀ c ∈ t, c.isDigit = true
  zero : t.head? = some '0' → t = ['0']
  value_eq : valueIn 10 t = n

/-- One or more parts with commas between them, and blanks around each part. -/
inductive SeqForm {α : Type} (form : Text → α → Prop) : Text → List α → Prop
  | single {a t b : Text} {x : α} (ha : Blanks a) (h : form t x) (hb : Blanks b) :
    SeqForm form (a ++ t ++ b) [x]
  | cons {a t b u : Text} {x : α} {xs : List α} (ha : Blanks a) (h : form t x) (hb : Blanks b)
    (hs : SeqForm form u xs) : SeqForm form (a ++ t ++ b ++ ',' :: u) (x :: xs)

/-- A member of an object: a key between quotes, a colon and a value. -/
inductive MemberForm (form : Text → Json → Prop) : Text → Text × Json → Prop
  | mk {s a b t key : Text} {value : Json} (hs : StringForm s key) (ha : Blanks a) (hb : Blanks b)
    (h : form t value) : MemberForm form ('"' :: s ++ '"' :: a ++ ':' :: b ++ t) (key, value)

/-- The ways to write a value. -/
inductive Form : Text → Json → Prop
  | number {t : Text} {n : Nat} (h : NumberForm t n) : Form t (.number n)
  | string {t s : Text} (h : StringForm t s) : Form ('"' :: t ++ ['"']) (.string s)
  | emptyArray {a : Text} (h : Blanks a) : Form ('[' :: a ++ [']']) (.array [])
  | array {t : Text} {items : List Json} (h : SeqForm Form t items) :
    Form ('[' :: t ++ [']']) (.array items)
  | emptyObject {a : Text} (h : Blanks a) : Form ('\x7b' :: a ++ ['\x7d']) (.object [])
  | object {t : Text} {members : List (Text × Json)} (h : SeqForm (MemberForm Form) t members) :
    Form ('\x7b' :: t ++ ['\x7d']) (.object members)

/-- A document: a value with blanks around it. -/
def Document (t : Text) (v : Json) : Prop :=
  ∃ a u b, t = a ++ u ++ b ∧ Blanks a ∧ Form u v ∧ Blanks b

end EdnTokens.Json
