import Mathlib.Tactic.Common
import EdnTokens.Toml.Reader

/-!
# Reading plain documents

In a plain document every line is empty, a header, or an assignment of a scalar to a bare key with
one blank on either side of the equals sign. Such a document is read line by line. What a line is
read as does not depend on the lines behind it, and the bound on the number of lines never bites,
since each of them has a character of its own. So the statements of a document are found by the
lemmas of its lines: `ReadsAs.nil`, `ReadsAs.blank`, `ReadsAs.header` and `ReadsAs.assignment`.

A scalar can stand in an assignment if it is read as a value up to the end of the line (`Denotes`).
Truth values can, quoted texts without escapes (`denotes_quoted`), and the numerals of the numbers
that fit into a document (`denotes_ofNat`).
-/

namespace EdnTokens.Toml

open Text (digitValue)

/-- Characters differ if one is of a sort and the other is not. -/
lemma ne_of_sort {sort : Char → Bool} {c d : Char} (hc : sort c = true) (hd : sort d = false) :
    c ≠ d := by
  rintro rfl
  rw [hc] at hd
  cases hd

/-! ### Bare keys -/

/-- A key that is written as it is. -/
def IsBareKey (key : Text) : Prop :=
  key ≠ [] ∧ ∀ c ∈ key, isKeyChar c = true

instance (key : Text) : Decidable (IsBareKey key) :=
  decidable_of_iff (key ≠ [] ∧ key.all isKeyChar = true) (and_congr_right' List.all_eq_true)

/-- A bare key begins with a character of bare keys. -/
lemma IsBareKey.exists_eq_cons {key : Text} (h : IsBareKey key) :
    ∃ c rest, key = c :: rest ∧ isKeyChar c = true := by
  obtain ⟨c, rest, rfl⟩ := List.exists_cons_of_ne_nil h.1
  exact ⟨c, rest, rfl, h.2 c List.mem_cons_self⟩

/-- Nothing is skipped where no blank stands. -/
lemma skipBlanks_of_head? {t : Text} (h : ∀ c, t.head? = some c → isBlank c = false) :
    skipBlanks t = t := by
  cases t with
  | nil => rfl
  | cons c t => simp [skipBlanks, h c rfl]

/-- No blank belongs to a bare key. -/
lemma isBlank_of_isKeyChar {c : Char} (h : isKeyChar c = true) : isBlank c = false := by
  have hspace : c ≠ ' ' := ne_of_sort h rfl
  have htab : c ≠ '\t' := ne_of_sort h rfl
  simp [isBlank, hspace, htab]

/-- A line that begins with a key is not over yet. -/
lemma endOfLine?_of_isKeyChar {c : Char} (h : isKeyChar c = true) (t : Text) :
    endOfLine? (c :: t) = none := by
  have hblank : skipBlanks (c :: t) = c :: t :=
    skipBlanks_of_head? fun _ hc => Option.some.inj hc ▸ isBlank_of_isKeyChar h
  have hcomment : skipComment (c :: t) = c :: t := by
    unfold skipComment
    split
    case h_1 heq => exact absurd (List.cons.inj heq).1 (ne_of_sort h rfl)
    case h_2 => rfl
  rw [endOfLine?, hblank, hcomment]
  change lineBreak? (c :: t) = none
  unfold lineBreak?
  split
  case h_1 heq => exact absurd (List.cons.inj heq).1 (ne_of_sort h rfl)
  case h_2 heq => exact absurd (List.cons.inj heq).1 (ne_of_sort h rfl)
  case h_3 => rfl

/-- A bare key is read as one part, together with the blanks behind it. -/
lemma readFullKey_append {key rest : Text} (hkey : IsBareKey key)
    (hrest : ∀ c, rest.head? = some c → isKeyChar c = false)
    (hdot : (skipBlanks rest).head? ≠ some '.') :
    readFullKey (key ++ rest) = some (([], key), skipBlanks rest) := by
  obtain ⟨c, name, hcons, hc⟩ := hkey.exists_eq_cons
  have hblank : skipBlanks (key ++ rest) = key ++ rest := by
    rw [hcons]
    exact skipBlanks_of_head? fun _ hd => Option.some.inj hd ▸ isBlank_of_isKeyChar hc
  have hpart : readKeyPart (key ++ rest) = some (key, rest) := by
    unfold readKeyPart
    split
    case h_1 heq =>
      rw [hcons] at heq
      exact absurd (List.cons.inj heq).1 (ne_of_sort hc rfl)
    case h_2 heq =>
      rw [hcons] at heq
      exact absurd (List.cons.inj heq).1 (ne_of_sort hc rfl)
    case h_3 =>
      rw [Text.takeWhile_append_of_head? hkey.2 hrest, Text.dropWhile_append_of_head? hkey.2 hrest,
        if_neg hkey.1]
  -- the depth allowed for a key, as successors that the reader can take off
  change readKey (77 + 1 + 1) (key ++ rest) = _
  rw [readKey, hblank, hpart]
  dsimp only
  split
  case h_1 t heq =>
    rw [heq] at hdot
    exact absurd rfl hdot
  case h_2 => rfl

/-! ### Scalars -/

/-- A text is read as a value up to the end of its line. -/
structure Denotes (text : Text) (value : Node) : Prop where
  /-- No blanks stand in front of the value. -/
  head : ∀ rest : Text, skipBlanks (text ++ '\n' :: rest) = text ++ '\n' :: rest
  read : ∀ rest : Text,
    readValue (depthLimit - 1) (text ++ '\n' :: rest) = some (value, '\n' :: rest)

/-- A text that begins neither with a bracket nor with a brace is read as a leaf. -/
lemma readValue_eq_readLeaf {c : Char} {t : Text} (hbracket : c ≠ '[') (hbrace : c ≠ '\x7b') :
    readValue (depthLimit - 1) (c :: t) = readLeaf (c :: t) := by
  change readValue (78 + 1) (c :: t) = _
  rw [readValue]
  · exact fun _ heq => hbracket (List.cons.inj heq).1
  · exact fun _ heq => hbrace (List.cons.inj heq).1

/-- A bare scalar denotes its value. -/
lemma denotes_of_scalar? {text : Text} {value : Node} (hne : text ≠ [])
    (hchars : ∀ c ∈ text, isScalarChar c = true) (hvalue : scalar? text = some value) :
    Denotes text value := by
  have hend : ∀ rest c, ('\n' :: rest : Text).head? = some c → isScalarChar c = false := by
    intro rest c hc
    cases hc
    rfl
  have hscalar : ∀ rest, readScalar (text ++ '\n' :: rest) = some (value, '\n' :: rest) := by
    intro rest
    simp only [readScalar, Text.takeWhile_append_of_head? hchars (hend rest),
      Text.dropWhile_append_of_head? hchars (hend rest), hvalue]
    -- A date is followed by a time only behind a blank, and here the line ends.
    split
    case h_1 heq => cases heq
    case h_2 => rfl
  cases text with
  | nil => exact absurd rfl hne
  | cons c text =>
    have hc : isScalarChar c = true := hchars c List.mem_cons_self
    refine ⟨fun rest => skipBlanks_of_head? ?_, fun rest => ?_⟩
    · intro d hd
      cases hd
      have hspace : c ≠ ' ' := ne_of_sort hc rfl
      have htab : c ≠ '\t' := ne_of_sort hc rfl
      simp [isBlank, hspace, htab]
    · rw [List.cons_append,
        readValue_eq_readLeaf (ne_of_sort hc rfl) (ne_of_sort hc rfl), readLeaf]
      · exact hscalar rest
      · exact fun _ heq => ne_of_sort hc rfl (List.cons.inj heq).1
      · exact fun _ heq => ne_of_sort hc rfl (List.cons.inj heq).1

/-- The inside of a quoted text is read up to the quote that closes it. -/
lemma stringBody_append {form : StringForm} (hform : form.multiline = false) {s : Text}
    (hs : ∀ c ∈ s, isPlain c = true ∧ c ≠ form.quote ∧ c ≠ '\\') (taken rest : Text) :
    stringBody form .plain taken (s ++ form.quote :: rest) = some (taken.reverse ++ s, rest) := by
  induction s generalizing taken with
  | nil => simp [stringBody, closeString?, hform]
  | cons c s ih =>
    obtain ⟨hplain, hquote, hbackslash⟩ := hs c List.mem_cons_self
    have hclose : closeString? form (c :: (s ++ form.quote :: rest)) = none := by
      simp [closeString?, hquote]
    have hrest := ih (fun d hd => hs d (List.mem_cons_of_mem c hd)) (c :: taken)
    simp [stringBody, hclose, hform, hbackslash, hplain, hrest]

/-- A quoted text without quotes, escapes and control characters in it denotes itself. -/
lemma denotes_quoted {s : Text} (hs : ∀ c ∈ s, isPlain c = true ∧ c ≠ '"' ∧ c ≠ '\\') :
    Denotes ('"' :: s ++ ['"']) (.string s) := by
  have hstring : ∀ rest,
      readString ('"' :: (s ++ '"' :: '\n' :: rest)) = some (s, '\n' :: rest) := by
    intro rest
    have hbody : stringBody ⟨'"', true, false⟩ .plain [] (s ++ '"' :: '\n' :: rest) =
        some (s, '\n' :: rest) := stringBody_append rfl hs [] ('\n' :: rest)
    unfold readString
    split
    case h_1 heq =>
      -- Three quotes would open a text over several lines.
      cases s with
      | nil => cases heq
      | cons c s =>
        exact absurd (List.cons.inj (List.cons.inj heq).2).1 (hs c List.mem_cons_self).2.1
    case h_2 heq => cases heq
    case h_3 => exact hbody
  refine ⟨fun rest => skipBlanks_of_head? ?_, fun rest => ?_⟩
  · intro c hc
    cases hc
    rfl
  · have happend : '"' :: s ++ ['"'] ++ '\n' :: rest = '"' :: (s ++ '"' :: '\n' :: rest) := by simp
    rw [happend, readValue_eq_readLeaf (by decide) (by decide), readLeaf, hstring rest]
    rfl

/-! ### Numerals -/

/-- Digits of a base, with no mark between them, are read as digits. -/
lemma isDigits_of_forall {base : Nat} {t : Text} (hne : t ≠ [])
    (ht : ∀ c ∈ t, digitValue c < base) (hmark : '_' ∉ t) : isDigits base t = true := by
  fun_induction isDigits base t with
  | case1 => exact absurd rfl hne
  | case2 c => simpa using ht c List.mem_cons_self
  | case3 c t ih => simp at hmark
  | case4 c t hnext hmore ih =>
    have hc : digitValue c < base := ht c List.mem_cons_self
    have hrest : isDigits base t = true :=
      ih hnext (fun d hd => ht d (List.mem_cons_of_mem c hd))
        (fun hd => hmark (List.mem_cons_of_mem c hd))
    simp [hc, hrest]

/-- The numeral of a number that fits into a document is read as that number. -/
lemma decimalInteger?_ofNat {n : Nat} (h : n < integerLimit) :
    decimalInteger? (Text.ofNat n) = some (n : Int) := by
  have hsign : splitSign (Text.ofNat n) = (false, Text.ofNat n) := by
    unfold splitSign
    split
    case h_1 heq => exact absurd (heq ▸ List.mem_cons_self) (Text.notMem_ofNat rfl n)
    case h_2 heq => exact absurd (heq ▸ List.mem_cons_self) (Text.notMem_ofNat rfl n)
    case h_3 => rfl
  have hdigits : isDigits 10 (Text.ofNat n) = true :=
    isDigits_of_forall Nat.toDigits_ne_nil
      (fun _ hc => Text.digitValue_lt_of_mem_toDigits (by decide) (by decide) hc)
      (Text.notMem_ofNat rfl n)
  -- numbers with a zero in front are refused, except zero itself
  have hzero : (Text.ofNat n).head? ≠ some '0' ∨ (Text.ofNat n).length = 1 := by
    by_cases hn : n = 0
    · exact .inr (hn ▸ rfl)
    · exact .inl (Text.head?_toDigits hn)
  have hmarks : (Text.ofNat n).filter (· != '_') = Text.ofNat n := by
    rw [List.filter_eq_self]
    intro c hc
    rw [bne_iff_ne]
    rintro rfl
    exact Text.notMem_ofNat rfl n hc
  have hvalue : digitsValue 10 (Text.ofNat n) = n := by
    rw [digitsValue, hmarks]
    exact Text.valueIn_toDigits (by decide) (by decide) n
  have hdecimal : isDecimal (Text.ofNat n) = true := by
    rcases hzero with hzero | hzero <;> simp [isDecimal, hdigits, hzero]
  simp [decimalInteger?, hsign, hdecimal, hvalue, h]

/-- The numeral of a number that fits into a document denotes it. -/
lemma denotes_ofNat {n : Nat} (h : n < integerLimit) : Denotes (Text.ofNat n) (.integer n) := by
  have hinteger : integer? (Text.ofNat n) = some (n : Int) := by
    have hbase : ∀ mark : Char, mark.isDigit = false → ∀ digits : Text,
        Text.ofNat n ≠ '0' :: mark :: digits := by
      intro mark hmark digits heq
      exact Text.notMem_ofNat hmark n (heq ▸ List.mem_cons_of_mem _ List.mem_cons_self)
    unfold integer?
    split
    case h_1 heq => exact absurd heq (hbase 'x' rfl _)
    case h_2 heq => exact absurd heq (hbase 'o' rfl _)
    case h_3 heq => exact absurd heq (hbase 'b' rfl _)
    case h_4 => exact decimalInteger?_ofNat h
  have hword : ∀ word : Text, 'e' ∈ word → Text.ofNat n ≠ word := by
    rintro word he rfl
    exact Text.notMem_ofNat rfl n he
  refine denotes_of_scalar? Nat.toDigits_ne_nil ?_ ?_
  · intro c hc
    have hdigit : c.isDigit = true := Nat.isDigit_of_mem_toDigits (by decide) (by decide) hc
    simp [isScalarChar, Char.isAlphanum, hdigit]
  · rw [scalar?, if_neg (hword _ (by decide)), if_neg (hword _ (by decide)), hinteger]

/-! ### Lines -/

/-- A text is read as the statements of a document if as many lines may be read as there are
characters. -/
def ReadsAs (t : Text) (statements : List Statement) : Prop :=
  ∀ fuel, t.length ≤ fuel → readStatements fuel t = some statements

namespace ReadsAs

variable {rest : Text} {statements : List Statement}

/-- The empty document says nothing. -/
lemma nil : ReadsAs [] [] := by
  intro fuel _
  cases fuel <;> rfl

/-- A line with a statement adds that statement. -/
lemma cons {line : Text} {statement : Statement} (hline : line ≠ [])
    (hmore : endOfLine? (line ++ rest) = none)
    (hread : readStatement (line ++ rest) = some (statement, rest))
    (h : ReadsAs rest statements) : ReadsAs (line ++ rest) (statement :: statements) := by
  intro fuel hfuel
  have hlength : 0 < line.length := List.length_pos_iff.mpr hline
  rw [List.length_append] at hfuel
  cases fuel with
  | zero => omega
  | succ fuel =>
    have hrest := h fuel (by omega)
    rw [readStatements, hmore, hread]
    · simp [hrest]
    · simp [hline]

/-- An empty line adds nothing. -/
lemma blank (h : ReadsAs rest statements) : ReadsAs ('\n' :: rest) statements := by
  intro fuel hfuel
  rw [List.length_cons] at hfuel
  cases fuel with
  | zero => omega
  | succ fuel => exact h fuel (by omega)

/-- A header of one bare key. -/
lemma header (key : Text) (hkey : IsBareKey key) (h : ReadsAs rest statements) :
    ReadsAs (('[' :: key ++ "]\n".toList) ++ rest) (.header [] key :: statements) := by
  have hfull : readFullKey (key ++ ']' :: '\n' :: rest) =
      some (([], key), ']' :: '\n' :: rest) := by
    refine readFullKey_append hkey ?_ ?_
    · intro c hc
      cases hc
      rfl
    · intro hc
      cases hc
  have hheader : readHeader "]".toList (key ++ ']' :: '\n' :: rest) = some (([], key), rest) := by
    rw [readHeader, hfull]
    rfl
  have hline : ('[' :: key ++ "]\n".toList) ++ rest = '[' :: (key ++ ']' :: '\n' :: rest) := by
    simp
  refine cons (List.cons_ne_nil _ _) ?_ ?_ h
  · rw [hline]
    rfl
  · obtain ⟨c, key, rfl, hc⟩ := hkey.exists_eq_cons
    have hblank : skipBlanks ('[' :: (c :: key ++ ']' :: '\n' :: rest)) =
        '[' :: (c :: key ++ ']' :: '\n' :: rest) := rfl
    rw [hline, readStatement, hblank]
    split
    case h_1 heq => exact absurd (List.cons.inj (List.cons.inj heq).2).1 (ne_of_sort hc rfl)
    case h_2 heq =>
      cases heq
      rw [hheader]
      rfl
    case h_3 hnot => exact absurd rfl (hnot _)

/-- An assignment of a scalar to a bare key. -/
lemma assignment (key : Text) {text : Text} {value : Node} (hkey : IsBareKey key)
    (hvalue : Denotes text value) (h : ReadsAs rest statements) :
    ReadsAs ((key ++ " = ".toList ++ text ++ ['\n']) ++ rest)
      (.assignment [] key value :: statements) := by
  have hline : (key ++ " = ".toList ++ text ++ ['\n']) ++ rest =
      key ++ ' ' :: '=' :: ' ' :: (text ++ '\n' :: rest) := by
    simp
  -- a statement is tried as a header and as an end of line before it is read as an assignment; the
  -- first character of the key rules both out
  have hfull : readFullKey (key ++ ' ' :: '=' :: ' ' :: (text ++ '\n' :: rest)) =
      some (([], key), '=' :: ' ' :: (text ++ '\n' :: rest)) := by
    refine readFullKey_append hkey ?_ ?_
    · intro c hc
      cases hc
      rfl
    · intro hc
      cases hc
  have hpair : readPair (readValue (depthLimit - 1))
      (key ++ ' ' :: '=' :: ' ' :: (text ++ '\n' :: rest)) =
        some (([], key, value), '\n' :: rest) := by
    rw [readPair, hfull]
    change (readValue (depthLimit - 1) (skipBlanks (text ++ '\n' :: rest))).map _ = _
    rw [hvalue.head, hvalue.read]
    rfl
  obtain ⟨c, key, rfl, hc⟩ := hkey.exists_eq_cons
  refine cons (List.cons_ne_nil _ _) ?_ ?_ h
  · rw [hline]
    exact endOfLine?_of_isKeyChar hc _
  · have hblank : skipBlanks (c :: key ++ ' ' :: '=' :: ' ' :: (text ++ '\n' :: rest)) =
        c :: key ++ ' ' :: '=' :: ' ' :: (text ++ '\n' :: rest) :=
      skipBlanks_of_head? fun _ hd => Option.some.inj hd ▸ isBlank_of_isKeyChar hc
    rw [hline, readStatement, hblank]
    split
    case h_1 heq => exact absurd (List.cons.inj heq).1 (ne_of_sort hc rfl)
    case h_2 heq => exact absurd (List.cons.inj heq).1 (ne_of_sort hc rfl)
    case h_3 =>
      rw [hpair]
      rfl

end ReadsAs

/-- A document without a byte order mark is the table of its statements. -/
lemma parse_of_readsAs {t : Text} {statements : List Statement} (h : ReadsAs t statements)
    (hmark : t.head? ≠ some '\uFEFF') : parse t = Table.ofStatements statements := by
  have hskip : skipMark t = t := by
    unfold skipMark
    split
    case h_1 => exact absurd rfl hmark
    case h_2 => rfl
  rw [parse, hskip, h t.length (Nat.le_refl _), Option.bind_some]

end EdnTokens.Toml
