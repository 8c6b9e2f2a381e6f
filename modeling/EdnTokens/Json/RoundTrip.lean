import EdnTokens.Json.Grammar
import EdnTokens.Json.Reader

/-!
# Writing and reading JSON

The reader accepts every document of the grammar and finds the value that it stands for
(`parse?_of_document`), so no document stands for two values. The indented form of a value is a
document for that value and no other one (`document_render_iff`), and is read back
(`parse?_render`).

What follows a value in a text must not be taken for a part of it. Only a number could go on, so it
is enough that no digit follows.
-/

namespace EdnTokens.Json

open Text (digitValue valueIn charOfCodePoint?)

/-! ### Reading strings -/

/-- The digits of a code unit are read as that unit. -/
theorem readUnit_of_codeUnit {t : Text} {n : Nat} (h : CodeUnit t n) (rest : Text) :
    readUnit (t ++ rest) = some (n, rest) := by
  have hdigits : t.all (digitValue · < 16) = true := by
    simpa using h.digits
  have htake : (t ++ rest).take 4 = t := by
    rw [← h.length_eq, List.take_left]
  have hdrop : (t ++ rest).drop 4 = rest := by
    rw [← h.length_eq, List.drop_left]
  simp only [readUnit, htake, hdrop, h.length_eq, hdigits, h.value_eq, and_self, if_true]

/-- No character has the code point of a surrogate. -/
theorem not_surrogate (c : Char) : ¬ (0xD800 ≤ c.toNat ∧ c.toNat < 0xE000) := by
  have hvalid : c.toNat.isValidChar := c.valid
  rcases hvalid with h | h <;> omega

/-- Every form of a character is read, whatever follows it. -/
theorem readChar_of_form {s : Text} {c : Char} (h : CharForm s c) (rest : Text) :
    readChar (s ++ rest) = some (c, rest) := by
  cases h with
  | plain hq hb hc =>
    have hcontrol : ¬ c.toNat < 0x20 := by omega
    simp [readChar, hq, hb, hcontrol]
  | letter hl =>
    simp only [escapeLetters, List.mem_cons, Prod.mk.injEq, List.not_mem_nil, or_false] at hl
    rcases hl with ⟨rfl, rfl⟩ | ⟨rfl, rfl⟩ | ⟨rfl, rfl⟩ | ⟨rfl, rfl⟩ | ⟨rfl, rfl⟩ | ⟨rfl, rfl⟩ |
      ⟨rfl, rfl⟩ | ⟨rfl, rfl⟩ <;> rfl
  | codePoint hu =>
    have hnot := not_surrogate c
    have hhigh : ¬ (0xD800 ≤ c.toNat ∧ c.toNat < 0xDC00) := by omega
    simp only [List.cons_append, readChar, readCodePoint, readUnit_of_codeUnit hu, hhigh, if_false,
      Text.charOfCodePoint?_toNat, Option.map_some]
  | surrogates hs ht hhigh hlow hc =>
    have hjoin : joinSurrogates _ _ = c.toNat := hc.symm
    simp only [List.cons_append, List.append_assoc, readChar, readCodePoint,
      readUnit_of_codeUnit hs, readUnit_of_codeUnit ht, hhigh, hlow, and_self, if_true, hjoin,
      Text.charOfCodePoint?_toNat, Option.map_some]

/-- Every form of a text is read up to the quote that ends it, whatever follows that. -/
theorem readString_of_form {t s : Text} (h : StringForm t s) (rest : Text) :
    readString (t ++ '"' :: rest) = some (s, rest) := by
  induction h with
  | nil =>
    have hquote : readChar ('"' :: rest) = none := by simp [readChar]
    rw [List.nil_append, readString]
    split
    · rename_i heq
      rw [hquote] at heq
      cases heq
    · rfl
  | cons hc ht ih =>
    rename_i s t c cs
    have hchar := readChar_of_form hc (t ++ '"' :: rest)
    rw [List.append_assoc, readString]
    split
    · rename_i heq
      rw [hchar] at heq
      cases heq
      rw [ih]
      rfl
    · rename_i heq
      rw [hchar] at heq
      cases heq

/-! ### Reading numbers -/

/-- A text that does not continue a number. -/
def NoDigit (t : Text) : Prop :=
  ∀ c, t.head? = some c → c.isDigit = false

/-- The digits of a number are read as that number, up to something that does not continue them. -/
theorem readNumber_of_form {t : Text} {n : Nat} (h : NumberForm t n) {rest : Text}
    (hr : NoDigit rest) : readNumber (t ++ rest) = some (.number n, rest) := by
  have hzero : ¬ (t = [] ∨ t.head? = some '0' ∧ t.length ≠ 1) := by
    rintro (hnil | ⟨hhead, hlength⟩)
    · exact h.ne_nil hnil
    · rw [h.zero hhead] at hlength
      exact hlength rfl
  simp only [readNumber, Text.takeWhile_append_of_head? h.digits hr,
    Text.dropWhile_append_of_head? h.digits hr, if_neg hzero, h.value_eq]

/-! ### Blanks -/

theorem blanks_nil : Blanks [] :=
  fun _ hc => absurd hc List.not_mem_nil

/-- The four blanks of the grammar are blanks to the reader. -/
theorem isBlank_of_mem {c : Char} (h : c ∈ [' ', '\t', '\n', '\r']) : isBlank c = true := by
  simp only [List.mem_cons, List.not_mem_nil, or_false] at h
  rcases h with rfl | rfl | rfl | rfl <;> rfl

/-- A digit is no blank. -/
theorem isBlank_of_isDigit {c : Char} (h : c.isDigit = true) : isBlank c = false := by
  cases hb : isBlank c with
  | false => rfl
  | true =>
    simp only [isBlank, Bool.or_eq_true, beq_iff_eq] at hb
    rcases hb with ((rfl | rfl) | rfl) | rfl <;> exact absurd h (by decide)

/-- Blanks in front are skipped. -/
theorem skipBlanks_append {b : Text} (hb : Blanks b) (t : Text) :
    skipBlanks (b ++ t) = skipBlanks t := by
  rw [skipBlanks, List.dropWhile_append_of_pos fun c hc => isBlank_of_mem (hb c hc)]
  rfl

/-- Nothing is skipped where no blank stands. -/
theorem skipBlanks_cons {c : Char} (h : isBlank c = false) (t : Text) :
    skipBlanks (c :: t) = c :: t := by
  simp [skipBlanks, h]

/-- Blanks before something that does not continue a number do not continue it either. -/
theorem noDigit_append {b t : Text} (hb : Blanks b) (ht : NoDigit t) : NoDigit (b ++ t) := by
  cases b with
  | nil => exact ht
  | cons c b =>
    intro d hd
    obtain rfl : c = d := Option.some.inj hd
    cases hdigit : c.isDigit with
    | false => rfl
    | true =>
      have hblank := isBlank_of_mem (hb c List.mem_cons_self)
      rw [isBlank_of_isDigit hdigit] at hblank
      cases hblank

/-- What begins with another character does not continue a number. -/
theorem noDigit_cons {c : Char} (h : c.isDigit = false) (t : Text) : NoDigit (c :: t) := by
  intro d hd
  obtain rfl : c = d := Option.some.inj hd
  exact h

/-! ### Reading sequences -/

/-- The characters that close arrays and objects. -/
def Closing (c : Char) : Prop :=
  c = ']' ∨ c = '\x7d'

/-- The form of a part of a document begins with a character that is neither a blank nor closes
anything. -/
def Opens (t : Text) : Prop :=
  ∃ c u, t = c :: u ∧ isBlank c = false ∧ ¬ Closing c

/-- Every value opens with a character of its own. -/
theorem Form.opens {t : Text} {v : Json} (h : Form t v) : Opens t := by
  cases h with
  | number hn =>
    cases t with
    | nil => exact absurd rfl hn.ne_nil
    | cons c u =>
      have hc := hn.digits c List.mem_cons_self
      refine ⟨c, u, rfl, isBlank_of_isDigit hc, ?_⟩
      rintro (rfl | rfl)
      · exact absurd hc (by decide)
      · exact absurd hc (by decide)
  | string => exact ⟨'"', _, rfl, rfl, by simp [Closing]⟩
  | emptyArray => exact ⟨'[', _, rfl, rfl, by simp [Closing]⟩
  | array => exact ⟨'[', _, rfl, rfl, by simp [Closing]⟩
  | emptyObject => exact ⟨'\x7b', _, rfl, rfl, by simp [Closing]⟩
  | object => exact ⟨'\x7b', _, rfl, rfl, by simp [Closing]⟩

/-- A member opens with the quote of its key. -/
theorem MemberForm.opens {form : Text → Json → Prop} {t : Text} {m : Text × Json}
    (h : MemberForm form t m) : Opens t := by
  cases h
  exact ⟨'"', _, rfl, rfl, by simp [Closing]⟩

/-- What closes an array or an object is no blank, does not continue a number and is no comma. -/
theorem Closing.ne {c : Char} (h : Closing c) :
    isBlank c = false ∧ c.isDigit = false ∧ ',' ≠ c := by
  rcases h with rfl | rfl <;> decide

section

variable {α : Type} {form : Text → α → Prop} {t : Text} {xs : List α}

/-- Without the blanks before it, a sequence of parts is a sequence that begins with a part. -/
theorem SeqForm.exists_opens (h : SeqForm form t xs) (hopens : ∀ u x, form u x → Opens u) :
    ∃ a u, t = a ++ u ∧ Blanks a ∧ SeqForm form u xs ∧ Opens u := by
  cases h with
  | single ha hx hb =>
    rename_i a u b x
    obtain ⟨c, v, rfl, hc⟩ := hopens _ _ hx
    exact ⟨a, c :: v ++ b, List.append_assoc _ _ _, ha, .single (a := []) blanks_nil hx hb,
      c, v ++ b, rfl, hc⟩
  | cons ha hx hb hs =>
    rename_i a u b w x xs
    obtain ⟨c, v, rfl, hc⟩ := hopens _ _ hx
    exact ⟨a, c :: v ++ b ++ ',' :: w, by simp, ha, .cons (a := []) blanks_nil hx hb hs,
      c, v ++ b ++ ',' :: w, by simp, hc⟩

/-- A sequence is at least as long as the number of its parts. -/
theorem SeqForm.length_le (h : SeqForm form t xs) (hopens : ∀ u x, form u x → Opens u) :
    xs.length ≤ t.length := by
  induction h with
  | single _ hx _ =>
    obtain ⟨c, v, rfl, -⟩ := hopens _ _ hx
    simp only [List.length_append, List.length_cons, List.length_nil]
    omega
  | cons _ _ _ _ ih =>
    simp only [List.length_append, List.length_cons]
    omega

/-- That a reader reads every form not longer than `n`, after blanks and before anything that does
not continue a number. -/
def Reads (part : Reader α) (form : Text → α → Prop) (n : Nat) : Prop :=
  ∀ (t : Text) (x : α), form t x → t.length ≤ n → ∀ a rest : Text, Blanks a → NoDigit rest →
    part (a ++ (t ++ rest)) = some (x, rest)

variable {part : Reader α} {n : Nat} {close : Char}

/-- If each part is read, a sequence of them is read up to what closes it. -/
theorem readSeq_of_form (h : Reads part form n) (hclose : Closing close) (hs : SeqForm form t xs)
    (hn : t.length ≤ n) (fuel : Nat) (hf : xs.length ≤ fuel) (rest : Text) :
    readSeq close part fuel (t ++ close :: rest) = some (xs, rest) := by
  obtain ⟨hblank, hdigit, hcomma⟩ := hclose.ne
  -- each part uses up one unit of fuel, and a sequence has as many parts as values
  induction hs generalizing fuel with
  | single ha hx hb =>
    rename_i a u b x
    obtain ⟨fuel, rfl⟩ : ∃ m, fuel = m + 1 := ⟨fuel - 1, by simp at hf; omega⟩
    simp only [List.length_append] at hn
    have hpart := h u x hx (by omega) a (b ++ close :: rest) ha
      (noDigit_append hb (noDigit_cons hdigit rest))
    simp only [List.append_assoc, readSeq, hpart, skipBlanks_append hb,
      skipBlanks_cons hblank, if_true]
  | cons ha hx hb hs ih =>
    rename_i a u b w x xs
    obtain ⟨fuel, rfl⟩ : ∃ m, fuel = m + 1 := ⟨fuel - 1, by simp at hf; omega⟩
    simp only [List.length_append, List.length_cons] at hn hf
    have hpart := h u x hx (by omega) a (b ++ ',' :: (w ++ close :: rest)) ha
      (noDigit_append hb (noDigit_cons (by decide) _))
    have hskip := skipBlanks_cons (c := ',') (by decide) (w ++ close :: rest)
    simp only [List.append_assoc, List.cons_append, readSeq, hpart, skipBlanks_append hb, hskip,
      hcomma, if_true, if_false, ih (by omega) fuel (by omega), Option.map_some]

/-- Nothing but blanks is read as no parts. -/
theorem readParts_of_blanks (hclose : Closing close) {a : Text} (ha : Blanks a) (rest : Text) :
    readParts close part (a ++ close :: rest) = some ([], rest) := by
  simp only [readParts, skipBlanks_append ha, skipBlanks_cons hclose.ne.1, if_true]

/-- A sequence of parts is read as these parts. -/
theorem readParts_of_form (h : Reads part form n) (hopens : ∀ u x, form u x → Opens u)
    (hclose : Closing close) (hs : SeqForm form t xs) (hn : t.length ≤ n) (rest : Text) :
    readParts close part (t ++ close :: rest) = some (xs, rest) := by
  obtain ⟨a, u, rfl, ha, hu, hu'⟩ := hs.exists_opens hopens
  have hlength := hu.length_le hopens
  rw [List.length_append] at hn
  have hseq := readSeq_of_form h hclose hu (by omega) (u ++ close :: rest).length
    (by simp only [List.length_append]; omega) rest
  obtain ⟨c, v, rfl, hblank, hnot⟩ := hu'
  have hne : c ≠ close := by
    rintro rfl
    exact hnot hclose
  simp only [List.cons_append] at hseq
  simp only [readParts, List.append_assoc, List.cons_append, skipBlanks_append ha,
    skipBlanks_cons hblank, hne, if_false]
  exact hseq

end

/-! ### Reading values -/

/-- If the values of an object are read, so are its members. -/
theorem reads_readMember {n : Nat} (h : Reads (readValue n) Form n) :
    Reads (readMember (readValue n)) (MemberForm Form) n := by
  intro t m hm hn a rest ha hr
  obtain ⟨hs, hb, hc, hv⟩ := hm
  rename_i s b c u key value
  simp only [List.length_append, List.length_cons] at hn
  have hvalue := h u value hv (by omega) c rest hc hr
  have hkey := readString_of_form hs (b ++ ':' :: (c ++ (u ++ rest)))
  simp only [readMember, List.append_assoc, List.cons_append, skipBlanks_append ha]
  rw [skipBlanks_cons (by decide)]
  simp only [hkey, skipBlanks_append hb]
  rw [skipBlanks_cons (by decide)]
  simp only [hvalue, Option.map_some]

/-- A value that begins with a digit is a number. -/
theorem readValue_of_isDigit {c : Char} (h : c.isDigit = true) (n : Nat) (t : Text) :
    readValue (n + 1) (c :: t) = readNumber (c :: t) := by
  rw [readValue, skipBlanks_cons (isBlank_of_isDigit h)]
  split
  · rename_i heq
    cases heq
    exact absurd h (by decide)
  · rename_i heq
    cases heq
    exact absurd h (by decide)
  · rename_i heq
    cases heq
    exact absurd h (by decide)
  · rfl

/-- Blanks before a value do not matter. -/
theorem readValue_append {a : Text} (ha : Blanks a) (n : Nat) (t : Text) :
    readValue n (a ++ t) = readValue n t := by
  cases n with
  | zero => rfl
  | succ n => simp only [readValue, skipBlanks_append ha]

/-- An array is read if what stands between its brackets is. -/
theorem readValue_array {n : Nat} {t rest : Text} {items : List Json}
    (h : readParts ']' (readValue n) (t ++ ']' :: rest) = some (items, rest)) :
    readValue (n + 1) ('[' :: t ++ [']'] ++ rest) = some (.array items, rest) := by
  rw [List.append_assoc, List.cons_append, List.singleton_append, readValue,
    skipBlanks_cons (by decide)]
  simp only [h, Option.map_some]

/-- An object is read if what stands between its braces is. -/
theorem readValue_object {n : Nat} {t rest : Text} {members : List (Text × Json)}
    (h : readParts '\x7d' (readMember (readValue n)) (t ++ '\x7d' :: rest) =
      some (members, rest)) :
    readValue (n + 1) ('\x7b' :: t ++ ['\x7d'] ++ rest) = some (.object members, rest) := by
  rw [List.append_assoc, List.cons_append, List.singleton_append, readValue,
    skipBlanks_cons (by decide)]
  simp only [h, Option.map_some]

/-- Every form of a value is read if it is not longer than the depth allowed. -/
theorem reads_readValue (n : Nat) : Reads (readValue n) Form n := by
  -- along the depth allowed: what stands between brackets is shorter than the brackets with it
  induction n with
  | zero =>
    intro t v h hn
    obtain ⟨c, u, rfl, -⟩ := h.opens
    simp at hn
  | succ n ih =>
    intro t v h hn a rest ha hr
    have hbracket : Closing ']' := Or.inl rfl
    have hbrace : Closing '\x7d' := Or.inr rfl
    rw [readValue_append ha]
    cases h with
    | number hnumber =>
      cases t with
      | nil => exact absurd rfl hnumber.ne_nil
      | cons c u =>
        rw [List.cons_append, readValue_of_isDigit (hnumber.digits c List.mem_cons_self)]
        exact readNumber_of_form hnumber hr
    | string hs =>
      rw [List.append_assoc, List.cons_append, readValue, skipBlanks_cons (by decide)]
      simp only [List.singleton_append, readString_of_form hs, Option.map_some]
    | emptyArray hb => exact readValue_array (readParts_of_blanks hbracket hb rest)
    | array hs =>
      simp only [List.length_append, List.length_cons, List.length_nil] at hn
      exact readValue_array
        (readParts_of_form ih (fun _ _ hv => hv.opens) hbracket hs (by omega) rest)
    | emptyObject hb => exact readValue_object (readParts_of_blanks hbrace hb rest)
    | object hs =>
      simp only [List.length_append, List.length_cons, List.length_nil] at hn
      exact readValue_object (readParts_of_form (reads_readMember ih) (fun _ _ hm => hm.opens)
        hbrace hs (by omega) rest)

/-- A document of the grammar is read as the value that it stands for. -/
theorem parse?_of_document {t : Text} {v : Json} (h : Document t v) : parse? t = some v := by
  obtain ⟨a, u, b, rfl, ha, hu, hb⟩ := h
  have hnil : NoDigit [] := fun c hc => by cases hc
  have hrest : NoDigit b := by
    rw [← List.append_nil b]
    exact noDigit_append hb hnil
  have hskip : skipBlanks b = [] := by
    rw [← List.append_nil b, skipBlanks_append hb]
    rfl
  have hvalue := reads_readValue ((a ++ u ++ b).length + 1) u v hu
    (by simp only [List.length_append]; omega) a b ha hrest
  rw [← List.append_assoc] at hvalue
  rw [parse?, hvalue]
  simp only [hskip, if_true]

/-! ### Writing -/

/-- Two zeros and the digits of a control character denote it. -/
theorem codeUnit_hexByte {n : Nat} (h : n < 0x20) : CodeUnit ('0' :: '0' :: hexByte n) n := by
  have all : ∀ n < 0x20, ('0' :: '0' :: hexByte n).all (digitValue · < 16) = true ∧
      valueIn 16 ('0' :: '0' :: hexByte n) = n := by decide
  obtain ⟨hdigits, hvalue⟩ := all n h
  exact ⟨rfl, by simpa only [List.all_eq_true, decide_eq_true_eq] using hdigits, hvalue⟩

/-- The escaped form of a character denotes that character. -/
theorem charForm_escapeChar (c : Char) : CharForm (escapeChar c) c := by
  by_cases hletter : c ∈ ['"', '\\', '\x08', '\x0c', '\n', '\r', '\t']
  · simp only [List.mem_cons, List.not_mem_nil, or_false] at hletter
    rcases hletter with rfl | rfl | rfl | rfl | rfl | rfl | rfl <;> exact .letter (by decide)
  · simp only [List.mem_cons, List.not_mem_nil, or_false, not_or] at hletter
    by_cases hcontrol : c.toNat < 0x20
    · simp only [escapeChar, hletter, hcontrol, if_true, if_false]
      exact .codePoint (codeUnit_hexByte hcontrol)
    · simp only [escapeChar, hletter, hcontrol, if_false]
      exact .plain hletter.1 hletter.2.1 (by omega)

/-- The escaped form of a text denotes that text. -/
theorem stringForm_flatMap_escapeChar (t : Text) : StringForm (t.flatMap escapeChar) t := by
  induction t with
  | nil => exact .nil
  | cons c t ih => exact .cons (charForm_escapeChar c) ih

/-- The numeral of a number denotes that number. -/
theorem numberForm_ofNat (n : Nat) : NumberForm (Text.ofNat n) n where
  ne_nil := Nat.toDigits_ne_nil
  digits := fun _ hc => Nat.isDigit_of_mem_toDigits (by decide) (by decide) hc
  zero := by
    intro hhead
    by_cases h : n = 0
    · subst n
      rfl
    · exact absurd hhead (Text.head?_toDigits h)
  value_eq := Text.valueIn_toDigits (by decide) (by decide) n

/-- A line break and the indentation behind it are blanks. -/
theorem blanks_newline (depth : Nat) : Blanks (newline depth) := by
  intro c hc
  simp only [newline, List.mem_cons, List.mem_replicate] at hc
  rcases hc with rfl | ⟨-, rfl⟩ <;> decide

/-- A quoted key, a colon and the form of a value make a member. -/
theorem memberForm_quote (key : Text) {t : Text} {value : Json} (h : Form t value) :
    MemberForm Form (quote key ++ ": ".toList ++ t) (key, value) := by
  have hform : MemberForm Form ('"' :: key.flatMap escapeChar ++ '"' :: [] ++ ':' :: [' '] ++ t)
      (key, value) := .mk (stringForm_flatMap_escapeChar key) blanks_nil (by decide) h
  simpa [quote] using hform

-- One lemma for each function of the layout, as these call each other.
mutual

/-- The indented form of a value is one of its forms. -/
theorem form_pretty (depth : Nat) : ∀ j : Json, Form (pretty depth j) j
  | number n => by
    rw [pretty]
    exact .number (numberForm_ofNat n)
  | string t => by
    rw [pretty]
    exact .string (stringForm_flatMap_escapeChar t)
  | array [] => by
    rw [pretty]
    exact .emptyArray blanks_nil
  | array (item :: items) => by
    have h := seqForm_prettyItems depth (form_pretty (depth + 1) item) items
    rw [pretty]
    simpa only [List.cons_append, List.append_assoc] using Form.array h
  | object [] => by
    rw [pretty]
    exact .emptyObject blanks_nil
  | object ((key, value) :: members) => by
    have h := seqForm_prettyMembers depth (memberForm_quote key
      (form_pretty (depth + 1) value)) members
    rw [pretty]
    simpa only [List.cons_append, List.append_assoc] using Form.object h

/-- The items behind one that is written make up a sequence with it. -/
theorem seqForm_prettyItems (depth : Nat) {t : Text} {item : Json} (h : Form t item) :
    ∀ items : List Json,
      SeqForm Form (newline (depth + 1) ++ t ++ (prettyItems depth items ++ newline depth))
        (item :: items)
  | [] => by
    rw [prettyItems]
    exact .single (blanks_newline _) h (blanks_newline _)
  | next :: items => by
    have hs := seqForm_prettyItems depth (form_pretty (depth + 1) next) items
    have hform := SeqForm.cons (blanks_newline (depth + 1)) h blanks_nil hs
    rw [prettyItems]
    simpa only [List.append_nil, List.cons_append, List.append_assoc] using hform

/-- The members behind one that is written make up a sequence with it. -/
theorem seqForm_prettyMembers (depth : Nat) {t : Text} {m : Text × Json}
    (h : MemberForm Form t m) :
    ∀ members : List (Text × Json),
      SeqForm (MemberForm Form)
        (newline (depth + 1) ++ t ++ (prettyMembers depth members ++ newline depth)) (m :: members)
  | [] => by
    rw [prettyMembers]
    exact .single (blanks_newline _) h (blanks_newline _)
  | (key, value) :: members => by
    have hs := seqForm_prettyMembers depth (memberForm_quote key
      (form_pretty (depth + 1) value)) members
    have hform := SeqForm.cons (blanks_newline (depth + 1)) h blanks_nil hs
    rw [prettyMembers]
    simpa only [List.append_nil, List.cons_append, List.append_assoc] using hform

end

/-- The indented form of a value is a document for it, whatever blanks follow. -/
theorem document_render (j : Json) {b : Text} (hb : Blanks b) : Document (j.render ++ b) j :=
  ⟨[], j.render, b, rfl, blanks_nil, form_pretty 0 j, hb⟩

/-- The indented form of a value stands for no other value. -/
theorem document_render_iff {j v : Json} {b : Text} (hb : Blanks b) :
    Document (j.render ++ b) v ↔ v = j := by
  have hj := parse?_of_document (document_render j hb)
  constructor
  · intro hv
    exact Option.some.inj ((parse?_of_document hv).symm.trans hj)
  · rintro rfl
    exact document_render _ hb

/-- A document is read back as the value it was made from, whatever blanks follow it. -/
theorem parse?_render (j : Json) {b : Text} (hb : Blanks b) : parse? (j.render ++ b) = some j :=
  parse?_of_document (document_render j hb)

end EdnTokens.Json
