import EdnTokens.Proofs.Scanners

/-!
# Verdicts

What the verdict on the next token says about its text. Each verdict admits the texts of a language
(`Verdict.Admits`). The next token of a text always has a text that its verdict admits and, unless
it is malformed, the longest prefix of the text in that language (`Scan.describes_next`). In the
other direction a text that a verdict admits is read as one token with that verdict
(`Scan.next_eq_of_admits`), so the languages leave no two ways to read a text.
-/

namespace EdnTokens

open Character Extent EdnTokens.Language

/-! ### What a verdict admits -/

/-- The kinds of words: symbols and the reserved words. -/
def TokenKind.isWord : TokenKind → Bool
  | .symbol | .nilWord | .trueWord | .falseWord => true
  | _ => false

/-- The texts that a token with a verdict can have. Broken escapes are characters unless escapes are
checked. -/
def Verdict.Admits (strict : Bool) (t : Text) : Verdict → Prop
  | .token kind =>
    kind.isWord = false ∧ kind.Language t ∧ ¬ (strict = true ∧ kind = .character ∧ BrokenEscape t)
  | .word => Word t
  | .error type =>
    ErrorType.Language type t ∧ (type = some .invalidCharacterEscape → strict = true)

namespace Scan

/-! ### Which scanner reads a text -/

section Classifier

variable (strict : Bool) {c : Char} {t : Text}

/-- Separators are read as blanks. -/
lemma next_separator (hc : isSeparator c = true) : next strict (c :: t) = whitespace (c :: t) := by
  simp only [next, scannerFor?, if_pos hc]
  rfl

/-- A delimiter is read as a token by itself, and its kind has no other text. -/
lemma next_delimiter (hc : isDelimiter c = true) :
    ∃ kind, TokenKind.isWord kind = false ∧ kind ≠ .character ∧ kind.Language = (· = [c]) ∧
      next strict (c :: t) = ⟨1, .token kind⟩ := by
  simp only [isDelimiter, Bool.or_eq_true, beq_iff_eq] at hc
  rcases hc with ((((rfl | rfl) | rfl) | rfl) | rfl) | rfl
  · exact ⟨.leftParen, rfl, by decide, rfl, rfl⟩
  · exact ⟨.rightParen, rfl, by decide, rfl, rfl⟩
  · exact ⟨.leftBracket, rfl, by decide, rfl, rfl⟩
  · exact ⟨.rightBracket, rfl, by decide, rfl, rfl⟩
  · exact ⟨.leftBrace, rfl, by decide, rfl, rfl⟩
  · exact ⟨.rightBrace, rfl, by decide, rfl, rfl⟩

/-- A character that can continue a symbol is neither a separator nor a delimiter. -/
lemma not_separator_of_isSymbolRest (hc : isSymbolRest c = true) :
    ¬ isSeparator c = true ∧ ¬ isDelimiter c = true := by
  constructor
  · intro h
    simp only [isSeparator, Bool.or_eq_true, beq_iff_eq] at h
    rcases h with (((rfl | rfl) | rfl) | rfl) | rfl <;> exact absurd hc (by decide)
  · intro h
    simp only [isDelimiter, Bool.or_eq_true, beq_iff_eq] at h
    rcases h with ((((rfl | rfl) | rfl) | rfl) | rfl) | rfl <;> exact absurd hc (by decide)

/-- What can begin a number can continue a symbol. -/
lemma isSymbolRest_of_isNumberStart (h : isNumberStart c t.head? = true) :
    isSymbolRest c = true := by
  rcases (isNumberStart_iff c t).mp h with hd | ⟨rfl | rfl | rfl, -⟩
  · simp [isSymbolRest, hd]
  · decide
  · decide
  · decide

/-- Where a number can begin, a number is read. -/
lemma next_numberStart (h : isNumberStart c t.head? = true) :
    next strict (c :: t) = number (c :: t) := by
  obtain ⟨hs, hd⟩ := not_separator_of_isSymbolRest (isSymbolRest_of_isNumberStart h)
  simp only [next, scannerFor?, if_neg hs, if_neg hd, if_pos h]
  rfl

/-- Where a symbol can begin but no number, a word is read. -/
lemma next_symbolStart (hc : isSymbolStart c = true) (hn : ¬ isNumberStart c t.head? = true) :
    next strict (c :: t) = symbol (c :: t) := by
  have hrest : isSymbolRest c = true := by simp [isSymbolRest, hc]
  obtain ⟨hs, hd⟩ := not_separator_of_isSymbolRest hrest
  simp only [next, scannerFor?, if_neg hs, if_neg hd, if_neg hn, if_pos hc]
  rfl

/-- A quote begins a string. -/
lemma next_quote (t : Text) : next strict ('"' :: t) = string ('"' :: t) := rfl

/-- A backslash begins a character literal. -/
lemma next_backslash (t : Text) : next strict ('\\' :: t) = character strict ('\\' :: t) := rfl

/-- A colon begins a keyword. -/
lemma next_colon (t : Text) : next strict (':' :: t) = keyword (':' :: t) := rfl

/-- A hash begins a tag, a set, a discard mark, or nothing well-formed. -/
lemma next_hash (t : Text) : next strict ('#' :: t) = dispatch ('#' :: t) := rfl

/-- A character that begins no family of tokens is malformed by itself. -/
lemma next_unrecognized (hs : ¬ isSeparator c = true) (hd : ¬ isDelimiter c = true)
    (hn : ¬ isDigit c = true) (hsym : ¬ isSymbolStart c = true)
    (hc : c ∉ ['"', '\\', ':', ';', '#']) :
    next strict (c :: t) = ⟨1, .error (some .unrecognizedCharacter)⟩ := by
  have hnumber : ¬ isNumberStart c t.head? = true := by
    rw [isNumberStart_iff]
    rintro (h | ⟨rfl | rfl | rfl, -⟩)
    · exact hn h
    · exact hsym (by decide)
    · exact hsym (by decide)
    · exact hsym (by decide)
  have hkind : TokenKind.ofDelimiter? c = none := by
    simp only [isDelimiter, Bool.or_eq_true, beq_iff_eq, not_or] at hd
    simp [TokenKind.ofDelimiter?, hd]
  simp only [List.mem_cons, List.not_mem_nil, or_false, not_or] at hc
  simp [next, scannerFor?, hs, hd, hnumber, hsym, hc, hkind]

end Classifier

/-! ### The verdict describes the text -/

/-- A scan describes a text if its verdict admits what it takes, and it takes the longest prefix
that a verdict of this sort allows. -/
structure Describes (strict : Bool) (t : Text) (s : Scan) : Prop where
  le : s.width ≤ t.length
  admits : s.verdict.Admits strict (t.take s.width)
  token : ∀ kind, s.verdict = .token kind → Measures kind.Language t s.width
  word : s.verdict = .word → Measures Word t s.width

section Describes

variable {strict : Bool} {t : Text} {n : Nat}

/-- What measures the language of a kind describes the text as a token of that kind. Character
literals are left out here, since their verdict depends on the check of escapes. -/
lemma describes_token {kind : TokenKind} (hw : kind.isWord = false) (hc : kind ≠ .character)
    (h : Measures kind.Language t n) : Describes strict t ⟨n, .token kind⟩ where
  le := h.le
  admits := ⟨hw, h.mem, fun hbroken => hc hbroken.2.1⟩
  token _ hv := by
    cases hv
    exact h
  word hv := by cases hv

/-- A prefix in the language of an error type describes the text as malformed. Broken escapes are
left out here, since only a check of escapes finds them. -/
lemma describes_error {type : Option ErrorType} (hle : n ≤ t.length)
    (h : ErrorType.Language type (t.take n)) (htype : type ≠ some .invalidCharacterEscape) :
    Describes strict t ⟨n, .error type⟩ where
  le := hle
  admits := ⟨h, fun h' => absurd h' htype⟩
  token _ hv := by cases hv
  word hv := by cases hv

/-- A letter or punctuation behind the longest number makes both together no number. -/
lemma describes_number {c : Char} (h : isNumberStart c t.head? = true) :
    Describes strict (c :: t) (number (c :: t)) := by
  have hm := measures_numeral h
  simp only [number]
  split
  · rename_i hfollow
    obtain ⟨d, hd, hstart⟩ := (Option.any_eq_true _ _).mp hfollow
    rw [List.head?_drop] at hd
    have hsplit : (c :: t).take (numeral (c :: t) + 1) =
        (c :: t).take (numeral (c :: t)) ++ [d] := by
      rw [List.take_add_one, hd, Option.toList_some]
    obtain ⟨hle, -⟩ := List.getElem?_eq_some_iff.mp hd
    refine describes_error hle ⟨_, d, hsplit, hm.mem, hstart, fun hnumber => ?_⟩ (by simp)
    have hmax := hm.maximal _ _ (List.take_append_drop _ _).symm hnumber
    rw [List.length_take] at hmax
    omega
  · exact describes_token rfl (by simp) hm

/-- A word is described by its scanner whether or not it is reserved. -/
lemma describes_symbol {c : Char} (hc : isSymbolStart c = true)
    (hn : ¬ isNumberStart c t.head? = true) : Describes strict (c :: t) (symbol (c :: t)) := by
  have hm := measures_symbol hc hn
  refine ⟨hm.le, hm.mem, ?_, fun _ => hm⟩
  intro kind hv
  cases hv

/-- A string is described by the quote that closes it; without one it takes all of the text. -/
lemma describes_string (t : Text) : Describes strict ('"' :: t) (string ('"' :: t)) := by
  simp only [string, List.drop_succ_cons, List.drop_zero]
  split
  · rename_i n hn
    exact describes_token rfl (by simp) (measures_string hn)
  · rename_i hnone
    refine describes_error le_rfl ?_ (by simp)
    rw [List.take_length]
    refine ⟨t, rfl, ?_⟩
    rintro ⟨inside, rest, hinside, rfl⟩
    rw [closing?_append hinside] at hnone
    cases hnone

/-- A character literal is described by its scanner, under either treatment of broken escapes. -/
lemma describes_character (t : Text) :
    Describes strict ('\\' :: t) (character strict ('\\' :: t)) := by
  have hm := measures_character strict t
  rcases verdict_character strict t with ⟨hv, hbroken⟩ | ⟨hv, hstrict, hbroken⟩
  · refine ⟨hm.le, ?_, ?_, ?_⟩
    · rw [hv]
      exact ⟨rfl, hm.mem, fun h => hbroken ⟨h.1, h.2.2⟩⟩
    · intro kind hkind
      rw [hv] at hkind
      cases hkind
      exact hm
    · intro hword
      rw [hv] at hword
      cases hword
  · refine ⟨hm.le, ?_, ?_, ?_⟩
    · rw [hv]
      exact ⟨hbroken, fun _ => hstrict⟩
    · intro kind hkind
      rw [hv] at hkind
      cases hkind
    · intro hword
      rw [hv] at hword
      cases hword

/-- Three colons are malformed by themselves, and anything else behind a colon is a keyword. -/
lemma describes_keyword (t : Text) : Describes strict (':' :: t) (keyword (':' :: t)) := by
  rw [keyword_cons]
  split
  · rename_i hcolons
    obtain ⟨rest, rfl⟩ := hcolons
    exact describes_error (by simp) rfl (by simp)
  · rename_i hcolons
    exact describes_token rfl (by simp) (measures_keyword hcolons)

/-- Behind a hash stand a brace, an underscore, a tag, or malformed input up to the next
separator. -/
lemma describes_dispatch (t : Text) : Describes strict ('#' :: t) (dispatch ('#' :: t)) := by
  cases t with
  | nil => exact describes_error le_rfl (Or.inl rfl) (by simp)
  | cons c t =>
    rw [dispatch_cons]
    split
    · rename_i hc
      subst hc
      exact describes_token rfl (by simp) (measures_eq_append ['#', '\x7b'] t)
    split
    · rename_i hc
      subst hc
      exact describes_token rfl (by simp) (measures_eq_append ['#', '_'] t)
    split
    · rename_i hc
      exact describes_token rfl (by simp) (measures_tag hc t)
    · rename_i hset hdiscard hletter
      refine describes_error (Nat.succ_le_succ (fits_run _ _)) ?_ (by simp)
      rw [List.take_succ_cons, take_run]
      by_cases hc : isSeparator c = true
      · exact Or.inl (by rw [List.takeWhile_cons_of_neg (by simpa using hc)])
      · refine Or.inr ⟨c, t.takeWhile fun x => !isSeparator x, ?_, hset, hdiscard, hletter, ?_⟩
        · rw [List.takeWhile_cons_of_pos (by simpa using hc)]
        · intro x hx
          rcases List.mem_cons.mp hx with rfl | hx
          · exact hc
          · simpa using List.mem_takeWhile_imp hx

/-- The next token of a text that is not empty describes it. -/
lemma describes_next (strict : Bool) {t : Text} (ht : t ≠ []) :
    Describes strict t (next strict t) := by
  obtain ⟨c, t, rfl⟩ := List.exists_cons_of_ne_nil ht
  by_cases hs : isSeparator c = true
  · rw [next_separator strict hs]
    exact describes_token rfl (by simp) (measures_whitespace hs t)
  by_cases hd : isDelimiter c = true
  · obtain ⟨kind, hw, hc, hlanguage, hnext⟩ := next_delimiter strict (t := t) hd
    rw [hnext]
    refine describes_token hw hc ?_
    rw [hlanguage]
    exact measures_eq_append [c] t
  by_cases hn : isNumberStart c t.head? = true
  · rw [next_numberStart strict hn]
    exact describes_number hn
  by_cases hsym : isSymbolStart c = true
  · rw [next_symbolStart strict hsym hn]
    exact describes_symbol hsym hn
  by_cases hc : c ∈ ['"', '\\', ':', ';', '#']
  · simp only [List.mem_cons, List.not_mem_nil, or_false] at hc
    rcases hc with rfl | rfl | rfl | rfl | rfl
    · exact describes_string t
    · exact describes_character t
    · exact describes_keyword t
    · exact describes_token rfl (by simp) (measures_comment t)
    · exact describes_dispatch t
  · have hdigit : ¬ isDigit c = true := fun h => hn ((isNumberStart_iff c t).mpr (Or.inl h))
    rw [next_unrecognized strict hs hd hdigit hsym hc]
    exact describes_error (by simp) ⟨c, rfl, hs, hd, hdigit, hsym, hc⟩ (by simp)

/-! ### A text that a verdict admits -/

/-- A scan that finds the kind of a text takes all of it. -/
lemma Describes.eq_of_language {s : Scan} {kind : TokenKind} (h : Describes strict t s)
    (hv : s.verdict = .token kind) (ht : kind.Language t) : s = ⟨t.length, .token kind⟩ := by
  have hwidth := (h.token kind hv).eq_length ht
  obtain ⟨width, verdict⟩ := s
  simp only at hv hwidth
  rw [hv, hwidth]

/-- Behind a text that is a number as a whole there is nothing to spoil it. -/
lemma verdict_next_number (h : Number t) : (next strict t).verdict = .token .number := by
  obtain ⟨c, u, hcons, hstart⟩ := exists_isNumberStart_of_number h []
  rw [List.append_nil] at hcons
  subst hcons
  have hwidth := (measures_numeral hstart).eq_length h
  rw [next_numberStart strict hstart, number]
  simp only [hwidth, List.drop_length, List.head?_nil, Option.any_none, Bool.false_eq_true,
    if_false]

/-- A character literal as a whole is accepted, unless it is a broken escape and escapes are
checked. -/
lemma verdict_next_character (h : CharacterLiteral t) (hb : ¬ (strict = true ∧ BrokenEscape t)) :
    (next strict t).verdict = .token .character := by
  obtain ⟨u, rfl⟩ : ∃ u, t = '\\' :: u := by
    cases h <;> exact ⟨_, rfl⟩
  have hwidth := (measures_character strict u).eq_length h
  rw [next_backslash]
  rcases verdict_character strict u with ⟨hv, -⟩ | ⟨-, hbroken⟩
  · exact hv
  · rw [hwidth, List.take_length] at hbroken
    exact absurd hbroken hb

/-- A text in the language of a kind begins a token of that kind. -/
lemma verdict_next_of_language {kind : TokenKind} (hne : t ≠ []) (hw : kind.isWord = false)
    (h : kind.Language t) (hb : ¬ (strict = true ∧ kind = .character ∧ BrokenEscape t)) :
    (next strict t).verdict = .token kind := by
  cases kind with
  | whitespace =>
    obtain ⟨c, u, rfl⟩ := List.exists_cons_of_ne_nil h.1
    rw [next_separator strict (h.2 c List.mem_cons_self)]
    rfl
  | comment =>
    obtain ⟨body, -, rfl | rfl⟩ := h
    · rfl
    · rfl
  | number => exact verdict_next_number h
  | keyword =>
    obtain ⟨rest, rfl, -, hcolons⟩ := h
    rw [next_colon, keyword_cons, if_neg hcolons]
  | string =>
    obtain ⟨body, hbody, rfl⟩ := h
    have hclose := closing?_append hbody 0 []
    rw [List.cons_append, next_quote]
    simp only [string, List.drop_succ_cons, List.drop_zero, hclose]
  | character => exact verdict_next_character h fun h' => hb ⟨h'.1, rfl, h'.2⟩
  -- the character behind the hash is a letter, so neither a set nor a discard mark begins here
  | tag =>
    obtain ⟨c, rest, rfl, hc, -⟩ := h
    have hset : c ≠ '\x7b' := by
      rintro rfl
      exact absurd hc (by decide)
    have hdiscard : c ≠ '_' := by
      rintro rfl
      exact absurd hc (by decide)
    rw [next_hash, dispatch_cons, if_neg hset, if_neg hdiscard, if_pos hc]
  | leftParen | rightParen | leftBracket | rightBracket | leftBrace | rightBrace | set | discard =>
    have ht : t = _ := h
    rw [ht]
    rfl
  | eof => exact absurd h hne
  | lexError => exact False.elim h
  -- words have a verdict of their own, and the text decides their kind later
  | nilWord | trueWord | falseWord | symbol => cases hw

/-- A number and one more character that spoils it are read together. -/
lemma next_eq_of_invalidNumber (h : ErrorType.Language (some .invalidNumberFormat) t) :
    next strict t = ⟨t.length, .error (some .invalidNumberFormat)⟩ := by
  obtain ⟨w, d, rfl, hw, hd, hspoilt⟩ := h
  obtain ⟨c, u, hcons, hstart⟩ := exists_isNumberStart_of_number hw [d]
  have hm := measures_numeral hstart
  rw [hcons, next_numberStart strict hstart]
  -- the longest number has the length of `w`: it is not shorter, and not the whole text
  have hge := hm.maximal w [d] hcons.symm hw
  have hlen : (c :: u).length = w.length + 1 := by rw [← hcons, List.length_append]; rfl
  have hlt : numeral (c :: u) ≠ (c :: u).length := by
    intro hall
    have hmem := hm.mem
    rw [hall, List.take_length, ← hcons] at hmem
    exact hspoilt hmem
  have hwidth : numeral (c :: u) = w.length := by
    have hle := hm.le
    omega
  have hfollow : (c :: u).drop w.length = [d] := by rw [← hcons, List.drop_left]
  simp only [number, hwidth, hfollow, List.head?_cons, Option.any_some, if_pos hd, hlen]

/-- A hash with what cannot stand behind it is read together, since no separator ends it earlier. -/
lemma next_eq_of_invalidDispatch (h : ErrorType.Language (some .invalidDispatch) t) :
    next strict t = ⟨t.length, .error (some .invalidDispatch)⟩ := by
  rcases h with rfl | ⟨c, rest, rfl, hset, hdiscard, hc, hall⟩
  · rfl
  · have hrun : ∀ x ∈ c :: rest, (!isSeparator x) = true := by
      intro x hx
      simpa using hall x hx
    rw [next_hash, dispatch_cons, if_neg hset, if_neg hdiscard, if_neg hc]
    have hwidth := (measures_run (fun x => !isSeparator x) (c :: rest)).eq_length hrun
    rw [hwidth]
    rfl

/-- Under a check of escapes a broken escape is read as one malformed token. -/
lemma next_eq_of_brokenEscape (h : BrokenEscape t) :
    next true t = ⟨t.length, .error (some .invalidCharacterEscape)⟩ := by
  have hliteral : CharacterLiteral t := by
    rcases h with ⟨u, rfl, hu, -⟩ | ⟨u, rfl, hu, -⟩
    · exact .unicode hu
    · exact .octal hu
  obtain ⟨u, rfl⟩ : ∃ u, t = '\\' :: u := by
    cases hliteral <;> exact ⟨_, rfl⟩
  have hwidth := (measures_character true u).eq_length hliteral
  rw [next_backslash]
  rcases verdict_character true u with ⟨-, hb⟩ | ⟨hv, -⟩
  · rw [hwidth, List.take_length] at hb
    exact absurd ⟨rfl, h⟩ hb
  · rw [← hwidth, ← hv]

/-- A text that a verdict admits is read as one token with that verdict. -/
lemma next_eq_of_admits {v : Verdict} (hne : t ≠ []) (h : v.Admits strict t) :
    next strict t = ⟨t.length, v⟩ := by
  have hdescribes := describes_next strict hne
  cases v with
  | token kind =>
    obtain ⟨hw, hlanguage, hb⟩ := h
    exact hdescribes.eq_of_language (verdict_next_of_language hne hw hlanguage hb) hlanguage
  | word =>
    obtain ⟨c, rest, rfl, hc, -, hn⟩ := id h
    have hm := measures_symbol hc hn
    rw [next_symbolStart strict hc hn, ← hm.eq_length h]
    rfl
  | error type =>
    obtain ⟨hlanguage, hstrict⟩ := h
    match type with
    | some .invalidNumberFormat => exact next_eq_of_invalidNumber hlanguage
    | some .invalidKeyword =>
      have ht : t = _ := hlanguage
      rw [ht]
      rfl
    | some .invalidDispatch => exact next_eq_of_invalidDispatch hlanguage
    | some .unrecognizedCharacter =>
      obtain ⟨c, rfl, hs, hd, hn, hsym, hc⟩ := hlanguage
      exact next_unrecognized strict hs hd hn hsym hc
    | some .invalidCharacterEscape =>
      rw [hstrict rfl]
      exact next_eq_of_brokenEscape hlanguage
    | none =>
      obtain ⟨body, rfl, hopen⟩ := hlanguage
      -- a quote that closes the string would make a string of what should be an open one
      have hclose : closing? 0 body = none := by
        rw [Option.eq_none_iff_forall_ne_some]
        intro n hn
        obtain ⟨inside, rest, hinside, hbody, -⟩ := exists_of_closing? hn
        exact hopen ⟨inside, rest, hinside, hbody⟩
      rw [next_quote]
      simp only [string, List.drop_succ_cons, List.drop_zero, hclose]

end Describes

end Scan

end EdnTokens
