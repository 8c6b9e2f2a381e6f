import EdnTokens.Proofs.Numbers

/-!
# Scanners and languages

One section for each scanner: on a text that begins the way its family does, the scanner takes the
longest prefix in the language of the family, or finds the text malformed exactly where the language
of an error type says so. Numbers have a module of their own.
-/

namespace EdnTokens.Scan

open Character Extent EdnTokens.Language

/-- A character and the longest run behind it measure a language, if every text of the language that
begins with this character continues in the class of the run. -/
lemma measures_cons_run {L : Text → Prop} {p : Char → Bool} {c : Char} {t : Text}
    (hmem : L (c :: t.takeWhile p)) (hnil : ¬ L [])
    (hrest : ∀ v, L (c :: v) → ∀ x ∈ v, p x = true) :
    Measures L (c :: t) (run p t + 1) where
  le := Nat.succ_le_succ (fits_run p t)
  mem := by rwa [List.take_succ_cons, take_run]
  maximal := by
    intro v rest ht hv
    cases v with
    | nil => exact absurd hv hnil
    | cons d v =>
      rw [List.cons_append, List.cons.injEq] at ht
      obtain ⟨rfl, rfl⟩ := ht
      rw [run_append_of_forall (hrest v hv), List.length_cons]
      omega

/-! ### Blanks and comments -/

/-- Blanks are the longest run of separators. -/
lemma measures_whitespace {c : Char} (hc : isSeparator c = true) (t : Text) :
    Measures Whitespace (c :: t) (whitespace (c :: t)).width where
  le := fits_run _ _
  mem := by
    rw [whitespace, take_run]
    refine ⟨?_, fun x hx => List.mem_takeWhile_imp hx⟩
    rw [List.takeWhile_cons_of_pos hc]
    exact List.cons_ne_nil _ _
  maximal := by
    rintro v rest ht ⟨-, hv⟩
    exact (measures_run isSeparator (c :: t)).maximal v rest ht hv

/-- A comment goes to the end of the line, with the line feed if there is one. -/
lemma measures_comment (t : Text) : Measures Comment (';' :: t) (comment (';' :: t)).width where
  le := fits_followedBy (fits_run _) (fits_option _) _
  mem := by
    rw [comment, take_followedBy, take_run, drop_run, List.takeWhile_cons_of_pos (by decide),
      List.dropWhile_cons_of_pos (by decide)]
    have hbody : '\n' ∉ t.takeWhile (· != '\n') := by
      intro h
      have := List.mem_takeWhile_imp h
      simp at this
    refine ⟨t.takeWhile (· != '\n'), hbody, ?_⟩
    cases hrest : t.dropWhile (· != '\n') with
    | nil => exact Or.inl (by simp)
    | cons d rest =>
      -- the run stopped, so a line feed stands there
      have hd : (d != '\n') = false := by
        simpa [hrest] using List.head?_dropWhile_not (· != '\n') t
      rw [bne_eq_false_iff_eq] at hd
      exact Or.inr (by simp [hd, option_cons])
  maximal := by
    rintro v rest ht ⟨body, hbody, hv⟩
    have hall : ∀ x ∈ ';' :: body, (x != '\n') = true := by
      intro x hx
      rw [bne_iff_ne]
      rintro rfl
      rcases List.mem_cons.mp hx with h | h
      · exact absurd h (by decide)
      · exact hbody h
    rw [ht]
    rcases hv with rfl | rfl
    · simp only [comment, followedBy, run_append_of_forall hall]
      omega
    · have hstop : run (· != '\n') ('\n' :: rest) = 0 := by
        rw [run_cons, if_neg (by decide)]
      rw [List.append_assoc, comment, followedBy, run_append_of_forall hall, List.singleton_append,
        hstop, Nat.add_zero, List.drop_left, option_cons, if_pos (by decide), List.length_append,
        List.length_singleton]

/-! ### Names -/

/-- A symbol is its first character and the run of symbol characters behind it. -/
lemma symbol_cons (c : Char) (t : Text) :
    symbol (c :: t) = ⟨run isSymbolRest t + 1, .word⟩ := by
  simp [symbol, followedBy, upTo, Nat.add_comm]

/-- What stops a run does not make the first character begin a number. -/
lemma isNumberStart_head?_takeWhile {c : Char} {t : Text} {p : Char → Bool}
    (h : isNumberStart c (t.takeWhile p).head? = true) : isNumberStart c t.head? = true := by
  cases t with
  | nil => exact h
  | cons d t =>
    by_cases hd : p d = true
    · rwa [List.takeWhile_cons_of_pos hd] at h
    · rw [List.takeWhile_cons_of_neg hd] at h
      rw [isNumberStart_iff] at h ⊢
      rcases h with h | ⟨-, e, u, hnil, -⟩
      · exact Or.inl h
      · exact absurd hnil (List.cons_ne_nil e u).symm

/-- A symbol is the longest word where a word can begin. -/
lemma measures_symbol {c : Char} {t : Text} (hc : isSymbolStart c = true)
    (hn : ¬ isNumberStart c t.head? = true) :
    Measures Word (c :: t) (symbol (c :: t)).width := by
  rw [symbol_cons]
  apply measures_cons_run
  · exact ⟨c, _, rfl, hc, fun x hx => List.mem_takeWhile_imp hx,
      fun h => hn (isNumberStart_head?_takeWhile h)⟩
  · rintro ⟨d, rest, hnil, -⟩
    exact absurd hnil (List.cons_ne_nil d rest).symm
  · rintro v ⟨d, rest, heq, -, hrest, -⟩
    obtain ⟨rfl, rfl⟩ := List.cons.inj heq
    exact hrest

/-- A second colon belongs to the name all the same, so it may be counted with the name. -/
lemma keyword_cons (t : Text) :
    keyword (':' :: t) =
      if [':', ':'] <+: t then ⟨3, .error (some .invalidKeyword)⟩
      else ⟨run isSymbolRest t + 1, .token .keyword⟩ := by
  match t with
  | [] => rfl
  | [c] =>
    by_cases hc : c = ':'
    · subst hc
      rfl
    · simp [keyword, followedBy, upTo, option_cons, hc, Nat.add_comm]
  | c :: d :: t =>
    by_cases hc : c = ':'
    · subst hc
      by_cases hd : d = ':'
      · subst hd
        rfl
      · have hrest : isSymbolRest ':' = true := by decide
        simp [keyword, followedBy, upTo, option_cons, hd, Ne.symm hd, run_cons _ ':', hrest]
        omega
    · simp [keyword, followedBy, upTo, option_cons, hc, Ne.symm hc, Nat.add_comm]

/-- A keyword is the longest one, unless three colons stand there. -/
lemma measures_keyword {t : Text} (ht : ¬ [':', ':'] <+: t) :
    Measures Keyword (':' :: t) (run isSymbolRest t + 1) := by
  apply measures_cons_run
  · refine ⟨_, rfl, fun x hx => List.mem_takeWhile_imp hx, fun h => ht ?_⟩
    exact h.trans ( List.takeWhile_prefix _)
  · rintro ⟨rest, hnil, -⟩
    exact absurd hnil (List.cons_ne_nil _ rest).symm
  · rintro v ⟨rest, heq, hrest, -⟩
    obtain ⟨-, rfl⟩ := List.cons.inj heq
    exact hrest

/-! ### Dispatch -/

/-- What is read behind a hash depends on the one character there: an opening brace, an underscore,
a letter, or any other. -/
lemma dispatch_cons (c : Char) (t : Text) :
    dispatch ('#' :: c :: t) =
      if c = '\x7b' then ⟨2, .token .set⟩
      else if c = '_' then ⟨2, .token .discard⟩
      else if isLetter c then ⟨run isSymbolRest (c :: t) + 1, .token .tag⟩
      else ⟨run (fun x => !isSeparator x) (c :: t) + 1, .error (some .invalidDispatch)⟩ := by
  have hletter : isLetter c = true → isSymbolRest c = true := by
    intro h
    simp [isSymbolRest, isSymbolStart, h]
  simp only [dispatch, upTo, List.take_succ_cons, List.take_zero, List.length_singleton,
    List.drop_succ_cons, List.drop_zero]
  by_cases hset : c = '\x7b'
  · rw [if_pos hset, if_pos hset]
  rw [if_neg hset, if_neg hset]
  by_cases hdiscard : c = '_'
  · rw [if_pos hdiscard, if_pos hdiscard]
  rw [if_neg hdiscard, if_neg hdiscard]
  by_cases hc : isLetter c = true
  · rw [if_pos hc, if_pos hc, run_cons _ c, if_pos (hletter hc), Nat.add_comm]
  · rw [if_neg hc, if_neg hc, Nat.add_comm]

/-- A tag is the longest run of symbol characters behind a hash and a letter. -/
lemma measures_tag {c : Char} (hc : isLetter c = true) (t : Text) :
    Measures Tag ('#' :: c :: t) (run isSymbolRest (c :: t) + 1) := by
  have hrest : isSymbolRest c = true := by
    simp [isSymbolRest, isSymbolStart, hc]
  apply measures_cons_run
  · rw [List.takeWhile_cons_of_pos hrest]
    exact ⟨c, _, rfl, hc, fun x hx => List.mem_takeWhile_imp hx⟩
  · rintro ⟨d, rest, hnil, -⟩
    exact absurd hnil (List.cons_ne_nil _ _).symm
  · rintro v ⟨d, rest, heq, hd, hv⟩
    obtain ⟨-, rfl⟩ := List.cons.inj heq
    intro x hx
    rcases List.mem_cons.mp hx with rfl | hx
    · simp [isSymbolRest, isSymbolStart, hd]
    · exact hv x hx

/-- A language with one text, measured where that text begins. -/
lemma measures_eq_append (w rest : Text) : Measures (· = w) (w ++ rest) w.length where
  le := by simp
  mem := List.take_left
  maximal := by
    rintro v _ - rfl
    exact le_rfl

/-! ### Strings -/

/-- A string closes at the first quote behind a text without an unhidden one. -/
lemma closing?_append {inside : Text} (h : StringBody inside) (taken : Nat) (rest : Text) :
    closing? taken (inside ++ '"' :: rest) = some (taken + inside.length + 1) := by
  induction h generalizing taken with
  | nil => rfl
  | @plain c t hq hb _ ih =>
    rw [List.cons_append, closing?]
    · rw [ih, List.length_cons]
      congr 1
      omega
    · exact fun h => hq h
    · exact fun h _ => hb h
    · exact fun _ _ h _ => hb h
  | @hidden c t _ ih =>
    rw [List.cons_append, List.cons_append, closing?, ih]
    simp only [List.length_cons]
    congr 1
    omega

/-- A string that closes does so behind a text without an unhidden quote. -/
lemma exists_of_closing? {taken n : Nat} {t : Text} (h : closing? taken t = some n) :
    ∃ inside rest, StringBody inside ∧ t = inside ++ '"' :: rest ∧
      n = taken + inside.length + 1 := by
  fun_induction closing? taken t with
  | case1 => cases h
  | case2 taken rest =>
    cases h
    exact ⟨[], rest, .nil, rfl, rfl⟩
  | case3 => cases h
  | case4 taken c t ih =>
    obtain ⟨inside, rest, hinside, rfl, rfl⟩ := ih h
    refine ⟨'\\' :: c :: inside, rest, .hidden hinside, rfl, ?_⟩
    simp only [List.length_cons]
    omega
  | case5 taken c t hq hlast hb ih =>
    obtain ⟨inside, rest, hinside, rfl, rfl⟩ := ih h
    -- a backslash here would have hidden the next character, and there is one: the quote at least
    have hb' : c ≠ '\\' := by
      rintro rfl
      cases hi : inside ++ '"' :: rest with
      | nil => exact hlast rfl hi
      | cons d u => exact hb d u rfl hi
    refine ⟨c :: inside, rest, .plain hq hb' hinside, rfl, ?_⟩
    simp only [List.length_cons]
    omega

/-- A string that closes is the longest one, since no string goes on behind an unhidden quote. -/
lemma measures_string {t : Text} {n : Nat} (h : closing? 0 t = some n) :
    Measures StringLiteral ('"' :: t) (n + 1) := by
  obtain ⟨inside, rest, hinside, rfl, rfl⟩ := exists_of_closing? h
  have hsplit : '"' :: (inside ++ '"' :: rest) = ('"' :: inside ++ ['"']) ++ rest := by simp
  have hlen : ('"' :: inside ++ ['"']).length = 0 + inside.length + 1 + 1 := by simp
  refine ⟨?_, ?_, ?_⟩
  · simp only [List.length_cons, List.length_append]
    omega
  · rw [hsplit, ← hlen, List.take_left]
    exact ⟨inside, hinside, rfl⟩
  · rintro v rest' ht ⟨body, hbody, rfl⟩
    have hbody' : inside ++ '"' :: rest = body ++ '"' :: rest' := by
      simpa using ht
    rw [hbody', closing?_append hbody] at h
    simp only [Option.some.injEq] at h
    simp only [List.length_append, List.length_cons, List.length_nil]
    omega

/-- Only a quote calls the scanner of strings. -/
lemma eq_quote_of_scannerFor? {c : Char} {t : Text} (h : scannerFor? c t = some .string) :
    c = '"' := by
  unfold scannerFor? at h
  grind

/-! ### Characters -/

/-- Only a backslash calls the scanner of character literals. -/
lemma eq_backslash_of_scannerFor? {c : Char} {t : Text} (h : scannerFor? c t = some .character) :
    c = '\\' := by
  unfold scannerFor? at h
  grind

/-- The names are told apart by their first characters, so at most one of them is found. -/
lemma find?_names_append {name : Text} (h : name ∈ names) (rest : Text) :
    names.find? (·.isPrefixOf (name ++ rest)) = some name := by
  simp only [names, List.mem_cons, List.not_mem_nil, or_false] at h
  rcases h with rfl | rfl | rfl | rfl
  · rfl
  · rfl
  · rfl
  · rfl

/-- A name behind a backslash is taken as a whole, whatever follows it. -/
lemma character_name (strict : Bool) {name : Text} (h : name ∈ names) (rest : Text) :
    character strict ('\\' :: (name ++ rest)) = ⟨name.length + 1, .token .character⟩ := by
  simp only [character, List.drop_succ_cons, List.drop_zero, find?_names_append h]

/-- Behind a backslash the letter `u` announces up to four hexadecimal digits. -/
lemma character_unicode (strict : Bool) (rest : Text) :
    character strict ('\\' :: 'u' :: rest) = characterEscape strict 4 isHexDigit rest := rfl

/-- Behind a backslash the letter `o` announces up to three octal digits. -/
lemma character_octal (strict : Bool) (rest : Text) :
    character strict ('\\' :: 'o' :: rest) = characterEscape strict 3 isOctalDigit rest := rfl

/-- What stands behind a backslash is a name, an escape, or nothing special. -/
lemma character_cases (t : Text) :
    (∃ name rest, name ∈ names ∧ t = name ++ rest) ∨ (∃ rest, t = 'u' :: rest) ∨
      (∃ rest, t = 'o' :: rest) ∨ t.head? ≠ some 'u' ∧ t.head? ≠ some 'o' ∧
        ∀ strict, character strict ('\\' :: t) = ⟨upTo 2 ('\\' :: t), .token .character⟩ := by
  cases hfind : names.find? (·.isPrefixOf t) with
  | some name =>
    have hprefix : name.isPrefixOf t = true := by simpa using List.find?_some hfind
    obtain ⟨rest, rfl⟩ := List.isPrefixOf_iff_prefix.mp hprefix
    exact Or.inl ⟨name, rest, List.mem_of_find?_eq_some hfind, rfl⟩
  | none =>
    right
    match t with
    | [] => exact Or.inr (Or.inr ⟨by simp, by simp, fun _ => rfl⟩)
    | c :: rest =>
      by_cases hu : c = 'u'
      · exact Or.inl ⟨rest, by rw [hu]⟩
      · by_cases ho : c = 'o'
        · exact Or.inr (Or.inl ⟨rest, by rw [ho]⟩)
        · refine Or.inr (Or.inr ⟨by simpa using hu, by simpa using ho, fun strict => ?_⟩)
          simp [character, hfind, hu, ho]

/-- No character has an empty name. -/
lemma length_pos_of_mem_names {name : Text} (h : name ∈ names) : 0 < name.length := by
  simp only [names, List.mem_cons, List.not_mem_nil, or_false] at h
  rcases h with rfl | rfl | rfl | rfl
  · decide
  · decide
  · decide
  · decide

/-- A backslash takes the character behind it at least. -/
lemma two_le_width_character (strict : Bool) (c : Char) (t : Text) :
    2 ≤ (character strict ('\\' :: c :: t)).width := by
  rcases character_cases (c :: t) with ⟨name, rest, hname, ht⟩ | ⟨rest, ht⟩ | ⟨rest, ht⟩ | ⟨-, -, h⟩
  · rw [ht, character_name strict hname]
    exact Nat.succ_le_succ (length_pos_of_mem_names hname)
  · rw [ht, character_unicode]
    exact Nat.le_add_left 2 _
  · rw [ht, character_octal]
    exact Nat.le_add_left 2 _
  · rw [h]
    exact le_rfl

/-- An escape takes the backslash, its letter and as many characters as it has digits. -/
lemma take_characterEscape (strict : Bool) (count : Nat) (isDigit : Char → Bool) (c : Char)
    (t : Text) :
    ('\\' :: c :: t).take (characterEscape strict count isDigit t).width =
      '\\' :: c :: t.take count := by
  simp [characterEscape, ← List.take_eq_take_min]

/-- An escape takes no more than there is. -/
lemma width_characterEscape_le (strict : Bool) (count : Nat) (isDigit : Char → Bool) (c d : Char)
    (t : Text) : (characterEscape strict count isDigit t).width ≤ (c :: d :: t).length := by
  simp only [characterEscape, List.length_take, List.length_cons]
  omega

/-- An escape takes all of a text that is not longer than its digits. -/
lemma length_le_width_characterEscape (strict : Bool) {count : Nat} (isDigit : Char → Bool)
    {u : Text} (hu : u.length ≤ count) (rest : Text) :
    u.length + 2 ≤ (characterEscape strict count isDigit (u ++ rest)).width := by
  simp only [characterEscape, List.length_take, List.length_append]
  omega

/-- The extent of a literal does not depend on whether escapes are checked. -/
lemma measures_character (strict : Bool) (t : Text) :
    Measures CharacterLiteral ('\\' :: t) (character strict ('\\' :: t)).width := by
  refine ⟨?_, ?_, ?_⟩
  · rcases character_cases t with ⟨name, rest, hname, rfl⟩ | ⟨rest, rfl⟩ | ⟨rest, rfl⟩ | ⟨-, -, h⟩
    · rw [character_name strict hname]
      simp
    · exact width_characterEscape_le strict 4 isHexDigit _ _ rest
    · exact width_characterEscape_le strict 3 isOctalDigit _ _ rest
    · rw [h]
      exact fits_upTo 2 _
  · rcases character_cases t with ⟨name, rest, hname, rfl⟩ | ⟨rest, rfl⟩ | ⟨rest, rfl⟩ | ⟨-, -, h⟩
    · rw [character_name strict hname, List.take_succ_cons, List.take_left]
      exact .named hname
    · rw [character_unicode, take_characterEscape]
      exact .unicode (List.length_take_le 4 rest)
    · rw [character_octal, take_characterEscape]
      exact .octal (List.length_take_le 3 rest)
    · rw [h]
      cases t with
      | nil => exact .alone
      | cons c t => exact .single c
  · -- no literal at this place is longer: each shape fixes the case that the scanner is in
    intro v rest ht hv
    cases hv with
    | alone => exact character_width_pos strict _ t
    | single c =>
      obtain ⟨-, rfl⟩ := List.cons.inj ht
      exact two_le_width_character strict c rest
    | @named name hname =>
      obtain ⟨-, rfl⟩ := List.cons.inj ht
      exact (congrArg Scan.width (character_name strict hname rest)).ge
    | @unicode u hu =>
      obtain ⟨-, rfl⟩ := List.cons.inj ht
      exact length_le_width_characterEscape strict isHexDigit hu rest
    | @octal u hu =>
      obtain ⟨-, rfl⟩ := List.cons.inj ht
      exact length_le_width_characterEscape strict isOctalDigit hu rest

/-- An escape is refused if escapes are checked and it does not have all of its digits. -/
lemma verdict_characterEscape (strict : Bool) (count : Nat) (isDigit : Char → Bool) (t : Text) :
    (characterEscape strict count isDigit t).verdict = .token .character ∧
        ¬ (strict = true ∧ ¬ ((t.take count).length = count ∧ ∀ c ∈ t.take count, isDigit c)) ∨
      (characterEscape strict count isDigit t).verdict = .error (some .invalidCharacterEscape) ∧
        strict = true ∧ ¬ ((t.take count).length = count ∧ ∀ c ∈ t.take count, isDigit c) := by
  have hcheck : (strict && !((t.take count).length == count && (t.take count).all isDigit)) = true ↔
      strict = true ∧ ¬ ((t.take count).length = count ∧ ∀ c ∈ t.take count, isDigit c) := by
    rw [Bool.and_eq_true, Bool.not_eq_true', ← Bool.not_eq_true, Bool.and_eq_true, beq_iff_eq,
      List.all_eq_true]
  simp only [characterEscape]
  by_cases h : (strict && !((t.take count).length == count && (t.take count).all isDigit)) = true
  · rw [if_pos h]
    exact Or.inr ⟨rfl, hcheck.mp h⟩
  · rw [if_neg h]
    exact Or.inl ⟨rfl, fun h' => h (hcheck.mpr h')⟩

/-- An escape by a code point is broken unless it has four hexadecimal digits. -/
lemma brokenEscape_unicode_iff {u : Text} (hu : u.length ≤ 4) :
    BrokenEscape ('\\' :: 'u' :: u) ↔ ¬ (u.length = 4 ∧ ∀ c ∈ u, isHexDigit c) := by
  constructor
  · rintro (⟨v, heq, -, h⟩ | ⟨v, heq, -⟩)
    · simp only [List.cons.injEq, true_and] at heq
      rwa [heq]
    · simp at heq
  · exact fun h => Or.inl ⟨u, rfl, hu, h⟩

/-- An octal escape is broken unless it has three octal digits. -/
lemma brokenEscape_octal_iff {u : Text} (hu : u.length ≤ 3) :
    BrokenEscape ('\\' :: 'o' :: u) ↔ ¬ (u.length = 3 ∧ ∀ c ∈ u, isOctalDigit c) := by
  constructor
  · rintro (⟨v, heq, -⟩ | ⟨v, heq, -, h⟩)
    · simp at heq
    · simp only [List.cons.injEq, true_and] at heq
      rwa [heq]
  · exact fun h => Or.inr ⟨u, rfl, hu, h⟩

/-- Only the letters of the two escapes stand behind the backslash of a broken one. -/
lemma head?_of_brokenEscape {t : Text} (h : BrokenEscape ('\\' :: t)) :
    t.head? = some 'u' ∨ t.head? = some 'o' := by
  rcases h with ⟨u, heq, -⟩ | ⟨u, heq, -⟩
  · obtain ⟨-, rfl⟩ := List.cons.inj heq
    exact Or.inl rfl
  · obtain ⟨-, rfl⟩ := List.cons.inj heq
    exact Or.inr rfl

/-- A character literal is refused if escapes are checked and it is a broken one. -/
lemma verdict_character (strict : Bool) (t : Text) :
    (character strict ('\\' :: t)).verdict = .token .character ∧
        ¬ (strict = true ∧
          BrokenEscape (('\\' :: t).take (character strict ('\\' :: t)).width)) ∨
      (character strict ('\\' :: t)).verdict = .error (some .invalidCharacterEscape) ∧
        strict = true ∧
          BrokenEscape (('\\' :: t).take (character strict ('\\' :: t)).width) := by
  rcases character_cases t with ⟨name, rest, hname, rfl⟩ | ⟨rest, rfl⟩ | ⟨rest, rfl⟩ | ⟨hu, ho, h⟩
  · refine Or.inl ⟨congrArg Scan.verdict (character_name strict hname rest), ?_⟩
    rintro ⟨-, hbroken⟩
    -- no name begins like an escape
    rw [character_name strict hname, List.take_succ_cons, List.take_left] at hbroken
    simp only [names, List.mem_cons, List.not_mem_nil, or_false] at hname
    have hhead := head?_of_brokenEscape hbroken
    rcases hname with rfl | rfl | rfl | rfl <;> simp at hhead
  · rw [character_unicode, take_characterEscape,
      brokenEscape_unicode_iff (List.length_take_le 4 rest)]
    exact verdict_characterEscape strict 4 isHexDigit rest
  · rw [character_octal, take_characterEscape,
      brokenEscape_octal_iff (List.length_take_le 3 rest)]
    exact verdict_characterEscape strict 3 isOctalDigit rest
  · rw [h]
    refine Or.inl ⟨rfl, ?_⟩
    rintro ⟨-, hbroken⟩
    cases t with
    | nil =>
      rcases head?_of_brokenEscape hbroken with h' | h'
      · simp at h'
      · simp at h'
    | cons c t =>
      rcases head?_of_brokenEscape hbroken with h' | h'
      · exact hu h'
      · exact ho h'

end EdnTokens.Scan
