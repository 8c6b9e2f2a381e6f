import EdnTokens.Proofs.Lexemes
import EdnTokens.Proofs.Verdicts

/-!
# The grammar of tokens

The token languages describe the token stream exactly. A text is read as a single token of a class
if and only if it belongs to the language of that class (`tokenize_eq_single_iff`). Inside a longer
text every well-formed token is the longest prefix of what lies ahead in the language of its family,
and where a number begins, the longest number there decides what the token is
(`tokenize_longest_match`). Taken out of its text, a token is read as itself
(`tokenizeWith_text_of_mem`): the end of a text ends a token just as well as what followed it.
-/

namespace EdnTokens

open Character EdnTokens.Language Lexeme

/-! ### Texts of one token -/

/-- The verdict on the first lexeme of a text admits the text of that lexeme. -/
lemma admits_first (strict : Bool) {t : Text} (ht : t ≠ []) :
    (first strict t).verdict.Admits strict (first strict t).text :=
  (Scan.describes_next strict ht).admits

/-- The verdict on each lexeme of a text admits the text of that lexeme. -/
lemma admits_of_mem_lexemes {strict : Bool} {t : Text} {l : Lexeme} (h : l ∈ lexemes strict t) :
    l.verdict.Admits strict l.text :=
  forall_mem_lexemes (p := fun l => l.verdict.Admits strict l.text)
    (fun _ hu => admits_first strict hu) t l h

/-- A text is one lexeme with a verdict if and only if the verdict admits it. -/
lemma lexemes_eq_singleton_iff {strict : Bool} {t : Text} (ht : t ≠ []) (v : Verdict) :
    lexemes strict t = [⟨t, v⟩] ↔ v.Admits strict t := by
  rw [lexemes_of_ne_nil strict ht]
  constructor
  · intro h
    obtain ⟨hfirst, -⟩ := List.cons.inj h
    have hadmits := admits_first strict ht
    rwa [hfirst] at hadmits
  · intro h
    have hfirst : first strict t = ⟨t, v⟩ := by
      rw [first, Scan.next_eq_of_admits ht h, List.take_length]
    rw [hfirst, List.drop_length, lexemes_nil]

/-- Two placed tokens come from one lexeme. -/
lemma place_eq_pair_iff (start : Nat) (ls : List Lexeme) (token last : Token) :
    place start ls = [token, last] ↔
      ∃ l, ls = [l] ∧ l.token start = token ∧ .eof (start + l.text.length) = last := by
  match ls with
  | [] => simp [place]
  | [l] => simp [place]
  | l :: l' :: [] => simp [place]
  | l :: l' :: l'' :: ls => simp [place]

/-- A text is read as a single token if and only if a verdict admits it and makes it this token. -/
lemma tokenizeWith_eq_pair_iff (options : Options) {s : Text} (hs : s ≠ []) {token : Token}
    (htext : token.text = s) :
    tokenizeWith options s = [token, .eof (s.length + 1)] ↔
      ∃ v : Verdict, v.Admits options.strictEscapes s ∧ (⟨s, v⟩ : Lexeme).token 1 = token := by
  rw [tokenizeWith, tokens_ofText, place_eq_pair_iff]
  constructor
  · rintro ⟨⟨text, v⟩, hlexemes, rfl, -⟩
    obtain rfl : text = s := htext
    exact ⟨v, (lexemes_eq_singleton_iff hs v).mp hlexemes, rfl⟩
  · rintro ⟨v, hv, rfl⟩
    refine ⟨⟨s, v⟩, (lexemes_eq_singleton_iff hs v).mpr hv, rfl, ?_⟩
    rw [Nat.add_comm]

/-! ### Words -/

/-- The reserved words are words. -/
lemma word_of_mem_reserved {t : Text} (h : t ∈ reserved) : Word t := by
  simp only [reserved, List.mem_cons, List.not_mem_nil, or_false] at h
  rcases h with rfl | rfl | rfl
  · exact ⟨'n', ['i', 'l'], rfl, by decide, List.all_eq_true.mp rfl, by decide⟩
  · exact ⟨'t', ['r', 'u', 'e'], rfl, by decide, List.all_eq_true.mp rfl, by decide⟩
  · exact ⟨'f', ['a', 'l', 's', 'e'], rfl, by decide, List.all_eq_true.mp rfl, by decide⟩

/-- Every word has one of the kinds of words. -/
lemma isWord_wordKind (t : Text) : (Session.wordKind t).isWord = true := by
  unfold Session.wordKind
  split_ifs <;> rfl

/-- A word belongs to the language of its kind. -/
lemma language_wordKind {t : Text} (h : Word t) : (Session.wordKind t).Language t := by
  unfold Session.wordKind
  split_ifs with hnil htrue hfalse
  · exact hnil
  · exact htrue
  · exact hfalse
  · refine ⟨h, ?_⟩
    simp only [reserved, List.mem_cons, List.not_mem_nil, or_false]
    rintro (rfl | rfl | rfl)
    · exact hnil rfl
    · exact htrue rfl
    · exact hfalse rfl

/-- A text in the language of a kind of words is a word of that kind. -/
lemma word_of_language {kind : TokenKind} {t : Text} (hkind : kind.isWord = true)
    (h : kind.Language t) : Word t ∧ Session.wordKind t = kind := by
  cases kind with
  | nilWord =>
    obtain rfl : t = "nil".toList := h
    exact ⟨word_of_mem_reserved (by decide), rfl⟩
  | trueWord =>
    obtain rfl : t = "true".toList := h
    exact ⟨word_of_mem_reserved (by decide), rfl⟩
  | falseWord =>
    obtain rfl : t = "false".toList := h
    exact ⟨word_of_mem_reserved (by decide), rfl⟩
  | symbol =>
    obtain ⟨hword, hreserved⟩ := h
    simp only [reserved, List.mem_cons, List.not_mem_nil, or_false, not_or] at hreserved
    refine ⟨hword, ?_⟩
    rw [Session.wordKind, if_neg hreserved.1, if_neg hreserved.2.1, if_neg hreserved.2.2]
  | _ => cases hkind

/-! ### Verdicts and kinds -/

namespace Lexeme

variable {strict : Bool} {l : Lexeme}

/-- A kind that is neither a word nor malformed input is the kind of exactly one verdict. -/
lemma kind_eq_iff {kind : TokenKind} (hword : kind.isWord = false) (hkind : kind ≠ .lexError)
    (l : Lexeme) : l.kind = kind ↔ l.verdict = .token kind := by
  obtain ⟨text, v⟩ := l
  cases v with
  | token k => simp [Lexeme.kind]
  | word =>
    refine iff_of_false (fun h => ?_) (by simp)
    obtain rfl : Session.wordKind text = kind := h
    rw [isWord_wordKind] at hword
    cases hword
  | error type => exact iff_of_false (fun h => hkind h.symm) (by simp)

/-- A token is malformed input exactly if its lexeme was found to be. -/
lemma isError_token_iff (h : l.verdict.Admits strict l.text) (start : Nat) :
    (l.token start).isError = true ↔ ∃ type, l.verdict = .error type := by
  have hkind : (l.token start).isError = true ↔ l.kind = .lexError := beq_iff_eq
  obtain ⟨text, v⟩ := l
  rw [hkind]
  cases v with
  | token k =>
    refine iff_of_false (fun hk => ?_) (by simp)
    obtain rfl : k = .lexError := hk
    exact h.2.1
  | word =>
    refine iff_of_false (fun hk => ?_) (by simp)
    have hword := isWord_wordKind text
    rw [show Session.wordKind text = .lexError from hk] at hword
    cases hword
  | error type => exact iff_of_true rfl ⟨type, rfl⟩

/-- A lexeme whose token is not malformed emits nothing. -/
lemma diagnostic?_eq_none (h : l.verdict.Admits strict l.text) {start : Nat}
    (herror : ¬ (l.token start).isError = true) (passed : Text) : l.diagnostic? passed = none := by
  unfold diagnostic?
  split
  · rename_i type hv
    exact absurd ((isError_token_iff h start).mpr ⟨type, hv⟩) herror
  · rfl

/-- The type of an error is found in the attributes of its token. -/
lemma errorType?_token {type : Option ErrorType} (h : l.verdict = .error type) (start : Nat) :
    (l.token start).errorType? = type := by
  obtain ⟨text, v⟩ := l
  obtain rfl : v = _ := h
  exact Attributes.errorType?_ofErrorType type

end Lexeme

/-! ### The exact grammar -/

/-- For a kind other than malformed input, a lexeme of that kind is one in its language. -/
lemma exists_admits_kind_iff {s : Text} {kind : TokenKind} (hkind : kind ≠ .lexError) :
    (∃ v : Verdict, v.Admits false s ∧
        (⟨s, v⟩ : Lexeme).token 1 = { kind, text := s, start := 1 }) ↔ kind.Language s := by
  constructor
  · rintro ⟨v, hv, htoken⟩
    have hv' : (⟨s, v⟩ : Lexeme).kind = kind := congrArg Token.kind htoken
    cases v with
    | token k =>
      obtain rfl : k = kind := hv'
      exact hv.2.1
    | word =>
      obtain rfl : Session.wordKind s = kind := hv'
      exact language_wordKind hv
    | error type =>
      obtain rfl : TokenKind.lexError = kind := hv'
      exact absurd rfl hkind
  · intro h
    by_cases hword : kind.isWord = true
    · obtain ⟨hs, rfl⟩ := word_of_language hword h
      exact ⟨.word, hs, rfl⟩
    · exact ⟨.token kind, ⟨by simpa using hword, h, by simp⟩, rfl⟩

/-- A malformed lexeme of a type is one in the language of that type. Escapes are not checked
here. -/
lemma exists_admits_error_iff {s : Text} {type : Option ErrorType}
    (htype : type ≠ some .invalidCharacterEscape) :
    (∃ v : Verdict, v.Admits false s ∧ (⟨s, v⟩ : Lexeme).token 1 = .error s 1 type) ↔
      ErrorType.Language type s := by
  constructor
  · rintro ⟨v, hv, htoken⟩
    have herror : ((⟨s, v⟩ : Lexeme).token 1).isError = true := by
      rw [htoken]
      rfl
    obtain ⟨type', rfl⟩ : ∃ type', v = .error type' := (isError_token_iff hv 1).mp herror
    have htype := congrArg Token.errorType? htoken
    rw [errorType?_token rfl] at htype
    obtain rfl : type' = type := htype.trans (Attributes.errorType?_ofErrorType type)
    exact hv.1
  · intro h
    exact ⟨.error type, ⟨h, fun h' => absurd h' htype⟩, rfl⟩

/-- A text is read as a single token of a class if and only if it belongs to the language of that
class. The classes are the kinds of well-formed tokens and, for malformed input, the error types
that occur while escapes are not checked, the missing type of an open string among them. -/
theorem tokenize_eq_single_iff (s : Text) (hs : s ≠ []) :
    (∀ kind : TokenKind, kind ≠ .lexError →
      (tokenize s = [{ kind, text := s, start := 1 }, .eof (s.length + 1)] ↔ kind.Language s)) ∧
    ∀ type : Option ErrorType, type ≠ some .invalidCharacterEscape →
      (tokenize s = [.error s 1 type, .eof (s.length + 1)] ↔ ErrorType.Language type s) := by
  constructor
  · intro kind hkind
    rw [tokenize, tokenizeWith_eq_pair_iff _ hs rfl]
    exact exists_admits_kind_iff hkind
  · intro type htype
    rw [tokenize, tokenizeWith_eq_pair_iff _ hs rfl]
    exact exists_admits_error_iff htype

/-- The radix digits may take the mark of an exact decimal along, and the text is a number all the
same. -/
theorem tokenize_radix_mark :
    "16rFFM".toList ≠ [] ∧
      tokenize "16rFFM".toList = [⟨.number, "16rFFM".toList, 1, .empty⟩, .eof 7] := by
  have hne : "16rFFM".toList ≠ [] := by decide
  have hfixed : Fixed ['1', '6'] :=
    @Fixed.whole [] ['1', '6'] (Or.inl rfl) (by decide) (List.all_eq_true.mp rfl)
  have hnumber : Number "16rFFM".toList :=
    ⟨['1', '6'], ['r', 'F', 'F'], ['M'], hfixed, .radix (List.all_eq_true.mp rfl), Or.inr rfl, rfl⟩
  exact ⟨hne, ((tokenize_eq_single_iff _ hne).1 .number (by decide)).mpr hnumber⟩

/-! ### The longest match -/

/-- The language in which tokens of a kind are matched: all words are matched alike, and every other
kind by its own language. -/
def TokenKind.Family (kind : TokenKind) (t : Text) : Prop :=
  if kind.isWord then ∃ k : TokenKind, k.isWord = true ∧ k.Language t else kind.Language t

/-- The words are divided among the kinds of words. -/
lemma exists_isWord_language_iff (t : Text) :
    (∃ k : TokenKind, k.isWord = true ∧ k.Language t) ↔ Word t := by
  constructor
  · rintro ⟨k, hk, h⟩
    exact (word_of_language hk h).1
  · intro h
    exact ⟨_, isWord_wordKind t, language_wordKind h⟩

/-- A lexeme that is not malformed is the longest prefix of the text in the language of its
family. -/
lemma longest_first {strict : Bool} {t : Text} (ht : t ≠ [])
    (hkind : (first strict t).kind ≠ .lexError) :
    Longest (first strict t).kind.Family t (first strict t).text := by
  have hd := Scan.describes_next strict ht
  have hadmits := hd.admits
  simp only [kind, first] at hkind ⊢
  cases hv : (Scan.next strict t).verdict with
  | token k =>
    rw [hv] at hadmits
    refine ((hd.token k hv).congr fun w => ?_).longest
    simp only [TokenKind.Family, hadmits.1, Bool.false_eq_true, if_false]
  | word =>
    refine ((hd.word hv).congr fun w => ?_).longest
    simp only [TokenKind.Family, isWord_wordKind, if_true, exists_isWord_language_iff]
  | error type =>
    simp only [hv] at hkind
    exact absurd rfl hkind

/-- Where a number begins, the longest number and the character behind it decide the token. -/
lemma token_first_of_isNumberStart (strict : Bool) {c : Char} {rest : Text}
    (h : isNumberStart c rest.head? = true) (start : Nat) :
    ∃ w, Longest Number (c :: rest) w ∧
      (∀ d, ((c :: rest).drop w.length).head? = some d → isSymbolStart d = true →
        (first strict (c :: rest)).token start =
          .error (w ++ [d]) start (some .invalidNumberFormat)) ∧
      ((∀ d, ((c :: rest).drop w.length).head? = some d → ¬ isSymbolStart d = true) →
        (first strict (c :: rest)).token start = { kind := .number, text := w, start }) := by
  have hm := Scan.measures_numeral h
  have hlength : ((c :: rest).take (Scan.numeral (c :: rest))).length =
      Scan.numeral (c :: rest) := by
    rw [List.length_take, min_eq_left hm.le]
  refine ⟨_, hm.longest, ?_, ?_⟩
  · intro d hd hstart
    rw [hlength] at hd
    have hnext : Scan.next strict (c :: rest) =
        ⟨Scan.numeral (c :: rest) + 1, .error (some .invalidNumberFormat)⟩ := by
      rw [Scan.next_numberStart strict h, Scan.number]
      simp only [hd, Option.any_some, if_pos hstart]
    rw [List.head?_drop] at hd
    simp only [first, hnext, List.take_add_one, hd, Option.toList_some, token, kind, attributes,
      Token.error]
  · intro hnone
    rw [hlength] at hnone
    have hnext : Scan.next strict (c :: rest) =
        ⟨Scan.numeral (c :: rest), .token .number⟩ := by
      rw [Scan.next_numberStart strict h, Scan.number]
      refine if_neg fun hany => ?_
      obtain ⟨d, hd, hstart⟩ := (Option.any_eq_true _ _).mp hany
      exact hnone d hd hstart
    simp only [first, hnext, token, kind, attributes]

/-- A token that is neither malformed nor the end token is the longest prefix of the text from its
start on in the language of its family. Where a number begins, the token is the longest number
there, or that number together with the letter or punctuation behind it, which makes it malformed.
-/
theorem tokenize_longest_match (source : Text) (t : Token) (ht : t ∈ tokenize source) :
    (t.isEof = false → t.isError = false →
      Longest t.kind.Family (source.drop (t.start - 1)) t.text) ∧
    ∀ c rest, source.drop (t.start - 1) = c :: rest → isNumberStart c rest.head? = true →
      ∃ w, Longest Number (c :: rest) w ∧
        (∀ d, ((c :: rest).drop w.length).head? = some d → isSymbolStart d = true →
          t = .error (w ++ [d]) t.start (some .invalidNumberFormat)) ∧
        ((∀ d, ((c :: rest).drop w.length).head? = some d → ¬ isSymbolStart d = true) →
          t = { kind := .number, text := w, start := t.start }) := by
  -- a token is the end token, or the first lexeme of the text from its start on
  rw [tokenize, tokenizeWith, tokens_ofText] at ht
  rcases exists_first_of_mem_place ht with rfl | ⟨passed, rest, rfl, hne, rfl⟩
  · -- nothing lies ahead of the end token
    have hdrop : source.drop (1 + source.length - 1) = [] := by
      rw [Nat.add_sub_cancel_left, List.drop_length]
    refine ⟨fun heof => absurd heof (by simp [Token.eof, Token.isEof]), ?_⟩
    intro c rest hrest
    rw [Token.eof, hdrop] at hrest
    cases hrest
  · have hdrop : (passed ++ rest).drop (1 + passed.length - 1) = rest := by
      rw [Nat.add_sub_cancel_left, List.drop_left]
    constructor
    · intro _ herror
      rw [token, hdrop]
      refine longest_first hne fun hkind => ?_
      rw [Token.isError, token, hkind] at herror
      cases herror
    · intro c u hrest hstart
      rw [token, hdrop] at hrest
      rw [hrest]
      exact token_first_of_isNumberStart false hstart _

/-- In `-1M2+x` the digit behind the mark ends the first number without spoiling it, and the sign
behind the second number spoils that. -/
theorem tokenize_longest_match_numbers :
    ⟨.number, "-1M".toList, 1, .empty⟩ ∈ tokenize "-1M2+x".toList ∧
      Longest TokenKind.number.Family "-1M2+x".toList "-1M".toList ∧
      .error "2+".toList 4 (some .invalidNumberFormat) ∈ tokenize "-1M2+x".toList ∧
      ∃ w d, Longest Number "2+x".toList w ∧ "2+".toList = w ++ [d] := by
  have hnumber : ⟨.number, "-1M".toList, 1, .empty⟩ ∈ tokenize "-1M2+x".toList := by
    decide +kernel
  have herror : .error "2+".toList 4 (some .invalidNumberFormat) ∈ tokenize "-1M2+x".toList := by
    decide +kernel
  refine ⟨hnumber, (tokenize_longest_match _ _ hnumber).1 rfl rfl, herror, ?_⟩
  obtain ⟨w, hw, hspoilt, hplain⟩ :=
    (tokenize_longest_match _ _ herror).2 '2' ['+', 'x'] rfl (by decide)
  by_cases hfollow : ∀ d, (['2', '+', 'x'].drop w.length).head? = some d → ¬ isSymbolStart d = true
  · have hkind := congrArg Token.kind (hplain hfollow)
    cases hkind
  · push Not at hfollow
    obtain ⟨d, hd, hstart⟩ := hfollow
    exact ⟨w, d, hw, congrArg Token.text (hspoilt d hd hstart)⟩

/-! ### Tokens on their own -/

/-- The text of the first lexeme of a text is that one lexeme, malformed or not, because the verdict
that it was given admits it. -/
lemma lexemes_text_first (strict : Bool) {t : Text} (ht : t ≠ []) :
    lexemes strict (first strict t).text = [first strict t] :=
  (lexemes_eq_singleton_iff (text_first_ne_nil strict ht) _).mpr (admits_first strict ht)

/-- A token other than the end token stands alone: its text is read as the same token, now at offset
one, and nothing else. -/
theorem tokenizeWith_text_of_mem (options : Options) (source : Text) (t : Token)
    (ht : t ∈ tokenizeWith options source) (heof : t.isEof = false) :
    tokenizeWith options t.text = [{ t with start := 1 }, .eof (t.text.length + 1)] := by
  rw [tokenizeWith, tokens_ofText] at ht
  rcases exists_first_of_mem_place ht with rfl | ⟨passed, rest, -, hne, rfl⟩
  · cases heof
  · have hlexemes := lexemes_text_first options.strictEscapes hne
    rw [tokenizeWith, tokens_ofText]
    simp only [token, hlexemes, place, Nat.add_comm]

/-- With checked escapes an escape takes the blank and the number sign that stand in the place of
its digits. Without what came before and behind, it is malformed in the same way. -/
theorem tokenizeWith_text_of_mem_escape :
    .error "\\u12 #".toList 2 (some .invalidCharacterEscape) ∈
        tokenizeWith { strictEscapes := true } "(\\u12 #)".toList ∧
      tokenizeWith { strictEscapes := true } "\\u12 #".toList =
        [.error "\\u12 #".toList 1 (some .invalidCharacterEscape), .eof 7] := by
  have ht : .error "\\u12 #".toList 2 (some .invalidCharacterEscape) ∈
      tokenizeWith { strictEscapes := true } "(\\u12 #)".toList := by
    decide +kernel
  exact ⟨ht, tokenizeWith_text_of_mem _ _ _ ht rfl⟩

end EdnTokens
