import EdnTokens.Proofs.Grammar
import EdnTokens.Proofs.Lookahead

/-!
# Concatenation

Text that is added behind a text can change how the end of that text is read: a sign becomes a
number, an escape fills up, a character name is completed. It cannot if the last token is closed,
that is, if it ends where it does whatever comes next. Then the tokens of both texts together are
the tokens of the first and, further on, those of the second (`tokenizeWith_append`).

A closed token does not look behind its end at all (`Scan.next_append_of_closedBefore`). The tokens
before it do look ahead, but a near-sighted one sees at most the first character of the closed
token, and a character literal looks no further than a name could reach. Every closed token has a
character that stands in no name, so the look ends there.
-/

namespace EdnTokens

open Character EdnTokens.Language Lexeme

/-! ### Closed tokens -/

/-- A token with the given text is closed before another text if it ends where it does without
looking at that text. Delimiters, dispatches of two characters, strings and comments with their line
feed end by themselves, and a run of separators ends before anything but a separator. -/
def TokenKind.ClosedBefore (ahead text : Text) : TokenKind → Prop
  | .leftParen | .rightParen | .leftBracket | .rightBracket | .leftBrace | .rightBrace => True
  | .set | .discard | .string => True
  | .comment => text.getLast? = some '\n'
  | .whitespace => ¬ ahead.head?.any isSeparator = true
  | _ => False

/-- The token is closed before a text. -/
def Token.ClosedBefore (ahead : Text) (t : Token) : Prop :=
  t.kind.ClosedBefore ahead t.text

namespace Scan

open Extent

variable {strict : Bool} {w t : Text}

/-- A comment that has its line feed ends there. -/
lemma comment_append_of_getLast? (hw : Comment w) (hfeed : w.getLast? = some '\n') :
    comment (w ++ t) = ⟨w.length, .token .comment⟩ := by
  obtain ⟨body, hbody, rfl | rfl⟩ := hw
  · -- without its line feed the comment would end with something else
    have hmem : '\n' ∈ ';' :: body := List.mem_of_getLast? hfeed
    rcases List.mem_cons.mp hmem with h | h
    · exact absurd h (by decide)
    · exact absurd h hbody
  · have hall : ∀ c ∈ ';' :: body, (c != '\n') = true := by
      intro c hc
      rw [bne_iff_ne]
      rintro rfl
      rcases List.mem_cons.mp hc with h | h
      · exact absurd h (by decide)
      · exact hbody h
    have hstop : run (· != '\n') ('\n' :: t) = 0 := by
      rw [run_cons, if_neg (by decide)]
    rw [comment, List.append_assoc, List.singleton_append, followedBy, run_append_of_forall hall,
      hstop, Nat.add_zero, List.drop_left, option_cons, if_pos (by decide), List.length_append,
      List.length_singleton]

/-- A run of separators ends before anything else. -/
lemma whitespace_append_of_head? (hw : Whitespace w) (ht : ¬ t.head?.any isSeparator = true) :
    whitespace (w ++ t) = ⟨w.length, .token .whitespace⟩ := by
  have hstop : run isSeparator t = 0 := by
    cases t with
    | nil => rfl
    | cons c t =>
      rw [run_cons]
      exact if_neg ht
  rw [whitespace, run_append_of_forall hw.2, hstop, Nat.add_zero]

/-- A closed token ends where it does whatever follows. -/
lemma next_append_of_closedBefore {kind : TokenKind} (hw : kind.Language w)
    (hclosed : kind.ClosedBefore t w) : next strict (w ++ t) = ⟨w.length, .token kind⟩ := by
  cases kind with
  | whitespace =>
    obtain ⟨c, u, rfl⟩ := List.exists_cons_of_ne_nil hw.1
    rw [List.cons_append, next_separator strict (hw.2 c List.mem_cons_self), ← List.cons_append]
    exact whitespace_append_of_head? hw hclosed
  | comment =>
    obtain ⟨u, rfl⟩ : ∃ u, w = ';' :: u := by
      obtain ⟨body, -, rfl | rfl⟩ := hw
      · exact ⟨body, rfl⟩
      · exact ⟨body ++ ['\n'], rfl⟩
    exact comment_append_of_getLast? hw hclosed
  | string =>
    obtain ⟨body, hbody, rfl⟩ := hw
    have hclose := closing?_append hbody 0 t
    rw [List.append_assoc, List.singleton_append, List.cons_append, next_quote]
    simp [string, hclose]
  | leftParen | rightParen | leftBracket | rightBracket | leftBrace | rightBrace | set | discard =>
    obtain rfl : w = _ := hw
    rfl
  | number | nilWord | trueWord | falseWord | symbol | keyword | character | tag | eof | lexError =>
    exact False.elim hclosed

/-- A closed token begins with a character that stands in no name. -/
lemma exists_not_isLetter_of_closedBefore {kind : TokenKind} (hw : kind.Language w)
    (hclosed : kind.ClosedBefore t w) : ∃ c ∈ w, ¬ isLetter c = true := by
  cases kind with
  | whitespace =>
    obtain ⟨c, u, rfl⟩ := List.exists_cons_of_ne_nil hw.1
    refine ⟨c, List.mem_cons_self, fun hc => ?_⟩
    have hrest : isSymbolRest c = true := by simp [isSymbolRest, isSymbolStart, hc]
    exact (not_separator_of_isSymbolRest hrest).1 (hw.2 c List.mem_cons_self)
  | comment =>
    obtain ⟨body, -, rfl | rfl⟩ := hw
    · exact ⟨';', List.mem_cons_self, by decide⟩
    · exact ⟨';', List.mem_cons_self, by decide⟩
  | string =>
    obtain ⟨body, -, rfl⟩ := hw
    exact ⟨'"', List.mem_cons_self, by decide⟩
  | leftParen | rightParen | leftBracket | rightBracket | leftBrace | rightBrace | set | discard =>
    obtain rfl : w = _ := hw
    exact ⟨_, List.mem_cons_self, by decide⟩
  | number | nilWord | trueWord | falseWord | symbol | keyword | character | tag | eof | lexError =>
    exact False.elim hclosed

end Scan

namespace Lexeme

variable {strict : Bool} {l : Lexeme} {t : Text}

/-- The text of a closed lexeme belongs to the language of its kind. -/
lemma language_of_closedBefore (hadmits : l.verdict.Admits strict l.text)
    (hclosed : l.kind.ClosedBefore t l.text) :
    l.verdict = .token l.kind ∧ l.kind.Language l.text := by
  have hkind : l.kind.isWord = false ∧ l.kind ≠ .lexError := by
    cases hk : l.kind <;> simp [hk, TokenKind.ClosedBefore, TokenKind.isWord] at hclosed ⊢
  have hverdict : l.verdict = .token l.kind := (kind_eq_iff hkind.1 hkind.2 l).mp rfl
  rw [hverdict] at hadmits
  exact ⟨hverdict, hadmits.2.1⟩

/-- A closed lexeme is read off whatever text it stands before. -/
lemma first_append_of_closedBefore (hadmits : l.verdict.Admits strict l.text)
    (hclosed : l.kind.ClosedBefore t l.text) : first strict (l.text ++ t) = l := by
  obtain ⟨hverdict, hlanguage⟩ := language_of_closedBefore hadmits hclosed
  have hnext : Scan.next strict (l.text ++ t) = ⟨l.text.length, .token l.kind⟩ :=
    Scan.next_append_of_closedBefore hlanguage hclosed
  rw [first, hnext, List.take_left, ← hverdict]

end Lexeme

/-! ### Lexemes -/

/-- A lexeme that can be read off first comes first. -/
lemma lexemes_append_of_first {strict : Bool} {l : Lexeme} {t : Text} (hne : l.text ≠ [])
    (h : first strict (l.text ++ t) = l) :
    lexemes strict (l.text ++ t) = l :: lexemes strict t := by
  have hne' : l.text ++ t ≠ [] := fun hnil => hne (List.append_eq_nil_iff.mp hnil).1
  rw [lexemes_of_ne_nil strict hne', h, List.drop_left]

/-- A lexeme with something other than a letter ahead is read off whatever is added behind. -/
lemma first_append_of_not_isLetter {strict : Bool} {s : Text} (hs : s ≠ []) {d : Char}
    (hd : d ∈ s.drop (first strict s).text.length) (hletter : ¬ isLetter d = true) (t : Text) :
    first strict (s ++ t) = first strict s := by
  have hlt : (first strict (s ++ [])).text.length < s.length := by
    have hpos := List.length_pos_of_mem hd
    rw [List.length_drop] at hpos
    rw [List.append_nil]
    omega
  -- the character ahead is no letter, so no name goes on beyond it
  have hnames : ∀ r, s = '\\' :: r → Scan.SettlesNames r := by
    rintro r rfl
    obtain ⟨n, hn⟩ :=
      Nat.exists_eq_add_one.mpr (List.length_pos_iff.mpr (text_first_ne_nil strict hs))
    rw [hn, List.drop_succ_cons] at hd
    exact Scan.settlesNames_of_mem (List.mem_of_mem_drop hd) hletter
  have hfirst := first_append_congr hlt hnames t
  rwa [List.append_nil] at hfirst

/-- A text whose last lexeme is closed has a character that is no letter. -/
lemma exists_not_isLetter_of_getLast? {strict : Bool} {s t : Text} (hs : s ≠ [])
    (h : ∀ l ∈ (lexemes strict s).getLast?, l.kind.ClosedBefore t l.text) :
    ∃ d ∈ s, ¬ isLetter d = true := by
  have hne : lexemes strict s ≠ [] := by
    rw [lexemes_of_ne_nil strict hs]
    exact List.cons_ne_nil _ _
  have hmem := List.getLast_mem hne
  have hclosed := h _ (List.getLast?_eq_some_getLast hne)
  have hlanguage := (language_of_closedBefore (admits_of_mem_lexemes hmem) hclosed).2
  obtain ⟨d, hd, hletter⟩ := Scan.exists_not_isLetter_of_closedBefore hlanguage hclosed
  refine ⟨d, ?_, hletter⟩
  rw [← flatMap_text_lexemes strict s]
  exact List.mem_flatMap.mpr ⟨_, hmem, hd⟩

/-- Behind a closed lexeme a text is read as it is on its own. -/
lemma lexemes_append_of_closedBefore {strict : Bool} {s t : Text}
    (h : ∀ l ∈ (lexemes strict s).getLast?, l.kind.ClosedBefore t l.text) :
    lexemes strict (s ++ t) = lexemes strict s ++ lexemes strict t := by
  fun_induction lexemes strict s with
  | case1 => rfl
  | case2 c s ih =>
    have hne : c :: s ≠ [] := List.cons_ne_nil c s
    have hne' : c :: s ++ t ≠ [] := List.cons_ne_nil c (s ++ t)
    -- the last lexeme stays the last one when the first one is taken off
    have hlater :
        ∀ l ∈ (lexemes strict ((c :: s).drop (first strict (c :: s)).text.length)).getLast?,
          l.kind.ClosedBefore t l.text := by
      intro l hl
      have hmem := List.mem_of_getLast? hl
      exact h l (by rwa [List.getLast?_cons_of_ne_nil (List.ne_nil_of_mem hmem)])
    have hfirst : first strict (c :: s ++ t) = first strict (c :: s) := by
      by_cases hlast : (c :: s).drop (first strict (c :: s)).text.length = []
      · -- the first lexeme is the last one, and it is closed
        have hclosed := h (first strict (c :: s)) (by rw [hlast, lexemes_nil]; rfl)
        have happend := text_first_append strict (c :: s)
        rw [hlast, List.append_nil] at happend
        have hread := first_append_of_closedBefore (admits_first strict hne) hclosed
        rwa [happend] at hread
      · -- the closed lexeme lies ahead, and the look of the first one ends there
        obtain ⟨d, hd, hletter⟩ := exists_not_isLetter_of_getLast? hlast hlater
        exact first_append_of_not_isLetter hne hd hletter t
    have hle : (first strict (c :: s)).text.length ≤ (c :: s).length := by
      have hlength := congrArg List.length (text_first_append strict (c :: s))
      rw [List.length_append] at hlength
      omega
    rw [lexemes_of_ne_nil strict hne', hfirst, List.drop_append_of_le_length hle, ih hlater,
      List.cons_append]

/-! ### Tokens -/

/-- The last of placed tokens before the end token comes from the last lexeme. -/
lemma Lexeme.getLast?_dropLast_place (start : Nat) (ls : List Lexeme) :
    ∃ offset, (place start ls).dropLast.getLast? = ls.getLast?.map (·.token offset) := by
  rcases List.eq_nil_or_concat ls with rfl | ⟨ls, l, rfl⟩
  · exact ⟨0, rfl⟩
  · refine ⟨start + (ls.flatMap Lexeme.text).length, ?_⟩
    rw [List.concat_eq_append, place_append]
    simp [place]

/-- Tokens behind a closed boundary are those of their own text. If the first text is empty, or its
last token is closed before the second text, then the tokens of both together are the tokens of the
first without the end token, and those of the second as far on as the first is long. -/
theorem tokenizeWith_append (options : Options) (s t : Text)
    (h : s = [] ∨ ∃ last, (tokenizeWith options s).dropLast.getLast? = some last ∧
      last.ClosedBefore t) :
    tokenizeWith options (s ++ t) =
      (tokenizeWith options s).dropLast ++
        (tokenizeWith options t).map (Token.movedOn s.length) := by
  simp only [tokenizeWith, tokens_ofText] at h ⊢
  have hclosed : ∀ l ∈ (lexemes options.strictEscapes s).getLast?,
      l.kind.ClosedBefore t l.text := by
    intro l hl
    rcases h with rfl | ⟨last, hlast, hclosed⟩
    · rw [lexemes_nil] at hl
      cases hl
    · obtain ⟨offset, hplace⟩ := getLast?_dropLast_place 1 (lexemes options.strictEscapes s)
      rw [hplace, Option.mem_def.mp hl, Option.map_some, Option.some.injEq] at hlast
      rw [← hlast] at hclosed
      exact hclosed
  rw [lexemes_append_of_closedBefore hclosed, place_append, flatMap_text_lexemes, place_add]

/-- The comment with its line feed keeps the second text from completing the name, and from the
number that a sign before a digit would be. -/
theorem tokenizeWith_append_partial_name :
    (tokenizeWith {} "\\newlin;+\n".toList).dropLast.getLast? =
        some ⟨.comment, ";+\n".toList, 8, .empty⟩ ∧
      tokenizeWith {} "\\newlin;+\n1e".toList =
        [⟨.character, "\\n".toList, 1, .empty⟩, ⟨.symbol, "ewlin".toList, 3, .empty⟩,
          ⟨.comment, ";+\n".toList, 8, .empty⟩] ++
            (tokenizeWith {} "1e".toList).map (Token.movedOn 10) := by
  have hlast : (tokenizeWith {} "\\newlin;+\n".toList).dropLast.getLast? =
      some ⟨.comment, ";+\n".toList, 8, .empty⟩ := by
    decide +kernel
  have happend := tokenizeWith_append {} "\\newlin;+\n".toList "1e".toList
    (Or.inr ⟨_, hlast, rfl⟩)
  have hbefore : (tokenizeWith {} "\\newlin;+\n".toList).dropLast =
      [⟨.character, "\\n".toList, 1, .empty⟩, ⟨.symbol, "ewlin".toList, 3, .empty⟩,
        ⟨.comment, ";+\n".toList, 8, .empty⟩] := by
    decide +kernel
  rw [hbefore] at happend
  exact ⟨hlast, happend⟩

end EdnTokens
