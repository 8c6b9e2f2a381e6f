import EdnTokens.Proofs.Grammar

/-!
# Checked escapes

Reading with checked escapes refines reading without: both split a text in the same places, and they
differ in nothing but the verdict on escapes that do not have all of their digits
(`tokenizeWith_strict_refines`).

Only the scanner of character literals knows about the check, and it takes the longest literal in
either case, so the texts of the tokens are the same. What is made of them then needs no second look
at the scanners. Each verdict admits its text, a text that is not empty has one verdict, and the
verdict of the unchecked reading stays admissible under the check unless it lets a broken escape
pass.
-/

namespace EdnTokens

open Character EdnTokens.Language Lexeme

/-! ### Widths -/

namespace Scan

/-- Only behind a backslash does it matter whether escapes are checked. -/
lemma next_eq_of_ne_backslash {c : Char} (hc : c ≠ '\\') (t : Text) (strict strict' : Bool) :
    next strict (c :: t) = next strict' (c :: t) := by
  simp only [next]
  cases hs : scannerFor? c t with
  | none => rfl
  | some scanner =>
    cases scanner with
    | character => exact absurd (eq_backslash_of_scannerFor? hs) hc
    | whitespace | number | symbol | string | keyword | comment | dispatch => rfl

/-- The check changes nothing in how much a token takes. -/
lemma width_next_eq (t : Text) (strict strict' : Bool) :
    (next strict t).width = (next strict' t).width := by
  cases t with
  | nil => rfl
  | cons c t =>
    by_cases hc : c = '\\'
    · subst hc
      rw [next_backslash, next_backslash]
      exact (measures_character strict t).unique (measures_character strict' t)
    · rw [next_eq_of_ne_backslash hc t strict strict']

end Scan

/-- The first lexeme has the same text whether or not escapes are checked. -/
lemma Lexeme.text_first_eq (t : Text) (strict strict' : Bool) :
    (first strict t).text = (first strict' t).text := by
  unfold first
  rw [Scan.width_next_eq t strict strict']

/-! ### Verdicts -/

namespace Verdict

variable {t : Text} {v v' : Verdict}

/-- No two verdicts admit the same text, since both would be the one that is found. -/
lemma Admits.unique {strict : Bool} (ht : t ≠ []) (h : v.Admits strict t)
    (h' : v'.Admits strict t) : v = v' := by
  have hscan := Scan.next_eq_of_admits ht h
  have hscan' := Scan.next_eq_of_admits ht h'
  exact congrArg Scan.verdict (hscan.symm.trans hscan')

/-- A verdict stays admissible when escapes are checked, unless it is that a broken escape is a
character. -/
lemma Admits.checked (h : v.Admits false t) (hv : ¬ (v = .token .character ∧ BrokenEscape t)) :
    v.Admits true t := by
  cases v with
  | token kind =>
    refine ⟨h.1, h.2.1, ?_⟩
    rintro ⟨-, rfl, hbroken⟩
    exact hv ⟨rfl, hbroken⟩
  | word => exact h
  | error type => exact ⟨h.1, fun _ => rfl⟩

/-- With unchecked escapes nothing is malformed for want of digits. -/
lemma Admits.ne_invalidCharacterEscape (h : v.Admits false t) :
    v ≠ .error (some .invalidCharacterEscape) := by
  rintro rfl
  exact absurd (h.2 rfl) (by decide)

end Verdict

/-! ### Lexemes -/

/-- Two lexemes of one text, the first read without the check and the second with it. -/
structure Lexeme.Rechecked (l l' : Lexeme) : Prop where
  ne_nil : l.text ≠ []
  text : l'.text = l.text
  unchecked : l.verdict.Admits false l.text
  checked : l'.verdict.Admits true l.text

/-- Under a check of escapes the first lexeme is the same, or a character that is found broken. -/
lemma Lexeme.rechecked_first {t : Text} (ht : t ≠ []) :
    Rechecked (first false t) (first true t) where
  ne_nil := text_first_ne_nil false ht
  text := text_first_eq t true false
  unchecked := admits_first false ht
  checked := by
    rw [text_first_eq t false true]
    exact admits_first true ht

/-- Both readings split a text in the same places. -/
lemma forall₂_rechecked_lexemes (t : Text) :
    List.Forall₂ Rechecked (lexemes false t) (lexemes true t) := by
  fun_induction lexemes false t with
  | case1 =>
    rw [lexemes_nil]
    exact .nil
  | case2 c t ih =>
    have ht : c :: t ≠ [] := List.cons_ne_nil c t
    rw [lexemes_of_ne_nil true ht, text_first_eq (c :: t) true false]
    exact .cons (rechecked_first ht) ih

namespace Lexeme.Rechecked

variable {l l' : Lexeme}

/-- The check refuses a broken escape. -/
lemma verdict_eq (h : Rechecked l l') (hbroken : BrokenEscape l.text) :
    l'.verdict = .error (some .invalidCharacterEscape) := by
  have hrefused : Verdict.Admits true l.text (.error (some .invalidCharacterEscape)) :=
    ⟨hbroken, fun _ => rfl⟩
  exact h.checked.unique h.ne_nil hrefused

/-- The check keeps everything else. -/
lemma eq_of_not_broken (h : Rechecked l l')
    (hv : ¬ (l.verdict = .token .character ∧ BrokenEscape l.text)) : l' = l := by
  have hverdict := h.checked.unique h.ne_nil (h.unchecked.checked hv)
  obtain ⟨text, v⟩ := l
  obtain ⟨text', v'⟩ := l'
  rw [Lexeme.mk.injEq]
  exact ⟨h.text, hverdict⟩

end Lexeme.Rechecked

/-! ### Tokens -/

/-- The text has anything but all of its digits behind the letter of an escape: four hexadecimal
digits behind `u`, three octal ones behind `o`. -/
def Language.LacksDigits (t : Text) : Prop :=
  (∃ u, t = '\\' :: 'u' :: u ∧ ¬ (u.length = 4 ∧ ∀ c ∈ u, isHexDigit c)) ∨
    ∃ u, t = '\\' :: 'o' :: u ∧ ¬ (u.length = 3 ∧ ∀ c ∈ u, isOctalDigit c)

/-- A literal never has more characters behind the letter of an escape than there are digits, so it
is a broken escape as soon as it lacks some. -/
lemma Language.brokenEscape_iff_lacksDigits {t : Text} (h : CharacterLiteral t) :
    BrokenEscape t ↔ LacksDigits t := by
  constructor
  · rintro (⟨u, hu, -, hdigits⟩ | ⟨u, hu, -, hdigits⟩)
    · exact Or.inl ⟨u, hu, hdigits⟩
    · exact Or.inr ⟨u, hu, hdigits⟩
  · rintro (⟨u, rfl, hdigits⟩ | ⟨u, rfl, hdigits⟩)
    · refine Or.inl ⟨u, rfl, ?_, hdigits⟩
      cases h with
      -- the letter of an escape by itself has no characters behind it
      | single => exact Nat.zero_le 4
      | named hname => simp [names] at hname
      | unicode hle => exact hle
    · refine Or.inr ⟨u, rfl, ?_, hdigits⟩
      cases h with
      | single => exact Nat.zero_le 3
      | named hname => simp [names] at hname
      | octal hle => exact hle

namespace Token

/-- The token is a character that is an escape without all of its digits. -/
def HasBrokenEscape (t : Token) : Prop :=
  t.kind = .character ∧ LacksDigits t.text

/-- What the check makes of a token. It keeps its place and its text, and unless it is a broken
escape it stays what it is. The broken escapes, and only they, are malformed for want of digits. -/
structure CheckedAs (unchecked checked : Token) : Prop where
  start : checked.start = unchecked.start
  text : checked.text = unchecked.text
  kept : ¬ unchecked.HasBrokenEscape → checked = unchecked
  refused_iff : checked.isError = true ∧ checked.errorType? = some .invalidCharacterEscape ↔
    unchecked.HasBrokenEscape

/-- A token that is no broken escape, and not malformed like one, passes the check. -/
lemma checkedAs_self {t : Token} (hescape : ¬ t.HasBrokenEscape)
    (htype : ¬ (t.isError = true ∧ t.errorType? = some .invalidCharacterEscape)) :
    t.CheckedAs t where
  start := rfl
  text := rfl
  kept _ := rfl
  refused_iff := iff_of_false htype hescape

end Token

namespace Lexeme

variable {l l' : Lexeme}

/-- A token has a broken escape exactly if it is a character literal with one. -/
lemma hasBrokenEscape_token_iff (h : l.verdict.Admits false l.text) (start : Nat) :
    (l.token start).HasBrokenEscape ↔ l.verdict = .token .character ∧ BrokenEscape l.text := by
  have hkind : l.kind = .character ↔ l.verdict = .token .character := kind_eq_iff rfl (by decide) l
  unfold Token.HasBrokenEscape
  simp only [token, hkind]
  refine and_congr_right fun hv => ?_
  rw [hv] at h
  exact (brokenEscape_iff_lacksDigits h.2.1).symm

/-- What a check makes of a lexeme it makes of the token as well. -/
lemma checkedAs_token (h : Rechecked l l') (start : Nat) :
    (l.token start).CheckedAs (l'.token start) := by
  have hescape := hasBrokenEscape_token_iff h.unchecked start
  by_cases hv : l.verdict = .token .character ∧ BrokenEscape l.text
  · have hverdict := h.verdict_eq hv.2
    have herror : (l'.token start).isError = true :=
      (isError_token_iff (h.text ▸ h.checked) start).mpr ⟨_, hverdict⟩
    have htype := errorType?_token hverdict start
    exact ⟨rfl, h.text, fun hkept => absurd (hescape.mpr hv) hkept,
      iff_of_true ⟨herror, htype⟩ (hescape.mpr hv)⟩
  · obtain rfl := h.eq_of_not_broken hv
    apply Token.checkedAs_self
    · rwa [hescape]
    · rintro ⟨herror, htype⟩
      obtain ⟨type, herror⟩ := (isError_token_iff h.unchecked start).mp herror
      rw [errorType?_token herror] at htype
      rw [htype] at herror
      exact h.unchecked.ne_invalidCharacterEscape herror

/-- Lexemes that differ by the check have tokens that differ by the check, wherever they are
placed. -/
lemma forall₂_checkedAs_place {ls ls' : List Lexeme} (h : List.Forall₂ Rechecked ls ls')
    (start : Nat) : List.Forall₂ Token.CheckedAs (place start ls) (place start ls') := by
  induction h generalizing start with
  | nil =>
    have heof : (Token.eof start).CheckedAs (.eof start) :=
      Token.checkedAs_self (fun hescape => nomatch hescape.1) fun herror => nomatch herror.1
    exact .cons heof .nil
  | @cons l l' ls ls' hl _ ih =>
    rw [place, place, hl.text]
    exact .cons (checkedAs_token hl start) (ih _)

end Lexeme

/-- Reading with checked escapes refines reading without them, token by token: there are as many
tokens, with the same places and texts, and they are the same tokens except for the escapes that do
not have all of their digits. These, and no others, are malformed for want of digits. -/
theorem tokenizeWith_strict_refines (source : Text) (report report' : Bool) :
    List.Forall₂ Token.CheckedAs (tokenizeWith { strictEscapes := false, report } source)
      (tokenizeWith { strictEscapes := true, report := report' } source) := by
  rw [tokenizeWith, tokenizeWith, tokens_ofText, tokens_ofText]
  exact forall₂_checkedAs_place (forall₂_rechecked_lexemes source) 1

/-- The first escape has a wrong digit, the second has all of its digits. -/
example : (tokenizeWith { strictEscapes := true } "\\u12G4\\o101".toList).map Token.errorType? =
    [some .invalidCharacterEscape, none, none] := by
  decide +kernel

end EdnTokens
