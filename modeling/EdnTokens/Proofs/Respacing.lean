import EdnTokens.Proofs.Concatenation

/-!
# Respacing

How the significant tokens of a text are spaced does not matter: take them out, put any separators
between neighbours, and the new text has the same significant tokens
(`content_tokenizeWith_joinWith`).

A separator ends what stands before it, as the end of the text would. The scanners that run over a
class of characters do not see the difference, because no separator belongs to a class they run over
(`Extent.EndsAtSeparators`). Those that wait for a quote or count characters would take the
separator along, but only where the end of the text has cut them off (`Scan.CutOff`). Then anything
else that follows is taken along as well. So a token that had other text behind it was not cut off,
and the last token never gets a separator behind it.
-/

namespace EdnTokens

open Character EdnTokens.Language Lexeme

/-- A class of characters leaves out separators if none of them belongs to it. -/
def Character.LeavesOutSeparators (p : Char → Bool) : Prop :=
  ∀ c, isSeparator c = true → ¬ p c = true

/-- There are five separators, so a class leaves them out if it leaves out these. -/
lemma Character.leavesOutSeparators_of_any {p : Char → Bool}
    (hp : [' ', '\t', '\n', '\r', ','].any p = false) : LeavesOutSeparators p := by
  intro c hc
  rw [List.any_eq_false] at hp
  apply hp
  simp only [isSeparator, Bool.or_eq_true, beq_iff_eq] at hc
  simp only [List.mem_cons, List.not_mem_nil, or_false]
  tauto

namespace Extent

/-! ### Extents that end at separators -/

/-- An extent ends at separators if a separator is to it what the end of the text is. -/
structure EndsAtSeparators (m : Extent) : Prop where
  fits : Fits m
  append : ∀ (w : Text) (c : Char) (u : Text), isSeparator c = true → m (w ++ c :: u) = m w

/-- A run ends at a separator if none belongs to its class. -/
lemma endsAtSeparators_run {p : Char → Bool} (hp : LeavesOutSeparators p) :
    EndsAtSeparators (run p) where
  fits := fits_run p
  append := by
    intro w c u hc
    induction w with
    | nil =>
      rw [List.nil_append, run_cons, if_neg (hp c hc)]
      rfl
    | cons d w ih => rw [List.cons_append, run_cons, run_cons, ih]

/-- A character that is no separator, and what ends at separators behind it. -/
lemma endsAtSeparators_after {p : Char → Bool} (hp : LeavesOutSeparators p) {m : Extent}
    (hm : EndsAtSeparators m) : EndsAtSeparators (after p m) where
  fits := fits_after p hm.fits
  append := by
    intro w c u hc
    cases w with
    | nil => exact if_neg (hp c hc)
    | cons d w => rw [List.cons_append, after, after, hm.append w c u hc]

/-- An optional character that is no separator is not there if a separator is. -/
lemma endsAtSeparators_option {p : Char → Bool} (hp : LeavesOutSeparators p) :
    EndsAtSeparators (option p) :=
  endsAtSeparators_after hp ⟨fun _ => Nat.zero_le _, fun _ _ _ _ => rfl⟩

/-- The second of two extents meets the separator where the first one has not. -/
lemma endsAtSeparators_followedBy {m n : Extent} (hm : EndsAtSeparators m)
    (hn : EndsAtSeparators n) : EndsAtSeparators (followedBy m n) where
  fits := fits_followedBy hm.fits hn.fits
  append := by
    intro w c u hc
    rw [followedBy, hm.append w c u hc, List.drop_append_of_le_length (hm.fits w),
      hn.append _ c u hc, followedBy]

end Extent

namespace Scan

open Extent

variable {w x u : Text} {c : Char}

/-! ### Numbers and names -/

/-- Digits end at separators. -/
lemma endsAtSeparators_digits : EndsAtSeparators digits :=
  endsAtSeparators_run (leavesOutSeparators_of_any (by decide))

/-- Exponents and radix digits end at separators. -/
lemma endsAtSeparators_magnitude : EndsAtSeparators magnitude where
  fits := fun t => (measures_magnitude t).le
  append := by
    intro w c u hc
    have hmark : LeavesOutSeparators fun c => c == 'E' || c == 'e' :=
      leavesOutSeparators_of_any (by decide)
    have hexponent := endsAtSeparators_after hmark endsAtSeparators_digits
    have hradix : EndsAtSeparators (run isAlphanumeric) :=
      endsAtSeparators_run (leavesOutSeparators_of_any (by decide))
    -- only the mark of a radix is looked at by itself; everything else is an exponent or nothing
    cases w with
    | nil =>
      have hne : c ≠ 'r' := by
        rintro rfl
        cases hc
      rw [List.nil_append, magnitude_cons_of_ne hne]
      exact hexponent.append [] c u hc
    | cons d w =>
      by_cases hd : d = 'r'
      · subst hd
        exact congrArg (· + 1) (hradix.append w c u hc)
      · rw [List.cons_append, magnitude_cons_of_ne hd, magnitude_cons_of_ne hd]
        exact hexponent.append (d :: w) c u hc

/-- All parts of a number end at separators, and so does the number. -/
lemma endsAtSeparators_numeral : EndsAtSeparators numeral :=
  endsAtSeparators_followedBy
    (endsAtSeparators_option (leavesOutSeparators_of_any (by decide))) <|
  endsAtSeparators_followedBy endsAtSeparators_digits <|
  endsAtSeparators_followedBy
    (endsAtSeparators_after (leavesOutSeparators_of_any (by decide)) endsAtSeparators_digits) <|
  endsAtSeparators_followedBy endsAtSeparators_magnitude
    (endsAtSeparators_option (leavesOutSeparators_of_any (by decide)))

/-- A class that leaves out separators does not tell a separator from the end. -/
lemma any_head?_append_separator {p : Char → Bool} (hp : LeavesOutSeparators p)
    (hc : isSeparator c = true) : (w ++ c :: u).head?.any p = w.head?.any p := by
  cases w with
  | nil => exact Bool.eq_false_iff.mpr (hp c hc)
  | cons d w => rfl

/-- A separator behind a number does not spoil it. -/
lemma number_append_separator (hc : isSeparator c = true) : number (w ++ c :: u) = number w := by
  have hfits := endsAtSeparators_numeral.fits w
  simp only [number]
  rw [endsAtSeparators_numeral.append w c u hc, List.drop_append_of_le_length hfits,
    any_head?_append_separator (leavesOutSeparators_of_any (by decide)) hc]

/-- Names end at separators. -/
lemma endsAtSeparators_run_isSymbolRest : EndsAtSeparators (run isSymbolRest) :=
  endsAtSeparators_run (leavesOutSeparators_of_any (by decide))

/-- A symbol does not see a separator behind it. -/
lemma symbol_append_separator (a : Char) (hc : isSeparator c = true) :
    symbol (a :: w ++ c :: u) = symbol (a :: w) := by
  rw [List.cons_append, symbol_cons, symbol_cons,
    endsAtSeparators_run_isSymbolRest.append w c u hc]

/-- A text without separators stands before a separator, or it does not stand there at all. -/
lemma prefix_append_separator_iff {v : Text} (hv : ∀ d ∈ v, ¬ isSeparator d = true)
    (hc : isSeparator c = true) : v <+: w ++ c :: u ↔ v <+: w := by
  constructor
  · intro hprefix
    by_contra hnot
    -- otherwise it goes on at least to the separator
    have hlong : (w ++ [c]).length ≤ v.length := by
      rw [List.length_append, List.length_singleton]
      by_contra hshort
      exact hnot (List.prefix_of_prefix_length_le hprefix (List.prefix_append w _) (by omega))
    have hinside : w ++ [c] <+: v :=
      List.prefix_of_prefix_length_le ⟨u, by simp⟩ hprefix hlong
    exact hv c (hinside.subset (by simp)) hc
  · intro hprefix
    exact hprefix.trans (List.prefix_append w _)

/-- The first character of a keyword is taken whatever it is. -/
lemma keyword_cons_eq (a : Char) (t : Text) : keyword (a :: t) = keyword (':' :: t) := by
  simp only [keyword, followedBy, upTo, List.take_succ_cons, List.take_zero, List.length_singleton,
    List.drop_succ_cons, List.drop_zero, Nat.add_comm 1]

/-- A keyword does not see a separator behind it, since none is a colon. -/
lemma keyword_append_separator (a : Char) (hc : isSeparator c = true) :
    keyword (a :: w ++ c :: u) = keyword (a :: w) := by
  have hcolons : [':', ':'] <+: w ++ c :: u ↔ [':', ':'] <+: w :=
    prefix_append_separator_iff (by simp [isSeparator]) hc
  rw [List.cons_append, keyword_cons_eq, keyword_cons_eq a w, keyword_cons, keyword_cons,
    endsAtSeparators_run_isSymbolRest.append w c u hc]
  simp only [hcolons]

/-- A malformed dispatch runs to the next separator in any case. -/
lemma dispatch_append_separator (a : Char) (hc : isSeparator c = true) :
    dispatch (a :: w ++ c :: u) = dispatch (a :: w) := by
  have hmalformed : EndsAtSeparators (run fun d => !isSeparator d) :=
    endsAtSeparators_run (leavesOutSeparators_of_any (by decide))
  rw [List.cons_append, dispatch_eq a, dispatch_eq a]
  cases w with
  | nil =>
    have hset : c ≠ '\x7b' := by
      rintro rfl
      cases hc
    have hdiscard : c ≠ '_' := by
      rintro rfl
      cases hc
    have hletter : ¬ isLetter c = true := leavesOutSeparators_of_any (by decide) c hc
    rw [List.nil_append, dispatch_cons, if_neg hset, if_neg hdiscard, if_neg hletter,
      ← List.nil_append (c :: u), hmalformed.append [] c u hc]
    rfl
  | cons d w =>
    rw [List.cons_append, dispatch_cons, dispatch_cons, ← List.cons_append,
      hmalformed.append (d :: w) c u hc, endsAtSeparators_run_isSymbolRest.append (d :: w) c u hc]

/-! ### Strings and characters -/

/-- A text is cut off if it is a string or a character literal that wants more than there is. -/
inductive CutOff : Text → Prop
  | string {t : Text} (h : closing? 0 t = none) : CutOff ('"' :: t)
  | backslash : CutOff ['\\']
  | unicode {t : Text} (h : t.length < 4) : CutOff ('\\' :: 'u' :: t)
  | octal {t : Text} (h : t.length < 3) : CutOff ('\\' :: 'o' :: t)

/-- What is cut off takes some of whatever follows. -/
lemma CutOff.length_lt_width_next (h : CutOff w) (strict : Bool) (hx : x ≠ []) :
    w.length < (next strict (w ++ x)).width := by
  have hpos : 0 < x.length := List.length_pos_iff.mpr hx
  cases h with
  | @string t h =>
    rw [List.cons_append, next_quote]
    simp only [Scan.string, List.drop_succ_cons, List.drop_zero]
    cases hclose : closing? 0 (t ++ x) with
    | none =>
      simp only [List.length_cons, List.length_append]
      omega
    | some n =>
      -- the quote does not stand in `t`, which has none
      have hn : ¬ n ≤ 0 + t.length := by
        intro hn
        have hinside := closing?_append_congr (y := []) hclose hn
        rw [List.append_nil, h] at hinside
        cases hinside
      simp only [List.length_cons]
      omega
  | backslash =>
    obtain ⟨e, x, rfl⟩ := List.exists_cons_of_ne_nil hx
    exact two_le_width_character strict e x
  | @unicode t h =>
    simp only [List.cons_append, next_backslash, character_unicode, characterEscape,
      List.length_cons, List.length_take, List.length_append]
    omega
  | @octal t h =>
    simp only [List.cons_append, next_backslash, character_octal, characterEscape,
      List.length_cons, List.length_take, List.length_append]
    omega

/-- A string that is closed does not see what follows. -/
lemma string_append_separator (h : ¬ CutOff ('"' :: w)) :
    string ('"' :: w ++ c :: u) = string ('"' :: w) := by
  cases hclose : closing? 0 w with
  | none => exact absurd (.string hclose) h
  | some n =>
    obtain ⟨inside, rest, hinside, rfl, rfl⟩ := exists_of_closing? hclose
    have hagain := closing?_append hinside 0 (rest ++ c :: u)
    simp only [string, List.cons_append, List.append_assoc, List.drop_succ_cons, List.drop_zero,
      hagain, closing?_append hinside 0 rest]

/-- No separator stands in a name. -/
lemma find?_names_append_separator (hc : isSeparator c = true) :
    names.find? (·.isPrefixOf (w ++ c :: u)) = names.find? (·.isPrefixOf w) := by
  apply find?_names_congr
  intro name hname
  have hseparators : ∀ d ∈ name, ¬ isSeparator d = true := by
    intro d hd hseparator
    have hletter : ¬ isLetter d = true := leavesOutSeparators_of_any (by decide) d hseparator
    exact hletter (isLetter_of_mem_names hname d hd)
  rw [Bool.eq_iff_iff, List.isPrefixOf_iff_prefix, List.isPrefixOf_iff_prefix,
    prefix_append_separator_iff hseparators hc]

/-- A character literal that is not cut off does not see a separator behind it. -/
lemma character_append_separator (strict : Bool) (hc : isSeparator c = true)
    (h : ¬ CutOff ('\\' :: w)) :
    character strict ('\\' :: w ++ c :: u) = character strict ('\\' :: w) := by
  cases w with
  | nil => exact absurd .backslash h
  | cons d w =>
    have hname := find?_names_append_separator (w := d :: w) (u := u) hc
    simp only [character, List.cons_append, List.drop_succ_cons, List.drop_zero] at hname ⊢
    rw [hname]
    split
    · rfl
    · -- an escape that is not cut off has all of its digits, and looks no further
      by_cases hu : d = 'u'
      · subst hu
        have hcount : 4 ≤ w.length := Nat.le_of_not_lt fun hlt => h (.unicode hlt)
        have hescape :=
          characterEscape_append_congr (x := []) (y := c :: u) strict isHexDigit hcount
        rwa [List.append_nil] at hescape
      · by_cases ho : d = 'o'
        · subst ho
          have hcount : 3 ≤ w.length := Nat.le_of_not_lt fun hlt => h (.octal hlt)
          have hescape :=
            characterEscape_append_congr (x := []) (y := c :: u) strict isOctalDigit hcount
          rwa [List.append_nil] at hescape
        · simp [hu, ho, upTo]

/-! ### The next token -/

/-- A sign before a separator begins a number as little as a sign at the end. -/
lemma scannerFor?_append_separator (a : Char) (hc : isSeparator c = true) :
    scannerFor? a (w ++ c :: u) = scannerFor? a w := by
  have hdigit : (w ++ c :: u).head?.any isDigit = w.head?.any isDigit :=
    any_head?_append_separator (leavesOutSeparators_of_any (by decide)) hc
  have hstart : isNumberStart a (w ++ c :: u).head? = isNumberStart a w.head? := by
    rw [isNumberStart, isNumberStart, hdigit]
  rw [scannerFor?, scannerFor?, hstart]

/-- Each scanner but those of separators and comments takes as much before a separator as it does
before the end, if the text is not cut off. -/
lemma ofFamily_append_separator (strict : Bool) {a : Char} {scanner : Scanner}
    (hs : scannerFor? a w = some scanner) (hc : isSeparator c = true) (hcut : ¬ CutOff (a :: w))
    (hwhitespace : scanner ≠ .whitespace) (hcomment : scanner ≠ .comment) :
    ofFamily strict scanner (a :: w ++ c :: u) = ofFamily strict scanner (a :: w) := by
  cases scanner with
  | whitespace => exact absurd rfl hwhitespace
  | comment => exact absurd rfl hcomment
  | number => rw [ofFamily, number_append_separator hc]
  | symbol => exact symbol_append_separator a hc
  | keyword => exact keyword_append_separator a hc
  | dispatch => exact dispatch_append_separator a hc
  | string =>
    obtain rfl := eq_quote_of_scannerFor? hs
    exact string_append_separator hcut
  | character =>
    obtain rfl := eq_backslash_of_scannerFor? hs
    exact character_append_separator strict hc hcut

/-- A text that is not cut off is read before a separator as it is on its own, unless separators may
belong to it. -/
lemma next_append_separator (strict : Bool) (hw : w ≠ []) (hc : isSeparator c = true)
    (hcut : ¬ CutOff w) (hwhitespace : (next strict w).verdict ≠ .token .whitespace)
    (hcomment : (next strict w).verdict ≠ .token .comment) :
    next strict (w ++ c :: u) = next strict w := by
  obtain ⟨a, w, rfl⟩ := List.exists_cons_of_ne_nil hw
  simp only [List.cons_append, next] at hwhitespace hcomment ⊢
  rw [scannerFor?_append_separator a hc]
  cases hs : scannerFor? a w with
  | none => rfl
  | some scanner =>
    rw [hs] at hwhitespace hcomment
    refine ofFamily_append_separator strict hs hc hcut ?_ ?_
    · rintro rfl
      exact hwhitespace rfl
    · rintro rfl
      exact hcomment rfl

end Scan

/-! ### Significant tokens -/

/-- Whether tokens of the kind mean something: blanks, comments and the end do not. -/
def TokenKind.isSignificant : TokenKind → Bool
  | .whitespace | .comment | .eof => false
  | _ => true

/-- What a token is apart from its place. -/
def Token.content (t : Token) : TokenKind × Text × Attributes :=
  (t.kind, t.text, t.attributes)

/-- Texts in order, with gaps between neighbours. -/
def Text.joinWith (gap : Nat → Text) : List Text → Text
  | [] => []
  | [t] => t
  | t :: t' :: ts => t ++ (gap 0 ++ joinWith (fun i => gap (i + 1)) (t' :: ts))

/-- Joined texts begin as the first of them does. -/
lemma Text.head?_joinWith_cons (gap : Nat → Text) {t : Text} (ht : t ≠ []) (ts : List Text) :
    (Text.joinWith gap (t :: ts)).head? = t.head? := by
  obtain ⟨c, t, rfl⟩ := List.exists_cons_of_ne_nil ht
  cases ts with
  | nil => rfl
  | cons t' ts => rfl

section Lexemes

variable {strict : Bool} {l : Lexeme} {x : Text}

/-- Significant lexemes do not begin with a separator. -/
lemma head?_text_of_isSignificant {t : Text} (hl : l ∈ lexemes strict t)
    (hkind : l.kind.isSignificant = true) : ¬ l.text.head?.any isSeparator = true := by
  revert hkind
  refine forall_mem_lexemes (p := fun l => l.kind.isSignificant = true →
    ¬ l.text.head?.any isSeparator = true) (fun t ht hkind => ?_) t l hl
  obtain ⟨c, t, rfl⟩ := List.exists_cons_of_ne_nil ht
  obtain ⟨d, u, hcons⟩ := List.exists_cons_of_ne_nil (text_first_ne_nil strict ht)
  have happend := text_first_append strict (c :: t)
  rw [hcons, List.cons_append] at happend
  obtain rfl : c = d := (List.cons.inj happend).1.symm
  rw [hcons]
  intro hseparator
  have hwhitespace : (first strict (c :: t)).kind = .whitespace := by
    rw [kind, first, Scan.next_separator strict hseparator]
    rfl
  rw [hwhitespace] at hkind
  cases hkind

/-- A significant lexeme with text behind it is also read off before a separator. -/
lemma first_text_append_separator {t : Text} (hrest : t.drop (first strict t).text.length ≠ [])
    (hkind : (first strict t).kind.isSignificant = true) {c : Char} (hc : isSeparator c = true)
    (u : Text) : first strict ((first strict t).text ++ c :: u) = first strict t := by
  have ht : t ≠ [] := by
    rintro rfl
    exact hrest List.drop_nil
  have hne := text_first_ne_nil strict ht
  have halone := Scan.next_eq_of_admits hne (admits_first strict ht)
  -- something is left over, so the scanner did not run into the end of the text
  have hcut : ¬ Scan.CutOff (first strict t).text := by
    intro hcut
    have hlt := hcut.length_lt_width_next strict hrest
    have hleft := List.length_pos_iff.mpr hrest
    rw [text_first_append] at hlt
    rw [List.length_drop] at hleft
    simp only [first, List.length_take] at hlt hleft
    omega
  have hother : ∀ kind, (first strict t).verdict = .token kind → kind.isSignificant = true := by
    intro kind hv
    rwa [Lexeme.kind, hv] at hkind
  have hnext : Scan.next strict ((first strict t).text ++ c :: u) =
      ⟨(first strict t).text.length, (first strict t).verdict⟩ := by
    rw [← halone]
    refine Scan.next_append_separator strict hne hc hcut ?_ ?_
    · rw [halone]
      exact fun hv => absurd (hother _ hv) (by decide)
    · rw [halone]
      exact fun hv => absurd (hother _ hv) (by decide)
  rw [first, hnext, List.take_left]

/-- Separators before something else are one lexeme. -/
lemma lexemes_whitespace_append {gap : Text} (hgap : Whitespace gap)
    (hx : ¬ x.head?.any isSeparator = true) :
    lexemes strict (gap ++ x) = ⟨gap, .token .whitespace⟩ :: lexemes strict x := by
  have hadmits : Verdict.Admits strict gap (.token .whitespace) := ⟨rfl, hgap, by simp⟩
  exact lexemes_append_of_first (l := ⟨gap, .token .whitespace⟩) hgap.1
    (first_append_of_closedBefore (l := ⟨gap, .token .whitespace⟩) hadmits hx)

/-- A significant lexeme with text behind it is also the first one before a gap. -/
lemma lexemes_joinWith_text_first {t : Text} (hrest : t.drop (first strict t).text.length ≠ [])
    (hkind : (first strict t).kind.isSignificant = true) {gap : Nat → Text}
    (hgap : Whitespace (gap 0)) {t' : Text} (ht' : t' ≠ [])
    (hhead : ¬ t'.head?.any isSeparator = true) (ts : List Text) :
    lexemes strict (Text.joinWith gap ((first strict t).text :: t' :: ts)) =
      first strict t :: ⟨gap 0, .token .whitespace⟩ ::
        lexemes strict (Text.joinWith (fun i => gap (i + 1)) (t' :: ts)) := by
  have hne : (first strict t).text ≠ [] := by
    refine text_first_ne_nil strict ?_
    rintro rfl
    exact hrest List.drop_nil
  have hread : ∀ u, first strict ((first strict t).text ++ (gap 0 ++ u)) = first strict t := by
    intro u
    obtain ⟨c, rest, hcons⟩ := List.exists_cons_of_ne_nil hgap.1
    have hc : isSeparator c = true := hgap.2 c (by rw [hcons]; exact List.mem_cons_self)
    rw [hcons]
    exact first_text_append_separator hrest hkind hc (rest ++ u)
  rw [← Text.head?_joinWith_cons (fun i => gap (i + 1)) ht' ts] at hhead
  rw [Text.joinWith, lexemes_append_of_first hne (hread _), lexemes_whitespace_append hgap hhead]

/-- Reading significant lexemes with gaps between them gives them back. -/
lemma filter_lexemes_joinWith (source : Text) {gap : Nat → Text} (hgap : ∀ i, Whitespace (gap i)) :
    (lexemes strict (Text.joinWith gap
        (((lexemes strict source).filter (·.kind.isSignificant)).map Lexeme.text))).filter
          (fun l => l.kind != .whitespace && l.kind != .eof) =
      (lexemes strict source).filter (·.kind.isSignificant) := by
  have hkept : ∀ {l : Lexeme}, l.kind.isSignificant = true →
      (l.kind != .whitespace && l.kind != .eof) = true := by
    intro l hkind
    cases hk : l.kind <;> simp [hk, TokenKind.isSignificant] at hkind ⊢
  fun_induction lexemes strict source generalizing gap with
  | case1 => rw [List.filter_nil, List.map_nil, Text.joinWith, lexemes_nil, List.filter_nil]
  | case2 c t ih =>
    have hne : c :: t ≠ [] := List.cons_ne_nil c t
    by_cases hkind : (first strict (c :: t)).kind.isSignificant = true
    · rw [List.filter_cons, if_pos hkind, List.map_cons]
      cases hlater : (lexemes strict ((c :: t).drop (first strict (c :: t)).text.length)).filter
          (·.kind.isSignificant) with
      | nil =>
        -- the last significant lexeme stands alone
        rw [List.map_nil, Text.joinWith, lexemes_text_first strict hne, List.filter_cons,
          if_pos (hkept hkind), List.filter_nil]
      | cons l ls =>
        obtain ⟨hl, hlkind⟩ := List.mem_filter.mp (hlater ▸ List.mem_cons_self (a := l) (l := ls))
        have hrest : (c :: t).drop (first strict (c :: t)).text.length ≠ [] := by
          intro hnil
          rw [hnil, lexemes_nil] at hl
          exact absurd hl List.not_mem_nil
        have hlne : l.text ≠ [] := forall_mem_lexemes (p := fun l => l.text ≠ [])
          (fun _ => text_first_ne_nil strict) _ l hl
        have hlexemes := lexemes_joinWith_text_first hrest hkind (hgap 0) hlne
          (head?_text_of_isSignificant hl hlkind) (ls.map Lexeme.text)
        have hlast := ih fun i => hgap (i + 1)
        rw [hlater, List.map_cons] at hlast
        rw [List.map_cons, hlexemes, List.filter_cons, if_pos (hkept hkind), List.filter_cons,
          if_neg (by simp [Lexeme.kind]), hlast]
    · rw [List.filter_cons, if_neg hkind]
      exact ih hgap

end Lexemes

/-! ### Tokens -/

/-- What is kept of placed lexemes by their kinds does not depend on their places. -/
lemma Lexeme.map_filter_place {β : Type} {f : Token → β} {g : Lexeme → β}
    (hfg : ∀ l n, f (l.token n) = g l) {p : TokenKind → Bool} (hp : p .eof = false) (start : Nat)
    (ls : List Lexeme) :
    ((place start ls).filter (p ·.kind)).map f = (ls.filter (p ·.kind)).map g := by
  induction ls generalizing start with
  | nil => simp [place, Token.eof, hp]
  | cons l ls ih =>
    have hkind : (l.token start).kind = l.kind := rfl
    rw [place, List.filter_cons, List.filter_cons, hkind]
    by_cases hl : p l.kind = true
    · rw [if_pos hl, if_pos hl, List.map_cons, List.map_cons, ih, hfg]
    · rw [if_neg hl, if_neg hl, ih]

/-- Respacing keeps the significant tokens. Their texts, with any separators between neighbours,
have the same significant tokens and, but for blanks and the end, no others. -/
theorem content_tokenizeWith_joinWith (options : Options) (source : Text) (gap : Nat → Text)
    (hgap : ∀ i, Whitespace (gap i)) :
    ((tokenizeWith options (Text.joinWith gap
        (((tokenizeWith options source).filter (·.kind.isSignificant)).map Token.text))).filter
          fun t => t.kind != .whitespace && t.kind != .eof).map Token.content =
      ((tokenizeWith options source).filter (·.kind.isSignificant)).map Token.content := by
  have htext : ∀ (l : Lexeme) n, (l.token n).text = l.text := fun _ _ => rfl
  have hcontent : ∀ (l : Lexeme) n, (l.token n).content = (l.kind, l.text, l.attributes) :=
    fun _ _ => rfl
  simp only [tokenizeWith, tokens_ofText]
  rw [map_filter_place htext (p := TokenKind.isSignificant) rfl,
    map_filter_place hcontent (p := TokenKind.isSignificant) rfl,
    map_filter_place hcontent (p := fun k => k != .whitespace && k != .eof) rfl,
    filter_lexemes_joinWith source hgap]

/-- The comment goes, so only the gap keeps the sign from becoming part of the number behind it. The
escape that is cut off comes last and stays so. -/
theorem content_tokenizeWith_joinWith_cut_off :
    (∀ i : Nat, Whitespace (if i = 0 then [','] else ['\n', ' '])) ∧
      Text.joinWith (fun i => if i = 0 then [','] else ['\n', ' '])
          (((tokenizeWith {} "-;x\n1\\tab\"s\"\\o1".toList).filter
            (·.kind.isSignificant)).map Token.text) = "-,1\n \\tab\n \"s\"\n \\o1".toList ∧
      ((tokenizeWith {} "-,1\n \\tab\n \"s\"\n \\o1".toList).filter
          fun t => t.kind != .whitespace && t.kind != .eof).map Token.content =
        [(.symbol, "-".toList, .empty), (.number, "1".toList, .empty),
          (.character, "\\tab".toList, .empty), (.string, "\"s\"".toList, .empty),
          (.character, "\\o1".toList, .empty)] := by
  have hgap : ∀ i : Nat, Whitespace (if i = 0 then [','] else ['\n', ' ']) := by
    intro i
    split
    · exact ⟨by decide, List.all_eq_true.mp rfl⟩
    · exact ⟨by decide, List.all_eq_true.mp rfl⟩
  have htokens : (tokenizeWith {} "-;x\n1\\tab\"s\"\\o1".toList).filter (·.kind.isSignificant) =
      [⟨.symbol, "-".toList, 1, .empty⟩, ⟨.number, "1".toList, 5, .empty⟩,
        ⟨.character, "\\tab".toList, 6, .empty⟩, ⟨.string, "\"s\"".toList, 10, .empty⟩,
        ⟨.character, "\\o1".toList, 13, .empty⟩] := by
    decide +kernel
  have hcontent := content_tokenizeWith_joinWith {} "-;x\n1\\tab\"s\"\\o1".toList _ hgap
  rw [htokens] at hcontent ⊢
  exact ⟨hgap, rfl, hcontent⟩

end EdnTokens
