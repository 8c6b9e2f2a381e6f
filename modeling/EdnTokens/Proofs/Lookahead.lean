import EdnTokens.Proofs.Lexemes
import EdnTokens.Proofs.Scanners

/-!
# Lookahead

How far behind its end a token depends on the text. Two texts that begin alike are written `r ++ x`
and `r ++ y` here, and the question is how much of the common beginning `r` a scanner has to leave
over before `x` and `y` cannot matter to it.

Most scanners stop at a character that does not belong to them, and look no further than that
(`Extent.NearSighted`). Strings, comments and malformed dispatches may run far, but what they run
over is theirs, and one that only stops because the text does leaves nothing over. Character
literals are the exception: behind `\n` the text may go on to spell a name, and the longest name has
six characters more, unless a character that is no letter stops it before (`Scan.SettlesNames`). So
six characters are enough for all tokens (`first_append_congr_of_six`), and whole streams agree as
long as six characters are left of the common beginning.
-/

namespace EdnTokens

open Character Lexeme

namespace Extent

/-! ### Extents that look at one character more -/

/-- An extent is near-sighted if it looks no further than at the one character behind those that it
takes: as soon as that character belongs to the common beginning, the rest does not matter. -/
def NearSighted (m : Extent) : Prop :=
  ∀ r x y : Text, m (r ++ x) < r.length → m (r ++ y) = m (r ++ x)

/-- Taking a number of characters looks at none behind them. -/
lemma nearSighted_upTo (n : Nat) : NearSighted (upTo n) := by
  intro r x y h
  unfold upTo at h ⊢
  simp only [List.length_take, List.length_append] at h ⊢
  omega

/-- A run looks at the one character that stops it. -/
lemma nearSighted_run (p : Char → Bool) : NearSighted (run p) := by
  intro r x y h
  induction r with
  | nil => exact absurd h (Nat.not_lt_zero _)
  | cons c r ih =>
    rw [List.cons_append, run_cons] at h
    rw [List.cons_append, List.cons_append, run_cons, run_cons]
    by_cases hc : p c = true
    · rw [if_pos hc, List.length_cons] at h
      rw [if_pos hc, if_pos hc, ih (Nat.lt_of_succ_lt_succ h)]
    · rw [if_neg hc, if_neg hc]

/-- A character in front changes nothing about what an extent looks at. -/
lemma nearSighted_after (p : Char → Bool) {m : Extent} (hm : NearSighted m) :
    NearSighted (after p m) := by
  intro r x y h
  cases r with
  | nil => exact absurd h (Nat.not_lt_zero _)
  | cons c r =>
    rw [List.cons_append, after] at h
    rw [List.cons_append, List.cons_append, after, after]
    by_cases hc : p c = true
    · rw [if_pos hc, List.length_cons] at h
      rw [if_pos hc, if_pos hc, hm r x y (Nat.lt_of_succ_lt_succ h)]
    · rw [if_neg hc, if_neg hc]

/-- An optional character is looked at, and nothing behind it. -/
lemma nearSighted_option (p : Char → Bool) : NearSighted (option p) :=
  nearSighted_after p fun _ _ _ _ => rfl

/-- What the first extent leaves over of the common beginning is common to what the second one
sees. -/
lemma nearSighted_followedBy {m n : Extent} (hm : NearSighted m) (hn : NearSighted n) :
    NearSighted (followedBy m n) := by
  intro r x y h
  unfold followedBy at h ⊢
  have hlt : m (r ++ x) < r.length := by omega
  have hdrop : ∀ z, (r ++ z).drop (m (r ++ x)) = r.drop (m (r ++ x)) ++ z :=
    fun z => List.drop_append_of_le_length hlt.le
  rw [hdrop] at h
  have hrest : n (r.drop (m (r ++ x)) ++ x) < (r.drop (m (r ++ x))).length := by
    rw [List.length_drop]
    omega
  rw [hm r x y hlt, hdrop, hdrop, hn _ x y hrest]

end Extent

namespace Scan

open Extent

variable {r x y : Text}

/-- The character that stopped a near-sighted extent stands in the common beginning. -/
lemma head?_drop_append {n : Nat} (h : n < r.length) (z : Text) :
    ((r ++ z).drop n).head? = r[n]? := by
  rw [List.head?_drop, List.getElem?_append_left h]

/-! ### Blanks, numbers and names -/

/-- A run of blanks that stops within the common beginning is read alike. -/
lemma whitespace_append_congr (h : (whitespace (r ++ x)).width < r.length) :
    whitespace (r ++ y) = whitespace (r ++ x) := by
  unfold whitespace at h ⊢
  rw [nearSighted_run isSeparator r x y h]

/-- A comment that ends within the common beginning is read alike. -/
lemma comment_append_congr (h : (comment (r ++ x)).width < r.length) :
    comment (r ++ y) = comment (r ++ x) := by
  unfold comment at h ⊢
  rw [nearSighted_followedBy (nearSighted_run _) (nearSighted_option _) r x y h]

/-- Behind anything but the radix mark only an exponent can stand. -/
lemma magnitude_cons_of_ne {c : Char} (hc : c ≠ 'r') (t : Text) :
    magnitude (c :: t) = after (fun c => c == 'E' || c == 'e') digits (c :: t) := by
  rw [magnitude]
  rintro u ⟨rfl, -⟩
  exact hc rfl

/-- Exponents and radix digits look at one character more. -/
lemma nearSighted_magnitude : NearSighted magnitude := by
  intro r x y h
  cases r with
  | nil => exact absurd h (Nat.not_lt_zero _)
  | cons c r =>
    by_cases hc : c = 'r'
    · subst hc
      have hlt : run isAlphanumeric (r ++ x) < r.length := Nat.lt_of_succ_lt_succ h
      have hrun := nearSighted_run isAlphanumeric r x y hlt
      exact congrArg (· + 1) hrun
    · rw [List.cons_append, magnitude_cons_of_ne hc] at h
      rw [List.cons_append, List.cons_append, magnitude_cons_of_ne hc, magnitude_cons_of_ne hc]
      exact nearSighted_after _ (nearSighted_run isDigit) (c :: r) x y h

/-- Every part of a number looks at one character more, and so does the number. -/
lemma nearSighted_numeral : NearSighted numeral :=
  nearSighted_followedBy (nearSighted_option _) <|
  nearSighted_followedBy (nearSighted_run _) <|
  nearSighted_followedBy (nearSighted_after _ (nearSighted_run _)) <|
  nearSighted_followedBy nearSighted_magnitude (nearSighted_option _)

/-- Whether a number is malformed is decided by the character that stopped it. -/
lemma number_append_congr (h : (number (r ++ x)).width < r.length) :
    number (r ++ y) = number (r ++ x) := by
  have hlt : numeral (r ++ x) < r.length := by
    unfold number at h
    simp only at h
    split at h
    · exact Nat.lt_of_succ_lt h
    · exact h
  have hwidth : numeral (r ++ y) = numeral (r ++ x) := nearSighted_numeral r x y hlt
  unfold number
  simp only [hwidth, head?_drop_append hlt]

/-- A symbol that ends within the common beginning is read alike. -/
lemma symbol_append_congr (h : (symbol (r ++ x)).width < r.length) :
    symbol (r ++ y) = symbol (r ++ x) := by
  unfold symbol at h ⊢
  rw [nearSighted_followedBy (nearSighted_upTo 1) (nearSighted_run _) r x y h]

/-- The first character and the colon behind it, if there is one. -/
def colons : Extent :=
  followedBy (upTo 1) (option (· == ':'))

/-- To tell one colon from two takes one character more. -/
lemma nearSighted_colons : NearSighted colons :=
  nearSighted_followedBy (nearSighted_upTo 1) (nearSighted_option _)

/-- A keyword is malformed exactly where a third colon stands behind the leading ones. -/
lemma keyword_eq (t : Text) :
    keyword t =
      if (t.drop (colons t)).head? = some ':' then ⟨colons t + 1, .error (some .invalidKeyword)⟩
      else ⟨followedBy colons (run isSymbolRest) t, .token .keyword⟩ := rfl

/-- A keyword that ends within the common beginning is read alike. Its one special case, the third
colon, is the character at its end. -/
lemma keyword_append_congr (h : (keyword (r ++ x)).width < r.length) :
    keyword (r ++ y) = keyword (r ++ x) := by
  have hlt : colons (r ++ x) < r.length := by
    rw [keyword_eq] at h
    split at h
    · exact Nat.lt_of_succ_lt h
    · exact Nat.lt_of_le_of_lt (Nat.le_add_right _ _) h
  have hwidth : colons (r ++ y) = colons (r ++ x) := nearSighted_colons r x y hlt
  rw [keyword_eq, head?_drop_append hlt] at h
  rw [keyword_eq, keyword_eq, hwidth, head?_drop_append hlt, head?_drop_append hlt]
  by_cases hthird : r[colons (r ++ x)]? = some ':'
  · rw [if_pos hthird, if_pos hthird]
  · rw [if_neg hthird] at h
    have hname := nearSighted_followedBy nearSighted_colons (nearSighted_run isSymbolRest) r x y h
    rw [if_neg hthird, if_neg hthird, hname]

/-- The first character of a dispatch is taken whatever it is. -/
lemma dispatch_eq (c : Char) (t : Text) : dispatch (c :: t) = dispatch ('#' :: t) := rfl

/-- What is read behind a hash is read alike if it ends within the common beginning. -/
lemma dispatch_append_congr (h : (dispatch (r ++ x)).width < r.length) :
    dispatch (r ++ y) = dispatch (r ++ x) := by
  match r with
  | [] => exact absurd h (Nat.not_lt_zero _)
  -- one character is too short: the token would reach its end
  | [c] =>
    have hpos : 0 < (dispatch ([c] ++ x)).width := dispatch_width_pos c x
    rw [List.length_singleton] at h
    omega
  | c' :: c :: r =>
    simp only [List.cons_append, dispatch_eq c', dispatch_cons] at h ⊢
    by_cases hset : c = '\x7b'
    · rw [if_pos hset, if_pos hset]
    rw [if_neg hset] at h
    rw [if_neg hset, if_neg hset]
    by_cases hdiscard : c = '_'
    · rw [if_pos hdiscard, if_pos hdiscard]
    rw [if_neg hdiscard] at h
    rw [if_neg hdiscard, if_neg hdiscard]
    by_cases hc : isLetter c = true
    · rw [if_pos hc] at h
      have hlt : run isSymbolRest (c :: r ++ x) < (c :: r).length := Nat.lt_of_succ_lt_succ h
      rw [if_pos hc, if_pos hc, ← List.cons_append, ← List.cons_append,
        nearSighted_run isSymbolRest _ x y hlt]
    · rw [if_neg hc] at h
      have hlt : run (fun d => !isSeparator d) (c :: r ++ x) < (c :: r).length :=
        Nat.lt_of_succ_lt_succ h
      rw [if_neg hc, if_neg hc, ← List.cons_append, ← List.cons_append,
        nearSighted_run (fun d => !isSeparator d) _ x y hlt]

/-! ### Strings and characters -/

/-- A string that closes inside the common beginning closes there whatever follows. -/
lemma closing?_append_congr {taken n : Nat} (h : closing? taken (r ++ x) = some n)
    (hn : n ≤ taken + r.length) : closing? taken (r ++ y) = some n := by
  obtain ⟨inside, rest, hinside, heq, rfl⟩ := exists_of_closing? h
  have hlength : (inside ++ ['"']).length ≤ r.length := by
    rw [List.length_append, List.length_singleton]
    omega
  have hprefix : inside ++ ['"'] <+: r ++ x := ⟨rest, by rw [heq, List.append_assoc]; rfl⟩
  obtain ⟨rest', rfl⟩ : inside ++ ['"'] <+: r :=
    List.prefix_of_prefix_length_le hprefix (List.prefix_append r x) hlength
  rw [List.append_assoc, List.append_assoc, List.singleton_append, closing?_append hinside]

/-- A string that never closes takes the whole text, so it leaves nothing over. -/
lemma string_append_congr (h : (string (r ++ x)).width < r.length) :
    string (r ++ y) = string (r ++ x) := by
  obtain ⟨c, r, rfl⟩ : ∃ c r', r = c :: r' :=
    List.exists_cons_of_length_pos (Nat.lt_of_le_of_lt (Nat.zero_le _) h)
  unfold string at h ⊢
  simp only [List.cons_append, List.drop_succ_cons, List.drop_zero, List.length_cons] at h ⊢
  cases hclose : closing? 0 (r ++ x) with
  | none =>
    rw [hclose] at h
    simp only [List.length_append] at h
    omega
  | some n =>
    rw [hclose] at h
    have hn : n ≤ 0 + r.length := by
      simp only at h
      omega
    rw [closing?_append_congr hclose hn]

/-- The longest name of a character has seven letters. -/
lemma length_le_of_mem_names {name : Text} (h : name ∈ names) : name.length ≤ 7 := by
  simp only [names, List.mem_cons, List.not_mem_nil, or_false] at h
  rcases h with rfl | rfl | rfl | rfl
  · decide
  · decide
  · decide
  · decide

/-- A text settles names if nothing behind it can complete one: every name with which a longer text
begins stands in this text already. -/
def SettlesNames (r : Text) : Prop :=
  ∀ name ∈ names, ∀ z, name <+: r ++ z → name <+: r

/-- Seven characters are enough to tell which name stands there, if any. -/
lemma settlesNames_of_length (h : 7 ≤ r.length) : SettlesNames r := by
  intro name hname z hprefix
  have hlength : name.length ≤ r.length := (length_le_of_mem_names hname).trans h
  exact List.prefix_of_prefix_length_le hprefix (List.prefix_append r z) hlength

/-- The names of characters are made of letters. -/
lemma isLetter_of_mem_names {name : Text} (h : name ∈ names) : ∀ c ∈ name, isLetter c = true := by
  simp only [names, List.mem_cons, List.not_mem_nil, or_false] at h
  rcases h with rfl | rfl | rfl | rfl
  · exact List.all_eq_true.mp rfl
  · exact List.all_eq_true.mp rfl
  · exact List.all_eq_true.mp rfl
  · exact List.all_eq_true.mp rfl

/-- Names are made of letters, so no name goes on behind a character of another sort. -/
lemma settlesNames_of_mem {c : Char} (hc : c ∈ r) (hletter : ¬ isLetter c = true) :
    SettlesNames r := by
  intro name hname z hprefix
  refine List.prefix_of_prefix_length_le hprefix (List.prefix_append r z) ?_
  by_contra hlong
  have hinside : r <+: name :=
    List.prefix_of_prefix_length_le (List.prefix_append r z) hprefix (Nat.le_of_not_le hlong)
  exact hletter (isLetter_of_mem_names hname c (hinside.subset hc))

/-- Which name is found depends only on the names with which a text begins. -/
lemma find?_names_congr {s t : Text}
    (h : ∀ name ∈ names, name.isPrefixOf s = name.isPrefixOf t) :
    names.find? (·.isPrefixOf s) = names.find? (·.isPrefixOf t) := by
  rw [← List.head?_filter, ← List.head?_filter, List.filter_congr h]

/-- Where names are settled, the same name is found or none. -/
lemma find?_names_append_congr (h : SettlesNames r) :
    names.find? (·.isPrefixOf (r ++ y)) = names.find? (·.isPrefixOf (r ++ x)) := by
  have hlocal : ∀ name ∈ names, ∀ z, name.isPrefixOf (r ++ z) = name.isPrefixOf r := by
    intro name hname z
    rw [Bool.eq_iff_iff, List.isPrefixOf_iff_prefix, List.isPrefixOf_iff_prefix]
    constructor
    · exact h name hname z
    · intro hprefix
      exact hprefix.trans (List.prefix_append r z)
  have hcongr : ∀ name ∈ names, name.isPrefixOf (r ++ y) = name.isPrefixOf (r ++ x) := by
    intro name hname
    rw [hlocal name hname, hlocal name hname]
  exact find?_names_congr hcongr

/-- An escape looks at as many characters as it has digits. -/
lemma characterEscape_append_congr (strict : Bool) {count : Nat} (isDigit : Char → Bool)
    (h : count ≤ r.length) :
    characterEscape strict count isDigit (r ++ y) =
      characterEscape strict count isDigit (r ++ x) := by
  unfold characterEscape
  rw [List.take_append_of_le_length h, List.take_append_of_le_length h]

/-- An escape that ends before the text does has all of its characters. -/
lemma le_length_of_width_characterEscape {strict : Bool} {count : Nat} {isDigit : Char → Bool}
    (h : (characterEscape strict count isDigit (r ++ x)).width < r.length + 2) :
    count ≤ r.length := by
  simp only [characterEscape, List.length_take, List.length_append] at h
  omega

/-- A character literal that ends inside the common beginning depends on what follows only as far as
a name could still be completed there. -/
lemma character_append_congr (strict : Bool) {c : Char} (hnames : SettlesNames r)
    (h : (character strict (c :: r ++ x)).width < (c :: r).length) :
    character strict (c :: r ++ y) = character strict (c :: r ++ x) := by
  cases r with
  | nil =>
    have hpos : 0 < (character strict (c :: x)).width := character_width_pos strict c x
    rw [List.singleton_append, List.length_singleton] at h
    omega
  | cons d r =>
    have hname := find?_names_append_congr (x := x) (y := y) hnames
    unfold character at h ⊢
    simp only [List.cons_append, List.drop_succ_cons, List.drop_zero, List.length_cons] at h hname ⊢
    rw [hname]
    split
    · rfl
    · rename_i hnone
      rw [hnone] at h
      -- an escape that ends early has all of its digits before the end of the common beginning
      by_cases hu : d = 'u'
      · subst hu
        have hcount : 4 ≤ r.length := le_length_of_width_characterEscape h
        exact characterEscape_append_congr strict isHexDigit hcount
      · by_cases ho : d = 'o'
        · subst ho
          have hcount : 3 ≤ r.length := le_length_of_width_characterEscape h
          exact characterEscape_append_congr strict isOctalDigit hcount
        · simp [hu, ho, upTo]

/-! ### The next token -/

/-- Every scanner looks at one character behind its token, and that of character literals as far as
names reach. -/
lemma ofFamily_append_congr (strict : Bool) (scanner : Scanner)
    (h : (ofFamily strict scanner (r ++ x)).width < r.length)
    (hnames : scanner = .character → SettlesNames r.tail) :
    ofFamily strict scanner (r ++ y) = ofFamily strict scanner (r ++ x) := by
  cases scanner with
  | whitespace => exact whitespace_append_congr h
  | number => exact number_append_congr (r := r) (x := x) (y := y) h
  | symbol => exact symbol_append_congr h
  | string => exact string_append_congr h
  | character =>
    obtain ⟨c, r, rfl⟩ : ∃ c r', r = c :: r' :=
      List.exists_cons_of_length_pos (Nat.lt_of_le_of_lt (Nat.zero_le _) h)
    exact character_append_congr strict (hnames rfl) h
  | keyword => exact keyword_append_congr h
  | comment => exact comment_append_congr h
  | dispatch => exact dispatch_append_congr h

/-- A token that ends inside the common beginning is the same in both texts, if no character name
could be completed by what follows. -/
lemma next_append_congr (strict : Bool) (h : (next strict (r ++ x)).width < r.length)
    (hnames : ∀ r', r = '\\' :: r' → SettlesNames r') :
    next strict (r ++ y) = next strict (r ++ x) := by
  match r with
  | [] => exact absurd h (Nat.not_lt_zero _)
  | [c] =>
    have hpos : 0 < (next strict ([c] ++ x)).width := next_width_pos strict c x
    rw [List.length_singleton] at h
    omega
  | c :: d :: r =>
    -- the scanner is chosen by two characters of the common beginning
    have hscanner : scannerFor? c (d :: (r ++ y)) = scannerFor? c (d :: (r ++ x)) := rfl
    simp only [List.cons_append, next] at h ⊢
    rw [hscanner]
    cases hs : scannerFor? c (d :: (r ++ x)) with
    | none => rfl
    | some scanner =>
      rw [hs] at h
      refine ofFamily_append_congr strict scanner (r := c :: d :: r) h ?_
      rintro rfl
      exact hnames (d :: r) (by rw [eq_backslash_of_scannerFor? hs])

/-- Six characters behind a token are enough for names. -/
lemma settlesNames_of_six {strict : Bool} (h : (next strict (r ++ x)).width + 6 ≤ r.length) :
    ∀ r', r = '\\' :: r' → SettlesNames r' := by
  rintro (_ | ⟨d, r'⟩) rfl
  · rw [List.length_singleton] at h
    omega
  · -- two characters belong to the literal at least, so there are eight in all
    have hwidth : 2 ≤ (next strict ('\\' :: d :: r' ++ x)).width :=
      two_le_width_character strict d (r' ++ x)
    apply settlesNames_of_length
    rw [List.length_cons] at h
    omega

end Scan

/-! ### Lexemes -/

section Lexemes

variable {strict : Bool} {r x : Text}

/-- A token that leaves something over of the common beginning has the width of its text, since it
was not cut off by the end. -/
lemma width_next_append_of_lt (h : (first strict (r ++ x)).text.length < r.length) :
    (Scan.next strict (r ++ x)).width = (first strict (r ++ x)).text.length := by
  simp only [first, List.length_take, List.length_append] at h ⊢
  omega

/-- A lexeme that ends inside the common beginning is the first one of both texts, if no character
name could be completed by what follows. -/
lemma first_append_congr (h : (first strict (r ++ x)).text.length < r.length)
    (hnames : ∀ r', r = '\\' :: r' → Scan.SettlesNames r') (y : Text) :
    first strict (r ++ y) = first strict (r ++ x) := by
  have hwidth := width_next_append_of_lt h
  have hlt : (Scan.next strict (r ++ x)).width < r.length := by omega
  unfold first
  rw [Scan.next_append_congr strict hlt hnames, List.take_append_of_le_length hlt.le,
    List.take_append_of_le_length hlt.le]

/-- Six characters behind a lexeme are enough to know it. -/
lemma first_append_congr_of_six (h : (first strict (r ++ x)).text.length + 6 ≤ r.length)
    (y : Text) : first strict (r ++ y) = first strict (r ++ x) := by
  have hlt : (first strict (r ++ x)).text.length < r.length := by omega
  rw [← width_next_append_of_lt hlt] at h
  exact first_append_congr hlt (Scan.settlesNames_of_six h) y

/-- The first lexemes of a text are those of every text that has six characters behind them in
common with it. -/
lemma take_lexemes_append_congr {n : Nat}
    (h : (((lexemes strict (r ++ x)).take n).flatMap Lexeme.text).length + 6 ≤ r.length)
    (y : Text) : (lexemes strict (r ++ y)).take n = (lexemes strict (r ++ x)).take n := by
  induction n generalizing r with
  | zero => rfl
  | succ n ih =>
    have hne : ∀ z, r ++ z ≠ [] := by
      intro z hnil
      have hr : r = [] := (List.append_eq_nil_iff.mp hnil).1
      rw [hr, List.length_nil] at h
      omega
    rw [lexemes_of_ne_nil strict (hne x), List.take_succ_cons, List.flatMap_cons,
      List.length_append] at h
    have hfirst : first strict (r ++ y) = first strict (r ++ x) :=
      first_append_congr_of_six (by omega) y
    have hle : (first strict (r ++ x)).text.length ≤ r.length := by omega
    rw [List.drop_append_of_le_length hle] at h
    rw [lexemes_of_ne_nil strict (hne x), lexemes_of_ne_nil strict (hne y), hfirst,
      List.take_succ_cons, List.take_succ_cons, List.drop_append_of_le_length hle,
      List.drop_append_of_le_length hle, ih (by rw [List.length_drop]; omega)]

/-- A placed token depends on the lexemes up to its own. -/
lemma getElem?_place_congr (start : Nat) {ls ls' : List Lexeme} {i : Nat} (hi : i < ls.length)
    (h : ls'.take (i + 1) = ls.take (i + 1)) : (place start ls')[i]? = (place start ls)[i]? := by
  have hi' : i < ls'.length := by
    have hlength := congrArg List.length h
    simp only [List.length_take] at hlength
    omega
  have hbefore : ls'.take i = ls.take i := by
    have htake := congrArg (List.take i) h
    rwa [List.take_take, List.take_take, min_eq_left (Nat.le_succ i)] at htake
  have hlexeme : ls'[i] = ls[i] := by
    have hget := congrArg (·[i]?) h
    simpa [hi, hi'] using hget
  rw [getElem?_place start hi, getElem?_place start hi', hbefore, hlexeme]

end Lexemes

/-- No token depends on more than six characters behind its end. If two texts have their first `p`
characters in common, then every token of the one that ends six characters before that or earlier is
a token of the other, at the same index. The last character of a token has the offset
`t.start + t.length - 1`. -/
theorem token_of_common_beginning (options : Options) (s s' : Text) (p : Nat)
    (hp : p ≤ s.length) (hcommon : s.take p = s'.take p) (i : Nat) (t : Token)
    (ht : (tokenizeWith options s)[i]? = some t) (heof : t.isEof = false)
    (hend : t.start + t.length - 1 + 6 ≤ p) :
    (tokenizeWith options s')[i]? = some t := by
  obtain ⟨r, x, y, hr, rfl, rfl⟩ : ∃ r x y, r.length = p ∧ s = r ++ x ∧ s' = r ++ y := by
    refine ⟨s.take p, s.drop p, s'.drop p, ?_, ?_, ?_⟩
    · rw [List.length_take, min_eq_left hp]
    · rw [List.take_append_drop]
    · rw [hcommon, List.take_append_drop]
  simp only [tokenizeWith, tokens_ofText] at ht ⊢
  have hi := lt_length_of_getElem?_place ht heof
  -- the lexemes up to the token end where the token does
  have hlexemes : (((lexemes options.strictEscapes (r ++ x)).take (i + 1)).flatMap
      Lexeme.text).length + 6 ≤ r.length := by
    rw [getElem?_place 1 hi, Option.some.injEq] at ht
    rw [← ht] at hend
    simp only [token, Token.length] at hend
    rw [List.take_succ_eq_append_getElem hi, List.flatMap_append, List.length_append,
      List.flatMap_singleton, hr]
    omega
  have htake := take_lexemes_append_congr hlexemes y
  rw [getElem?_place_congr 1 hi htake, ht]

/-- Behind `\n` the six characters `ewlina` are enough to know that no name stands there. Five of
them would not do, because an `e` could follow. -/
theorem token_of_common_beginning_name :
    "\\newlina b".toList.take 8 = "\\newlina\"".toList.take 8 ∧
      (tokenizeWith {} "\\newlina b".toList)[0]? = some ⟨.character, "\\n".toList, 1, .empty⟩ ∧
      (tokenizeWith {} "\\newlina\"".toList)[0]? = some ⟨.character, "\\n".toList, 1, .empty⟩ ∧
      "\\newlina b".toList.take 7 = "\\newline".toList.take 7 ∧
      (tokenizeWith {} "\\newline".toList)[0]? =
        some ⟨.character, "\\newline".toList, 1, .empty⟩ := by
  have hlen : 8 ≤ "\\newlina b".toList.length := by decide
  have hcommon : "\\newlina b".toList.take 8 = "\\newlina\"".toList.take 8 := by decide
  have ht : (tokenizeWith {} "\\newlina b".toList)[0]? =
      some ⟨.character, "\\n".toList, 1, .empty⟩ := by
    decide +kernel
  have ht' := token_of_common_beginning {} "\\newlina b".toList "\\newlina\"".toList 8
    hlen hcommon 0 ⟨.character, "\\n".toList, 1, .empty⟩ ht rfl le_rfl
  exact ⟨hcommon, ht, ht', by decide, by decide +kernel⟩

end EdnTokens
