import EdnTokens.Lexer.Progress
import EdnTokens.Proofs.Longest
import EdnTokens.Token.Language

/-!
# Numbers

The extent of a number measures the language of numbers wherever a number begins
(`Scan.measures_numeral`). The sign, the digits and the fraction are taken together first. None of
the characters behind them can stand inside them, so no shorter choice there leaves room for a
longer number. The mark of an exact decimal may also be a radix digit, but then taking it as a digit
is just as long.
-/

namespace EdnTokens.Scan

open Character Extent EdnTokens.Language

/-! ### Where a number begins -/

/-- A number begins at a digit, or at a sign or point with a digit behind it. -/
lemma isNumberStart_iff (c : Char) (t : Text) :
    isNumberStart c t.head? = true ↔
      isDigit c = true ∨
        (c = '+' ∨ c = '-' ∨ c = '.') ∧ ∃ d u, t = d :: u ∧ isDigit d = true := by
  cases t with
  | nil => simp [isNumberStart]
  | cons d u =>
    simp only [isNumberStart, List.head?_cons, Option.any_some, Bool.or_eq_true, Bool.and_eq_true,
      beq_iff_eq, List.cons.injEq, exists_and_right]
    constructor
    · rintro (hc | ⟨(rfl | rfl) | rfl, hd⟩)
      · exact Or.inl hc
      · exact Or.inr ⟨Or.inr (Or.inl rfl), d, ⟨u, rfl, rfl⟩, hd⟩
      · exact Or.inr ⟨Or.inl rfl, d, ⟨u, rfl, rfl⟩, hd⟩
      · exact Or.inr ⟨Or.inr (Or.inr rfl), d, ⟨u, rfl, rfl⟩, hd⟩
    · rintro (hc | ⟨hc, _, ⟨_, rfl, rfl⟩, hd⟩)
      · exact Or.inl hc
      · rcases hc with rfl | rfl | rfl
        · exact Or.inr ⟨Or.inl (Or.inr rfl), hd⟩
        · exact Or.inr ⟨Or.inl (Or.inl rfl), hd⟩
        · exact Or.inr ⟨Or.inr rfl, hd⟩

/-- A digit is no sign. -/
lemma not_sign_of_isDigit {c : Char} (h : isDigit c = true) : ¬ (c == '+' || c == '-') = true := by
  rw [Bool.or_eq_true, beq_iff_eq, beq_iff_eq]
  rintro (rfl | rfl)
  · exact absurd h (by decide)
  · exact absurd h (by decide)

/-! ### The part before the exponent -/

/-- The extent of sign, digits and fraction. -/
def fixed : Extent :=
  .followedBy (.option fun c => c == '+' || c == '-') <|
  .followedBy digits (.after (· == '.') digits)

/-- A number is taken in two parts, of which the second one begins at the exponent. -/
lemma numeral_eq_followedBy :
    numeral = followedBy fixed (followedBy magnitude (option (· == 'M'))) := by
  rw [fixed, followedBy_assoc, followedBy_assoc]
  rfl

/-- The character that is asked for is taken. -/
lemma after_cons_self (c : Char) (m : Extent) (t : Text) : after (· == c) m (c :: t) = m t + 1 := by
  simp [after]

/-- A sign before digits is taken alone, and where there is none nothing is taken for it. -/
lemma option_sign_append {sign digits : Text} (hs : sign = [] ∨ sign = ['+'] ∨ sign = ['-'])
    (hne : digits ≠ []) (hd : Digits digits) (rest : Text) :
    option (fun c => c == '+' || c == '-') (sign ++ (digits ++ rest)) = sign.length := by
  rcases hs with rfl | rfl | rfl
  · obtain ⟨d, digits, rfl⟩ := List.exists_cons_of_ne_nil hne
    have hdigit : isDigit d = true := hd d List.mem_cons_self
    rw [List.nil_append, List.cons_append, option_cons, if_neg (not_sign_of_isDigit hdigit),
      List.length_nil]
  · rfl
  · rfl

/-- Whatever follows, the extent takes all of a text in the language. -/
lemma length_le_fixed {v : Text} (hv : Fixed v) (rest : Text) :
    v.length ≤ fixed (v ++ rest) := by
  cases hv with
  | @whole sign digits hs hne hd =>
    rw [List.append_assoc, fixed, followedBy, option_sign_append hs hne hd, List.drop_left,
      followedBy, Scan.digits, run_append_of_forall hd, List.length_append]
    omega
  | @decimal sign digits fraction hs hne hd hf =>
    -- the digits stop at the point, and the fraction goes on from there
    have hpoint : run isDigit ('.' :: (fraction ++ rest)) = 0 := by
      rw [run_cons, if_neg (by decide)]
    simp only [List.append_assoc, List.cons_append]
    rw [fixed, followedBy, option_sign_append hs hne hd, List.drop_left, followedBy, Scan.digits,
      run_append_of_forall hd, hpoint, Nat.add_zero, List.drop_left, after_cons_self,
      run_append_of_forall hf]
    simp only [List.length_append, List.length_cons]
    omega
  | @fraction digits hne hd =>
    rw [List.cons_append, fixed, followedBy, option_cons, if_neg (by decide), List.drop_zero,
      followedBy, Scan.digits, run_cons, if_neg (by decide), List.drop_zero, after_cons_self,
      run_append_of_forall hd, List.length_cons]
    omega

/-- Where digits begin, the extent takes digits and perhaps a fraction. -/
lemma take_digits_fraction (t : Text) :
    ∃ fraction, Digits fraction ∧
      (t.take (followedBy digits (after (· == '.') digits) t) = t.takeWhile isDigit ∨
        t.take (followedBy digits (after (· == '.') digits) t) =
          t.takeWhile isDigit ++ '.' :: fraction) := by
  rw [take_followedBy, digits, take_run, drop_run]
  cases hrest : t.dropWhile isDigit with
  | nil => exact ⟨[], by simp [Digits], Or.inl (by simp)⟩
  | cons c rest =>
    by_cases hc : c = '.'
    · subst hc
      refine ⟨rest.takeWhile isDigit, fun c hc => List.mem_takeWhile_imp hc, Or.inr ?_⟩
      rw [after_cons_self, List.take_succ_cons, take_run]
    · refine ⟨[], by simp [Digits], Or.inl ?_⟩
      simp [after, hc]

/-- Digits behind a sign, or behind none, and what the extent takes after them. -/
lemma fixed_sign_append {sign : Text} (hs : sign = [] ∨ sign = ['+'] ∨ sign = ['-']) {d : Char}
    (hd : isDigit d = true) (t : Text) :
    Fixed (sign ++ (d :: t).take (followedBy digits (after (· == '.') digits) (d :: t))) := by
  have hall : Digits ((d :: t).takeWhile isDigit) := fun c hc => List.mem_takeWhile_imp hc
  have hne : (d :: t).takeWhile isDigit ≠ [] := by
    rw [List.takeWhile_cons_of_pos hd]
    exact List.cons_ne_nil _ _
  obtain ⟨fraction, hf, htake | htake⟩ := take_digits_fraction (d :: t)
  · rw [htake]
    exact .whole hs hne hall
  · rw [htake, ← List.append_assoc]
    exact .decimal hs hne hall hf

/-- Where a number begins, what the extent takes is in the language. -/
lemma fixed_take_fixed {c : Char} {t : Text} (h : isNumberStart c t.head? = true) :
    Fixed ((c :: t).take (fixed (c :: t))) := by
  rw [fixed, take_followedBy, option_cons]
  rcases (isNumberStart_iff c t).mp h with hc | ⟨rfl | rfl | rfl, d, u, rfl, hd⟩
  · rw [if_neg (not_sign_of_isDigit hc)]
    exact fixed_sign_append (Or.inl rfl) hc t
  · exact fixed_sign_append (Or.inr (Or.inl rfl)) hd u
  · exact fixed_sign_append (Or.inr (Or.inr rfl)) hd u
  · -- a point first: there are no digits before it, and there is one behind it
    rw [if_neg (by decide), List.take_zero, List.drop_zero, List.nil_append, take_followedBy,
      digits, run_cons, if_neg (by decide), List.take_zero, List.drop_zero, List.nil_append,
      after_cons_self, List.take_succ_cons, take_run]
    refine .fraction ?_ fun c hc => List.mem_takeWhile_imp hc
    rw [List.takeWhile_cons_of_pos hd]
    exact List.cons_ne_nil _ _

/-- The part before the exponent is the longest one where a number begins. -/
lemma measures_fixed {c : Char} {t : Text} (h : isNumberStart c t.head? = true) :
    Measures Fixed (c :: t) (fixed (c :: t)) where
  le := fits_followedBy (fits_option _)
    (fits_followedBy (fits_run _) (fits_after _ (fits_run _))) _
  mem := fixed_take_fixed h
  maximal := by
    rintro v rest ht hv
    rw [ht]
    exact length_le_fixed hv rest

/-! ### The part behind -/

/-- The exponent or the radix digits. -/
lemma measures_magnitude (t : Text) : Measures Magnitude t (magnitude t) where
  le := by
    unfold magnitude
    split
    · exact Nat.succ_le_succ (fits_run _ _)
    · exact fits_after _ (fits_run _) _
  mem := by
    unfold magnitude
    split
    · rw [List.take_succ_cons, take_run]
      exact .radix fun c hc => List.mem_takeWhile_imp hc
    · cases t with
      | nil => exact .none
      | cons c t =>
        by_cases hc : (c == 'E' || c == 'e') = true
        · rw [after, if_pos hc, List.take_succ_cons, digits, take_run]
          rw [Bool.or_eq_true, beq_iff_eq, beq_iff_eq] at hc
          exact .exponent hc fun c hc => List.mem_takeWhile_imp hc
        · rw [after, if_neg hc]
          exact .none
  maximal := by
    rintro v rest rfl hv
    cases hv with
    | none => exact Nat.zero_le _
    | @exponent mark digits hm hd =>
      have hmark : (mark == 'E' || mark == 'e') = true := by
        rwa [Bool.or_eq_true, beq_iff_eq, beq_iff_eq]
      -- the first equation for magnitudes does not apply to the mark of an exponent
      have hradix : mark ≠ 'r' := by
        rintro rfl
        exact absurd hmark (by decide)
      rw [List.cons_append, magnitude]
      · rw [after, if_pos hmark, Scan.digits, run_append_of_forall hd, List.length_cons]
        omega
      · rintro t ⟨rfl, -⟩
        exact hradix rfl
    | @radix digits hd =>
      rw [List.cons_append, magnitude, run_append_of_forall hd, List.length_cons]
      omega

/-- What may follow the part before the exponent. -/
def Suffix (t : Text) : Prop :=
  ∃ magnitude mark, Magnitude magnitude ∧ (mark = [] ∨ ∃ c, (c == 'M') = true ∧ mark = [c]) ∧
    t = magnitude ++ mark

/-- Exponent and mark together are the longest suffix. -/
lemma measures_suffix (t : Text) :
    Measures Suffix t (followedBy magnitude (option (· == 'M')) t) := by
  apply measures_followedBy (measures_magnitude t) (measures_option _ _)
  rintro x y rest - - (rfl | ⟨c, -, rfl⟩) hlt
  · exact hlt.le
  · exact hlt

/-- A number is a part before the exponent and a suffix. -/
lemma number_iff (t : Text) : Number t ↔ ∃ x y, Fixed x ∧ Suffix y ∧ t = x ++ y := by
  constructor
  · rintro ⟨fixed, magnitude, mark, hf, hm, hmark, rfl⟩
    refine ⟨fixed, magnitude ++ mark, hf, ⟨magnitude, mark, hm, ?_, rfl⟩, List.append_assoc ..⟩
    rcases hmark with rfl | rfl
    · exact Or.inl rfl
    · exact Or.inr ⟨'M', by decide, rfl⟩
  · rintro ⟨fixed, _, hf, ⟨magnitude, mark, hm, hmark, rfl⟩, rfl⟩
    refine ⟨fixed, magnitude, mark, hf, hm, ?_, (List.append_assoc ..).symm⟩
    rcases hmark with rfl | ⟨c, hc, rfl⟩
    · exact Or.inl rfl
    · exact Or.inr (by rw [beq_iff_eq.mp hc])

/-- The characters that can stand before the exponent. -/
def isFixedChar (c : Char) : Bool :=
  isDigit c || c == '+' || c == '-' || c == '.'

/-- Digits can stand before the exponent. -/
lemma isFixedChar_of_digits {v : Text} (hv : Digits v) : ∀ c ∈ v, isFixedChar c = true := by
  intro c hc
  simp [isFixedChar, hv c hc]

/-- So can a sign. -/
lemma isFixedChar_of_sign {v : Text} (hv : v = [] ∨ v = ['+'] ∨ v = ['-']) :
    ∀ c ∈ v, isFixedChar c = true := by
  intro c hc
  rcases hv with rfl | rfl | rfl
  · simp at hc
  · rw [List.mem_singleton.mp hc]
    decide
  · rw [List.mem_singleton.mp hc]
    decide

/-- All that stands before the exponent can stand there. -/
lemma isFixedChar_of_fixed {v : Text} (hv : Fixed v) : ∀ c ∈ v, isFixedChar c = true := by
  intro c hc
  cases hv with
  | whole hs hne hd =>
    rcases List.mem_append.mp hc with hc | hc
    · exact isFixedChar_of_sign hs c hc
    · exact isFixedChar_of_digits hd c hc
  | decimal hs hne hd hf =>
    rcases List.mem_append.mp hc with hc | hc
    · rcases List.mem_append.mp hc with hc | hc
      · exact isFixedChar_of_sign hs c hc
      · exact isFixedChar_of_digits hd c hc
    · rcases List.mem_cons.mp hc with rfl | hc
      · decide
      · exact isFixedChar_of_digits hf c hc
  | fraction hne hd =>
    rcases List.mem_cons.mp hc with rfl | hc
    · decide
    · exact isFixedChar_of_digits hd c hc

/-- No suffix begins with a character that can stand before the exponent. -/
lemma not_isFixedChar_of_suffix {c : Char} {t : Text} (h : Suffix (c :: t)) :
    ¬ isFixedChar c = true := by
  obtain ⟨magnitude, mark, hm, hmark, heq⟩ := h
  cases hm with
  | none =>
    rcases hmark with rfl | ⟨d, hd, rfl⟩
    · simp at heq
    · obtain ⟨rfl, -⟩ := List.cons.inj heq
      rw [beq_iff_eq.mp hd]
      decide
  | exponent hm hd =>
    obtain ⟨rfl, -⟩ := List.cons.inj heq
    rcases hm with rfl | rfl
    · decide
    · decide
  | radix hd =>
    obtain ⟨rfl, -⟩ := List.cons.inj heq
    decide

/-! ### The whole number -/

/-- Where a number begins, the extent of numbers measures the language of numbers. -/
lemma measures_numeral {c : Char} {t : Text} (h : isNumberStart c t.head? = true) :
    Measures Number (c :: t) (numeral (c :: t)) := by
  rw [numeral_eq_followedBy]
  have hfixed := measures_fixed h
  refine (measures_followedBy hfixed (measures_suffix _) ?_).congr fun v => (number_iff v).symm
  rintro x y rest ht - hy hlt
  -- a suffix right behind a shorter first part would begin inside the longest one
  cases y with
  | nil => exact hlt.le
  | cons d y =>
    have hmem : d ∈ (c :: t).take (fixed (c :: t)) := by
      rw [List.mem_iff_getElem?]
      refine ⟨x.length, ?_⟩
      rw [List.getElem?_take_of_lt hlt, ht, List.getElem?_append_right le_rfl, Nat.sub_self]
      rfl
    exact absurd (isFixedChar_of_fixed hfixed.mem d hmem) (not_isFixedChar_of_suffix hy)

/-- Digits begin a number, with a sign before them or without, whatever follows. -/
lemma exists_isNumberStart_of_sign {sign digits : Text}
    (hs : sign = [] ∨ sign = ['+'] ∨ sign = ['-']) (hne : digits ≠ []) (hd : Digits digits)
    (rest : Text) :
    ∃ c t, sign ++ digits ++ rest = c :: t ∧ isNumberStart c t.head? = true := by
  obtain ⟨d, digits, rfl⟩ := List.exists_cons_of_ne_nil hne
  have hdigit : isDigit d = true := hd d List.mem_cons_self
  rcases hs with rfl | rfl | rfl
  · exact ⟨d, digits ++ rest, rfl, (isNumberStart_iff _ _).mpr (Or.inl hdigit)⟩
  · exact ⟨'+', d :: (digits ++ rest), rfl,
      (isNumberStart_iff _ _).mpr (Or.inr ⟨Or.inl rfl, d, _, rfl, hdigit⟩)⟩
  · exact ⟨'-', d :: (digits ++ rest), rfl,
      (isNumberStart_iff _ _).mpr (Or.inr ⟨Or.inr (Or.inl rfl), d, _, rfl, hdigit⟩)⟩

/-- The part before the exponent begins a number, whatever follows it. -/
lemma exists_isNumberStart_of_fixed {v : Text} (hv : Fixed v) (rest : Text) :
    ∃ c t, v ++ rest = c :: t ∧ isNumberStart c t.head? = true := by
  cases hv with
  | whole hs hne hd => exact exists_isNumberStart_of_sign hs hne hd rest
  | @decimal sign digits fraction hs hne hd hf =>
    obtain ⟨c, t, heq, hc⟩ := exists_isNumberStart_of_sign hs hne hd ('.' :: fraction ++ rest)
    exact ⟨c, t, by rw [← heq, List.append_assoc _ _ rest], hc⟩
  | @fraction digits hne hd =>
    obtain ⟨d, digits, rfl⟩ := List.exists_cons_of_ne_nil hne
    exact ⟨'.', d :: (digits ++ rest), rfl, (isNumberStart_iff _ _).mpr
      (Or.inr ⟨Or.inr (Or.inr rfl), d, _, rfl, hd d List.mem_cons_self⟩)⟩

/-- A number begins a number, whatever follows it. -/
lemma exists_isNumberStart_of_number {v : Text} (hv : Number v) (rest : Text) :
    ∃ c t, v ++ rest = c :: t ∧ isNumberStart c t.head? = true := by
  obtain ⟨fixed, suffix, hfixed, -, rfl⟩ := (number_iff v).mp hv
  rw [List.append_assoc]
  exact exists_isNumberStart_of_fixed hfixed (suffix ++ rest)

end EdnTokens.Scan
