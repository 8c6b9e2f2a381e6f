import EdnTokens.Text.Escape

/-!
# Reading escaped texts

`unescape?` undoes the escapes that `escape` writes. It reads every escaped text back as the text it
was made from, whatever was escaped and wherever it stood (`unescape?_escape`), so no two texts
share an escaped form.
-/

namespace EdnTokens.Text

/-- The character that a letter behind a backslash stands for. -/
def unescapeLetter? (c : Char) : Option Char :=
  if c = '0' then some '\x00'
  else if c = 't' then some '\t'
  else if c = 'r' then some '\r'
  else if c = 'n' then some '\n'
  else if c = '\\' then some '\\'
  else if c = '"' then some '"'
  else if c = '\x27' then some '\x27'
  else none

/-- The character whose code point hexadecimal digits denote. -/
def unescapeDigits? (digits : Text) : Option Char :=
  if digits ≠ [] ∧ digits.all (digitValue · < 16) then charOfCodePoint? (valueIn 16 digits)
  else none

/-- Takes one character or one escape off the front of a text. -/
def unescapeChar? : Text → Option (Char × Text)
  | [] => none
  | ['\\'] => none
  | '\\' :: 'u' :: '\x7b' :: t =>
    match t.dropWhile (· != '\x7d') with
    | [] => none
    | _ :: rest => (unescapeDigits? (t.takeWhile (· != '\x7d'))).map fun c => (c, rest)
  | '\\' :: c :: t => (unescapeLetter? c).map fun c => (c, t)
  | c :: t => some (c, t)

/-- What is left after a character or an escape is shorter than before. -/
theorem unescapeChar?_lt {t : Text} {c : Char} {rest : Text}
    (h : unescapeChar? t = some (c, rest)) : rest.length < t.length := by
  unfold unescapeChar? at h
  split at h
  · cases h
  · cases h
  · rename_i t
    have hle := (List.dropWhile_suffix (l := t) (· != '\x7d')).length_le
    split at h
    · cases h
    · rename_i hd
      rw [hd, List.length_cons] at hle
      obtain ⟨x, -, hx⟩ := Option.map_eq_some_iff.1 h
      cases hx
      simp only [List.length_cons]
      omega
  · obtain ⟨x, -, hx⟩ := Option.map_eq_some_iff.1 h
    cases hx
    simp only [List.length_cons]
    omega
  · cases h
    simp

/-- The text that an escaped form stands for. -/
def unescape? (t : Text) : Option Text :=
  if t = [] then some []
  else
    match _h : unescapeChar? t with
    | none => none
    | some (c, rest) => (unescape? rest).map (c :: ·)
termination_by t.length
decreasing_by exact unescapeChar?_lt _h

/-! ### Escaping and reading back -/

/-- The hexadecimal digits of a code point stand for its character. -/
theorem unescapeDigits?_toDigits (c : Char) :
    unescapeDigits? (Nat.toDigits 16 c.toNat) = some c := by
  have hall : (Nat.toDigits 16 c.toNat).all (digitValue · < 16) = true := by
    simp only [List.all_eq_true, decide_eq_true_eq]
    exact fun x hx => digitValue_lt_of_mem_toDigits (by decide) (by decide) hx
  rw [unescapeDigits?, if_pos ⟨Nat.toDigits_ne_nil, hall⟩,
    valueIn_toDigits (by decide) (by decide), charOfCodePoint?_toNat]

/-- A code point escape is read back, whatever follows it. -/
theorem unescapeChar?_codePointEscape (c : Char) (rest : Text) :
    unescapeChar? (codePointEscape c ++ rest) = some (c, rest) := by
  have hdigits : ∀ x ∈ Nat.toDigits 16 c.toNat, (x != '\x7d') = true := by
    intro x hx
    have hlt := digitValue_lt_of_mem_toDigits (by decide) (by decide) hx
    rw [bne_iff_ne]
    rintro rfl
    exact absurd hlt (by decide)
  simp [codePointEscape, unescapeChar?, List.takeWhile_append_of_pos hdigits,
    List.dropWhile_append_of_pos hdigits, unescapeDigits?_toDigits]

/-- The form of a character is read back in every style, whatever follows it. -/
theorem unescapeChar?_escapeChar (style : EscapeStyle) (c : Char) (rest : Text) :
    unescapeChar? (escapeChar style c ++ rest) = some (c, rest) := by
  unfold escapeChar
  split
  · subst c; rfl
  split
  · subst c; rfl
  split
  · subst c; rfl
  split
  · subst c; rfl
  split
  · subst c; rfl
  split
  · subst c; rfl
  split
  · rename_i h
    rw [h.1]; rfl
  split
  · exact unescapeChar?_codePointEscape c rest
  split
  · rename_i hbackslash _ _ _ _
    simp [unescapeChar?, hbackslash]
  · exact unescapeChar?_codePointEscape c rest

/-- The escaped form of a character is read back, whatever follows. -/
theorem unescape?_escapeChar_append (style : EscapeStyle) (c : Char) (rest : Text) :
    unescape? (escapeChar style c ++ rest) = (unescape? rest).map (c :: ·) := by
  have h := unescapeChar?_escapeChar style c rest
  rw [unescape?, if_neg (by intro hnil; rw [hnil] at h; cases h)]
  split
  · rename_i h'
    rw [h] at h'
    cases h'
  · rename_i h'
    rw [h] at h'
    cases h'
    rfl

/-- The escaped forms of characters in order are read back as the text of them. -/
theorem unescape?_flatMap (style : EscapeStyle) (t : Text) :
    unescape? (t.flatMap (escapeChar style)) = some t := by
  induction t with
  | nil => simp [unescape?]
  | cons c t ih => rw [List.flatMap_cons, unescape?_escapeChar_append, ih]; rfl

/-- An escaped text is read back as the text it was made from. -/
theorem unescape?_escape (t : Text) : unescape? (escape t) = some t := by
  cases t with
  | nil => simp [escape, unescape?]
  | cons c t => rw [escape, unescape?_escapeChar_append, unescape?_flatMap]; rfl

end EdnTokens.Text
