/-!
# Texts

A text is the list of its characters. Every offset in this library counts characters, the first
one having offset `1`; byte counts occur only where a text meets its UTF-8 encoding.
-/

namespace EdnTokens

/-- A text, given by its characters in order. -/
abbrev Text := List Char

namespace Text

/-! ### Encoded form -/

/-- Number of bytes in the UTF-8 encoding of a text. -/
def utf8Length : Text → Nat
  | [] => 0
  | c :: t => c.utf8Size + utf8Length t

@[simp] theorem utf8Length_nil : utf8Length [] = 0 := rfl

@[simp] theorem utf8Length_cons (c : Char) (t : Text) :
    utf8Length (c :: t) = c.utf8Size + utf8Length t := rfl

@[simp] theorem utf8Length_append (s t : Text) :
    utf8Length (s ++ t) = utf8Length s + utf8Length t := by
  induction s with
  | nil => simp
  | cons c s ih => rw [List.cons_append, utf8Length_cons, utf8Length_cons, ih, Nat.add_assoc]

/-- What remains of a text after its first `n` bytes, provided they end at a character boundary
inside the text. -/
def dropBytes? : Nat → Text → Option Text
  | 0, t => some t
  | _ + 1, [] => none
  | n + 1, c :: t => if n + 1 < c.utf8Size then none else dropBytes? (n + 1 - c.utf8Size) t

/-- The first `n` bytes of a text, provided they end at a character boundary inside the text. -/
def takeBytes? : Nat → Text → Option Text
  | 0, _ => some []
  | _ + 1, [] => none
  | n + 1, c :: t =>
    if n + 1 < c.utf8Size then none
    else (takeBytes? (n + 1 - c.utf8Size) t).map fun taken => c :: taken

/-- The bytes of a text from `start` up to but not including `stop`, provided that these follow each
other and lie at character boundaries inside the text. -/
def sliceBytes? (start stop : Nat) (t : Text) : Option Text :=
  if stop < start then none else (dropBytes? start t).bind (takeBytes? (stop - start))

/-- The bytes of the first character are dropped with it. -/
theorem dropBytes?_cons (n : Nat) (c : Char) (t : Text) :
    dropBytes? (c.utf8Size + n) (c :: t) = dropBytes? n t := by
  have hpos : 0 < c.utf8Size := c.utf8Size_pos
  obtain ⟨m, hm⟩ : ∃ m, c.utf8Size + n = m + 1 := ⟨_, (Nat.succ_pred (by omega)).symm⟩
  rw [hm, dropBytes?, if_neg (by omega), ← hm, Nat.add_sub_cancel_left]

/-- The bytes of the first character are taken with it. -/
theorem takeBytes?_cons (n : Nat) (c : Char) (t : Text) :
    takeBytes? (c.utf8Size + n) (c :: t) = (takeBytes? n t).map fun taken => c :: taken := by
  have hpos : 0 < c.utf8Size := c.utf8Size_pos
  obtain ⟨m, hm⟩ : ∃ m, c.utf8Size + n = m + 1 := ⟨_, (Nat.succ_pred (by omega)).symm⟩
  rw [hm, takeBytes?, if_neg (by omega), ← hm, Nat.add_sub_cancel_left]

/-- Dropping the bytes of a first part leaves the second. -/
@[simp] theorem dropBytes?_utf8Length_append (s t : Text) :
    dropBytes? (utf8Length s) (s ++ t) = some t := by
  induction s with
  | nil => simp [dropBytes?]
  | cons c s ih => rw [utf8Length_cons, List.cons_append, dropBytes?_cons, ih]

/-- Taking the bytes of a first part gives that part. -/
@[simp] theorem takeBytes?_utf8Length_append (s t : Text) :
    takeBytes? (utf8Length s) (s ++ t) = some s := by
  induction s with
  | nil => simp [takeBytes?]
  | cons c s ih => rw [utf8Length_cons, List.cons_append, takeBytes?_cons, ih, Option.map_some]

/-- The bytes between the ends of two first parts are those that the second one adds. -/
theorem sliceBytes?_append (s t u : Text) :
    sliceBytes? (utf8Length s) (utf8Length (s ++ t)) (s ++ (t ++ u)) = some t := by
  rw [sliceBytes?, utf8Length_append, if_neg (by omega), dropBytes?_utf8Length_append,
    Option.bind_some, Nat.add_sub_cancel_left, takeBytes?_utf8Length_append]

/-- No slice begins inside a character. -/
example : sliceBytes? 1 2 "λ".toList = none := by decide

/-- The UTF-8 encoding of a text. -/
def toBytes (t : Text) : ByteArray :=
  (String.ofList t).toUTF8

/-- The text that some bytes encode, if they are well-formed UTF-8. -/
def ofBytes? (bytes : ByteArray) : Option Text :=
  (String.fromUTF8? bytes).map String.toList

/-- Decoding gives back what was encoded. -/
@[simp] theorem ofBytes?_toBytes (t : Text) : ofBytes? (toBytes t) = some t := by
  have hbytes : String.fromUTF8? (String.ofList t).toUTF8 = some (String.ofList t) :=
    dif_pos (String.ofList t).isValidUTF8
  rw [ofBytes?, toBytes, hbytes, Option.map_some, String.toList_ofList]

/-- The character with a code point, if there is one. -/
def charOfCodePoint? (n : Nat) : Option Char :=
  if n.isValidChar then some (Char.ofNat n) else none

/-- A character is found again by its code point. -/
@[simp] theorem charOfCodePoint?_toNat (c : Char) : charOfCodePoint? c.toNat = some c := by
  have h : c.toNat.isValidChar := c.valid
  simp [charOfCodePoint?, h]

/-! ### Runs of characters -/

/-- A run of characters of one sort ends where a character of another sort follows. -/
theorem takeWhile_append_of_head? {p : Char → Bool} {run rest : Text}
    (hrun : ∀ c ∈ run, p c = true) (hrest : ∀ c, rest.head? = some c → p c = false) :
    (run ++ rest).takeWhile p = run := by
  rw [List.takeWhile_append_of_pos hrun]
  cases rest with
  | nil => simp
  | cons c rest => simp [hrest c rfl]

/-- Dropping such a run leaves what stands behind it. -/
theorem dropWhile_append_of_head? {p : Char → Bool} {run rest : Text}
    (hrun : ∀ c ∈ run, p c = true) (hrest : ∀ c, rest.head? = some c → p c = false) :
    (run ++ rest).dropWhile p = rest := by
  rw [List.dropWhile_append_of_pos hrun]
  cases rest with
  | nil => rfl
  | cons c rest => simp [hrest c rfl]

/-! ### Layout -/

/-- A text moved to the right end of a field of the given width; longer texts are kept whole. -/
def alignRight (width : Nat) (t : Text) : Text :=
  List.replicate (width - t.length) ' ' ++ t

/-- A text without the copies of `c` at its end. -/
def dropTrailing (c : Char) (t : Text) : Text :=
  (t.reverse.dropWhile (· == c)).reverse

/-- A text followed by a line feed. -/
def line (t : Text) : Text :=
  t ++ ['\n']

end Text

end EdnTokens
