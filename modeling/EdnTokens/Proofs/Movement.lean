import EdnTokens.Proofs.Cursor
import EdnTokens.Proofs.Lines
import EdnTokens.Proofs.Longest

/-!
# Cursors on the move

A cursor counts how far it has come in bytes, in characters, and in lines and columns, and it also
keeps what lies ahead. However it was moved, all of this describes one place in the source: there is
a text that it has passed, the counters are those of that text, and what lies ahead is the rest
(`Cursor.stands_after_moves`). Every movement adds to the passed text what it takes from the rest.

Moving from one such place leads to another one, so the statement goes through any number of
movements (`Cursor.move_behind`). Lines and columns are 32-bit words and have to fit.

The counters are not only kept but also used: what lies ahead can be decoded from the bytes of the
source behind the offset, and the next character can be told from the byte at the offset alone if
that is below 128 (`Cursor.decoded?`). No byte below 128 leads a longer character, which is why
reading ahead this way is the same as reading ahead in the text.
-/

namespace EdnTokens

namespace Text

/-! ### Encoded texts -/

/-- The bytes of a text are those of its characters in order. -/
lemma toList_data_toBytes (t : Text) :
    t.toBytes.data.toList = t.flatMap String.utf8EncodeChar := by
  rw [toBytes, String.toUTF8_eq_toByteArray, String.toByteArray_ofList, List.utf8Encode,
    List.data_toByteArray]

/-- Two texts are encoded one after the other. -/
lemma toBytes_append (s t : Text) : toBytes (s ++ t) = s.toBytes ++ t.toBytes := by
  simp only [toBytes, String.toUTF8_eq_toByteArray, String.toByteArray_ofList,
    List.utf8Encode_append]

/-- A text has as many bytes as its characters have together. -/
lemma length_flatMap_utf8EncodeChar (t : Text) :
    (t.flatMap String.utf8EncodeChar).length = t.utf8Length := by
  induction t with
  | nil => rfl
  | cons c t ih =>
    rw [List.flatMap_cons, List.length_append, String.length_utf8EncodeChar, ih, utf8Length_cons]

/-- The encoded form of a text has its length in bytes. -/
lemma size_toBytes (t : Text) : t.toBytes.size = t.utf8Length := by
  rw [ByteArray.size, ← Array.length_toList, toList_data_toBytes, length_flatMap_utf8EncodeChar]

/-- The byte behind the encoding of a first part begins the encoding of the second one. -/
lemma getElem?_toBytes_append (s t : Text) :
    (toBytes (s ++ t)).data[s.utf8Length]? = (t.flatMap String.utf8EncodeChar).head? := by
  rw [← Array.getElem?_toList, toList_data_toBytes, List.flatMap_append,
    List.getElem?_append_right (length_flatMap_utf8EncodeChar s).le,
    length_flatMap_utf8EncodeChar, Nat.sub_self, List.head?_eq_getElem?]

/-- The bytes behind the encoding of a first part encode the second one. -/
lemma ofBytes?_extract_append (s t : Text) :
    ofBytes? ((toBytes (s ++ t)).extract s.utf8Length (toBytes (s ++ t)).size) = some t := by
  rw [toBytes_append, ByteArray.extract_append_eq_right (size_toBytes s).symm
    ByteArray.size_append, ofBytes?_toBytes]

/-- A byte from 128 on is not below 128. -/
lemma not_ofNat_lt {n : Nat} (hle : 128 ≤ n) (hlt : n < 256) : ¬ UInt8.ofNat n < 128 := by
  have hbyte : (128 : UInt8).toNat = 128 := rfl
  rw [UInt8.lt_iff_toNat_lt, UInt8.toNat_ofNat', hbyte]
  omega

/-- A character is encoded as one byte, which is its code, or the first byte is at least 128. -/
lemma exists_utf8EncodeChar_eq_cons (c : Char) :
    ∃ b bytes, String.utf8EncodeChar c = b :: bytes ∧ (b < 128 → Char.ofUInt8 b = c) := by
  fun_cases String.utf8EncodeChar c with
  | case1 code hone =>
    refine ⟨_, _, rfl, fun _ => ?_⟩
    apply Char.ext
    apply UInt32.toNat_inj.mp
    change code % 2 ^ 8 = code
    exact Nat.mod_eq_of_lt (by omega)
  | case2 code _ htwo =>
    exact ⟨_, _, rfl, fun hlt => absurd hlt (not_ofNat_lt (by omega) (by omega))⟩
  | case3 code _ _ hthree =>
    exact ⟨_, _, rfl, fun hlt => absurd hlt (not_ofNat_lt (by omega) (by omega))⟩
  | case4 code =>
    exact ⟨_, _, rfl, fun hlt => absurd hlt (not_ofNat_lt (by omega) (by omega))⟩

/-! ### Boundaries of characters -/

/-- A number of bytes after which a character of the text begins or the text ends. -/
def IsBoundary (t : Text) (n : Nat) : Prop :=
  ∃ before : Text, before <+: t ∧ before.utf8Length = n

/-- Dropping bytes succeeds exactly at a boundary. -/
lemma dropBytes?_eq_some_iff {n : Nat} {t u : Text} :
    dropBytes? n t = some u ↔ ∃ before, t = before ++ u ∧ before.utf8Length = n := by
  constructor
  · intro h
    fun_induction dropBytes? n t with
    | case1 t =>
      cases h
      exact ⟨[], rfl, rfl⟩
    | case2 n => cases h
    | case3 n c t hlt => cases h
    | case4 n c t hle ih =>
      obtain ⟨before, rfl, hbefore⟩ := ih h
      refine ⟨c :: before, rfl, ?_⟩
      rw [utf8Length_cons, hbefore]
      omega
  · rintro ⟨before, rfl, rfl⟩
    exact dropBytes?_utf8Length_append before u

/-- Of two beginnings of a text, the one with fewer bytes begins the other. -/
lemma prefix_of_utf8Length_le {s t u : Text} (hs : s <+: u) (ht : t <+: u)
    (h : s.utf8Length ≤ t.utf8Length) : s <+: t := by
  rcases Nat.le_total s.length t.length with hle | hge
  · exact List.prefix_of_prefix_length_le hs ht hle
  · obtain ⟨more, rfl⟩ := List.prefix_of_prefix_length_le ht hs hge
    cases more with
    | nil =>
      rewrite [List.append_nil]
      exact List.prefix_rfl
    | cons c more =>
      have hpos := c.utf8Size_pos
      rw [utf8Length_append, utf8Length_cons] at h
      omega

/-- A boundary of a text that does not lie behind its first part is a boundary of that part. -/
lemma isBoundary_append_iff {s : Text} {n : Nat} (h : n ≤ s.utf8Length) (t : Text) :
    IsBoundary (s ++ t) n ↔ ∃ u, dropBytes? n s = some u := by
  simp only [dropBytes?_eq_some_iff]
  constructor
  · rintro ⟨before, hbefore, rfl⟩
    obtain ⟨u, rfl⟩ := prefix_of_utf8Length_le hbefore (List.prefix_append s t) h
    exact ⟨u, before, rfl, rfl⟩
  · rintro ⟨u, before, rfl, rfl⟩
    exact ⟨before, ⟨u ++ t, by rw [List.append_assoc]⟩, rfl⟩

/-- A slice up to the end of the first part of a text only looks at that part. -/
lemma sliceBytes?_utf8Length_append (start : Nat) (s t : Text) :
    sliceBytes? start s.utf8Length (s ++ t) = dropBytes? start s := by
  rw [sliceBytes?]
  cases hdrop : dropBytes? start s with
  | some u =>
    obtain ⟨before, rfl, rfl⟩ := dropBytes?_eq_some_iff.mp hdrop
    rw [List.append_assoc, ← sliceBytes?, sliceBytes?_append]
  | none =>
    split_ifs with hlt
    · rfl
    · rw [Option.bind_eq_none_iff]
      intro v hv
      obtain ⟨before, hbefore, hbytes⟩ := dropBytes?_eq_some_iff.mp hv
      have hboundary : IsBoundary (s ++ t) start := ⟨before, ⟨v, hbefore.symm⟩, hbytes⟩
      obtain ⟨u, hu⟩ := (isBoundary_append_iff (Nat.not_lt.mp hlt) t).mp hboundary
      rw [hdrop] at hu
      cases hu

end Text

namespace Cursor

/-! ### Reading ahead in the encoded source -/

/-- What lies ahead, decoded from the bytes of the source behind the offset. -/
def remaining? (c : Cursor) : Option Text :=
  Text.ofBytes? (c.source.toBytes.extract c.offset c.source.toBytes.size)

/-- The next character, found from the byte at the offset. A byte below 128 is a character of its
own, and any other one leads a longer character, which is decoded. -/
def decoded? (c : Cursor) : Option Char :=
  c.source.toBytes.data[c.offset]?.bind fun b =>
    if b < 128 then some (Char.ofUInt8 b) else c.remaining?.bind List.head?

/-- The bytes behind the offset are those of the text ahead. -/
lemma remaining?_behind (passed rest : Text) : (behind passed rest).remaining? = some rest :=
  Text.ofBytes?_extract_append passed rest

/-- The character decoded at the offset is the first one ahead. -/
lemma decoded?_behind (passed rest : Text) : (behind passed rest).decoded? = rest.head? := by
  have hbyte : (behind passed rest).source.toBytes.data[(behind passed rest).offset]? =
      (rest.flatMap String.utf8EncodeChar).head? := Text.getElem?_toBytes_append passed rest
  rw [decoded?, hbyte, remaining?_behind]
  cases rest with
  | nil => rfl
  | cons c rest =>
    obtain ⟨b, bytes, hencoded, hone⟩ := Text.exists_utf8EncodeChar_eq_cons c
    rw [List.flatMap_cons, hencoded, List.cons_append, List.head?_cons, Option.bind_some]
    split_ifs with hlt
    · rw [hone hlt, List.head?_cons]
    · rw [Option.bind_some]

/-! ### One movement -/

/-- The ways to move a cursor. -/
inductive Move
  /-- Over one character. -/
  | advance
  /-- Over a number of characters. -/
  | advanceBy (n : Nat)
  /-- Over a particular character. -/
  | eat (x : Char)
  /-- Over a run of characters. -/
  | eatWhile (p : Char → Bool)

/-- The cursor after a movement. -/
def move (c : Cursor) : Move → Cursor
  | .advance => c.advance
  | .advanceBy n => c.advanceBy n
  | .eat x => (c.eat x).2
  | .eatWhile p => (c.eatWhile p).2

/-- The cursor after some movements. -/
def moves (c : Cursor) (ms : List Move) : Cursor :=
  ms.foldl move c

/-- From a cursor with `rest` ahead the movement takes `taken`, and tells so. Moving by a number
takes so many characters, or as many as there are. A particular character is taken if it comes next.
The run that is taken is the longest one. -/
def Move.Takes (c : Cursor) (rest taken : Text) : Move → Prop
  | .advance => taken.length = min 1 rest.length
  | .advanceBy n => taken.length = min n rest.length
  | .eat x => taken = (if rest.head? = some x then [x] else []) ∧
      ((c.eat x).1 = true ↔ rest.head? = some x)
  | .eatWhile p => Longest (fun t => ∀ x ∈ t, p x = true) rest taken ∧
      (c.eatWhile p).1 = taken.length

/-- Moving over a run moves over as many characters as the run has. -/
lemma eatWhileFrom_behind (p : Char → Bool) (eaten : Nat) (passed rest : Text) :
    eatWhileFrom p eaten (behind passed rest) =
      (eaten + Extent.run p rest, behind (passed ++ rest.take (Extent.run p rest))
        (rest.drop (Extent.run p rest))) := by
  induction rest generalizing eaten passed with
  | nil =>
    rw [eatWhileFrom]
    simp [current?, behind, Extent.run]
  | cons c rest ih =>
    have hcurrent : (behind passed (c :: rest)).current? = some c := rfl
    rw [eatWhileFrom, Extent.run_cons]
    split
    · rename_i hnone
      rw [hcurrent] at hnone
      cases hnone
    · rename_i x hsome
      obtain rfl : c = x := Option.some.inj (hcurrent.symm.trans hsome)
      split_ifs with hc
      · rw [advance_behind, ih, List.take_succ_cons, List.drop_succ_cons, List.append_assoc,
          List.singleton_append, Nat.add_right_comm]
        rfl
      · rw [List.take_zero, List.append_nil, List.drop_zero, Nat.add_zero]

/-- A movement from behind a text leads behind a longer one, by what it takes. -/
lemma move_behind (passed rest : Text) (m : Move) :
    ∃ taken later, rest = taken ++ later ∧ m.Takes (behind passed rest) rest taken ∧
      (behind passed rest).move m = behind (passed ++ taken) later := by
  cases m with
  | advance =>
    cases rest with
    | nil => exact ⟨[], [], rfl, rfl, by rw [List.append_nil]; rfl⟩
    | cons c rest =>
      refine ⟨[c], rest, rfl, ?_, advance_behind passed c rest⟩
      simp [Move.Takes]
  | advanceBy n =>
    exact ⟨rest.take n, rest.drop n, (List.take_append_drop n rest).symm, List.length_take,
      advanceBy_behind passed rest n⟩
  | eat x =>
    have hcurrent : (behind passed rest).current? = rest.head? := rfl
    by_cases hx : rest.head? = some x
    · obtain ⟨later, rfl⟩ := List.head?_eq_some_iff.mp hx
      refine ⟨[x], later, rfl, ?_, ?_⟩
      · simp [Move.Takes, eat, hcurrent]
      · rw [move, eat, if_pos (hcurrent.trans hx), advance_behind]
    · refine ⟨[], rest, rfl, ?_, ?_⟩
      · simp [Move.Takes, eat, hcurrent, hx]
      · rw [move, eat, hcurrent, if_neg hx, List.append_nil]
  | eatWhile p =>
    have hrun := eatWhileFrom_behind p 0 passed rest
    refine ⟨rest.take (Extent.run p rest), rest.drop (Extent.run p rest),
      (List.take_append_drop _ rest).symm, ⟨(Extent.measures_run p rest).longest, ?_⟩, ?_⟩
    · rw [eatWhile, hrun, Nat.zero_add, List.length_take, min_eq_left (Extent.fits_run p rest)]
    · rw [move, eatWhile, hrun]

/-! ### Any number of movements -/

/-- The last of some movements goes on from where the others lead. -/
lemma moves_concat (c : Cursor) (ms : List Move) (m : Move) :
    c.moves (ms ++ [m]) = (c.moves ms).move m := by
  rw [moves, List.foldl_append, List.foldl_cons, List.foldl_nil, moves]

/-- However it is moved, a cursor stands between two parts of its source. -/
lemma exists_moves_eq_behind (source : Text) (ms : List Move) :
    ∃ passed rest, source = passed ++ rest ∧ (ofText source).moves ms = behind passed rest := by
  induction ms using List.reverseRecOn with
  | nil => exact ⟨[], source, rfl, ofText_eq_behind source⟩
  | append_singleton ms m ih =>
    -- the movement before the last one leads behind a text, and the last one leads on from there
    obtain ⟨passed, rest, rfl, hms⟩ := ih
    obtain ⟨taken, later, rfl, -, hm⟩ := move_behind passed rest m
    refine ⟨passed ++ taken, later, by rw [List.append_assoc], ?_⟩
    rw [moves_concat, hms, hm]

/-- The cursor stands in its source behind `passed` and before `rest`. Its counters are the bytes
and the characters of the text that it has passed, its lines, and the characters of the last one of
them. What it keeps ahead is the rest, and so is what can be decoded behind its offset. It is at the
end if the rest is empty, which is the case if its offset is the size of the source. -/
structure Stands (source passed rest : Text) (c : Cursor) : Prop where
  source_eq : c.source = source
  split : source = passed ++ rest
  offset : c.offset = passed.utf8Length
  position : c.position = passed.length + 1
  line : c.line.toNat = 1 + passed.count '\n'
  column : c.column.toNat = 1 + (passed.rtakeWhile (· != '\n')).length
  rest_eq : c.rest = rest
  remaining : c.remaining? = some rest
  atEnd_iff : c.atEnd = true ↔ rest = []
  offset_iff : c.source.utf8Length ≤ c.offset ↔ rest = []

/-- What the cursor sees of the text behind it and of the text ahead. The next character is the same
if it is found from the byte at the offset. A slice goes from a byte up to the cursor and is there
exactly if that byte does not lie behind the offset and is no inner byte of a character. -/
structure Sees (source passed rest : Text) (c : Cursor) : Prop where
  current : c.current? = rest.head?
  decoded : c.decoded? = rest.head?
  charAt : ∀ n, c.charAt? n = rest[n]?
  peek : ∀ n, c.peek n = rest.take n
  slice : ∀ start t, c.sliceFrom? start = some t ↔
    ∃ before, passed = before ++ t ∧ before.utf8Length = start
  isSome_slice : ∀ start, (c.sliceFrom? start).isSome = true ↔
    start ≤ c.offset ∧ source.IsBoundary start
  slice_eq : ∀ start, c.sliceFrom? start = source.sliceBytes? start c.offset

/-- A cursor between two texts knows where it stands. Its 32-bit counters need a text that is not
too long. -/
lemma stands_behind {passed rest : Text} (hlen : (passed ++ rest).length < UInt32.size - 1) :
    (behind passed rest).Stands (passed ++ rest) passed rest := by
  have hpassed : passed.length < UInt32.size - 1 := by
    rw [List.length_append] at hlen
    omega
  refine {
    source_eq := rfl, split := rfl, offset := rfl, position := rfl, rest_eq := rfl
    line := ?_, column := ?_, remaining := remaining?_behind passed rest
    atEnd_iff := List.isEmpty_iff, offset_iff := ?_ }
  · rw [behind, Text.toNat_line_endPosition hpassed, Text.endPosition, Nat.add_comm]
  · rw [behind, Text.toNat_column_endPosition hpassed, Text.column_endPosition_eq, Nat.add_comm,
      Text.lastLine]
  · simp only [behind, Text.utf8Length_append]
    cases rest with
    | nil => simp
    | cons c rest =>
      have hpos := c.utf8Size_pos
      refine iff_of_false ?_ (List.cons_ne_nil c rest)
      rw [Text.utf8Length_cons]
      omega

/-- A cursor between two texts sees both of them, however long they are. -/
lemma sees_behind (passed rest : Text) :
    (behind passed rest).Sees (passed ++ rest) passed rest := by
  -- slices are cut out of the part that was passed, so their end is never inside a character
  have hslice : ∀ start, (behind passed rest).sliceFrom? start =
      Text.dropBytes? start passed := by
    intro start
    rw [sliceFrom?, behind, Nat.add_sub_cancel, List.take_left]
  refine {
    current := rfl, charAt := fun _ => rfl, peek := fun _ => rfl
    decoded := decoded?_behind passed rest, slice := ?_, isSome_slice := ?_, slice_eq := ?_ }
  · intro start t
    rw [hslice, Text.dropBytes?_eq_some_iff]
  · intro start
    rw [hslice, Option.isSome_iff_exists]
    constructor
    · intro hsome
      have hle : start ≤ passed.utf8Length := by
        obtain ⟨t, ht⟩ := hsome
        obtain ⟨before, rfl, rfl⟩ := Text.dropBytes?_eq_some_iff.mp ht
        rw [Text.utf8Length_append]
        omega
      exact ⟨hle, (Text.isBoundary_append_iff hle rest).mpr hsome⟩
    · rintro ⟨hle, hboundary⟩
      exact (Text.isBoundary_append_iff hle rest).mp hboundary
  · intro start
    exact (hslice start).trans (Text.sliceBytes?_utf8Length_append start passed rest).symm

/-- Whatever movements a cursor has made from the beginning of a source, it stands behind a first
part of the source and before the rest, and sees just these. The next movement takes what it has to
from the rest and adds it to the part that was passed, which therefore only grows. -/
theorem stands_after_moves (source : Text) (hlen : source.length < UInt32.size - 1)
    (ms : List Move) :
    ∃ passed rest, ((ofText source).moves ms).Stands source passed rest ∧
      ((ofText source).moves ms).Sees source passed rest ∧
      ∀ m : Move, ∃ taken later, rest = taken ++ later ∧
        m.Takes ((ofText source).moves ms) rest taken ∧
        ((ofText source).moves (ms ++ [m])).Stands source (passed ++ taken) later := by
  obtain ⟨passed, rest, rfl, hms⟩ := exists_moves_eq_behind source ms
  refine ⟨passed, rest, ?_, ?_, fun m => ?_⟩
  · rw [hms]
    exact stands_behind hlen
  · rw [hms]
    exact sees_behind passed rest
  · -- one more movement is a movement from behind the part passed so far
    obtain ⟨taken, later, rfl, htakes, hm⟩ := move_behind passed rest m
    have hnext : (ofText (passed ++ (taken ++ later))).moves (ms ++ [m]) =
        behind (passed ++ taken) later := by
      rw [moves_concat, hms, hm]
    refine ⟨taken, later, rfl, by rw [hms]; exact htakes, ?_⟩
    rw [hnext, ← List.append_assoc]
    rw [← List.append_assoc] at hlen
    exact stands_behind hlen

/-- A run up to the end of a line, that line end, and then more characters than there are. In
between, the next character is found from a byte that leads three. -/
theorem stands_after_moves_lines :
    "λ\n→x".toList.length < UInt32.size - 1 ∧
      ((ofText "λ\n→x".toList).moves [.eatWhile (· != '\n'), .advance]).Stands
        "λ\n→x".toList "λ\n".toList "→x".toList ∧
      ((ofText "λ\n→x".toList).moves [.eatWhile (· != '\n'), .advance]).decoded? = some '→' ∧
      ((ofText "λ\n→x".toList).moves [.eatWhile (· != '\n'), .advance, .advanceBy 9]).Stands
        "λ\n→x".toList "λ\n→x".toList [] := by
  have hlen : "λ\n→x".toList.length < UInt32.size - 1 := by decide
  have hahead : ((ofText "λ\n→x".toList).moves [.eatWhile (· != '\n'), .advance]).rest =
      "→x".toList := by
    decide +kernel
  obtain ⟨passed, rest, hstands, hsees, hnext⟩ :=
    stands_after_moves "λ\n→x".toList hlen [.eatWhile (· != '\n'), .advance]
  obtain rfl : "→x".toList = rest := hahead.symm.trans hstands.rest_eq
  obtain rfl : "λ\n".toList = passed := by
    have hsplit : "λ\n".toList ++ "→x".toList = passed ++ "→x".toList := hstands.split
    exact List.append_cancel_right hsplit
  obtain ⟨taken, later, hrest, htaken, hlast⟩ := hnext (.advanceBy 9)
  have hlength : taken.length = "→x".toList.length := htaken
  obtain ⟨rfl, rfl⟩ := List.append_inj (hrest.symm.trans (List.append_nil _).symm) hlength
  exact ⟨hlen, hstands, hsees.decoded, hlast⟩

end Cursor

end EdnTokens
