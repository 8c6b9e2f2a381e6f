import EdnTokens.Proofs.Lexemes

/-!
# Scanners in any order

The scanners of a session can be called one by one: on characters that they are not made for, at the
end of the text, and several times without a new token begun. The cursor can also be moved without
any scanner. Whatever the order, every slice of the source that is taken is one between two
characters, and tokens and diagnostics are about the piece of the source from the last recorded
beginning up to the cursor (`safeCall_of_calls`).

What carries this is that a session always splits its source in three: what lies before the current
token, what the token has taken so far, and what lies ahead (`Session.Covers`). A scanner or a
movement takes from the third part to the second. A new token moves the second part to the first.
-/

namespace EdnTokens

open Lexeme

/-- The piece of a text from one offset up to, but not including, another. -/
def Text.piece (t : Text) (start stop : Nat) : Text :=
  (t.drop (start - 1)).take (stop - start)

/-! ### Calls -/

/-- What a session can be told to do. -/
inductive Call
  /-- Begin a token and read it. -/
  | nextToken
  /-- Begin a token and read it, without giving the end token. -/
  | next
  /-- Move the cursor. -/
  | advance (n : Nat)
  /-- Continue the current token with a scanner. -/
  | scan (scanner : Scanner)
  deriving DecidableEq, Repr

/-- Whether the call begins a token. -/
def Call.begins : Call → Bool
  | .nextToken | .next => true
  | .advance _ | .scan _ => false

namespace Session

/-- Performs a call, which may give a token. -/
def call (s : Session) : Call → Option Token × Session
  | .nextToken =>
    let (token, s) := s.nextToken
    (some token, s)
  | .next => s.next?
  | .advance n => (none, s.advanceBy n)
  | .scan scanner =>
    let (token, s) := s.scanWith scanner
    (some token, s)

/-- The session after some calls. -/
def calls (s : Session) : List Call → Session
  | [] => s
  | c :: cs => (s.call c).2.calls cs

/-- Where the last call that begins a token found the cursor, or else `mark`. -/
def recorded (s : Session) (mark : Nat) : List Call → Nat
  | [] => mark
  | c :: cs => (s.call c).2.recorded (if c.begins then s.cursor.position else mark) cs

/-- The call that led from one session to another was safe. The cursor moved over characters of the
source, and what lay ahead of it on the way is a slice of the source. So is everything from the
recorded start up to the cursor. The token has that start and that text, and the diagnostics that
the call emitted have that span and the place of the start. -/
structure SafeCall (source : Text) (start : Nat) (s : Session) (token? : Option Token)
    (s' : Session) : Prop where
  moves : ∃ n, s'.cursor = s.cursor.advanceBy n
  ahead : ∀ n, Text.dropBytes? (s.cursor.advanceBy n).offset source =
    some (s.cursor.advanceBy n).rest
  bounds : start ≤ s'.cursor.position ∧ s'.cursor.position ≤ source.length + 1
  slice : s'.cursor.sliceFrom? s'.start.offset = some (source.piece start s'.cursor.position)
  token : ∀ t ∈ token?, t.start = start ∧ t.text = source.piece start s'.cursor.position
  diagnostics : ∃ ds, s'.collector.diagnostics = s.collector.diagnostics ++ ds ∧
    ∀ d ∈ ds, d.span.start = start ∧ d.span.stop = s'.cursor.position ∧
      (Lines.ofText source).position start = ⟨d.span.line.toNat, d.span.column.toNat⟩

/-! ### One call -/

variable {s : Session} {source passed between rest : Text}

/-- What the current token takes from the text ahead stays where it is in the source. -/
lemma source_eq_append_take (hsource : source = passed ++ (between ++ rest)) (n : Nat) :
    source = passed ++ (between ++ rest.take n ++ rest.drop n) := by
  rw [hsource, List.append_assoc, List.take_append_drop]

/-- What the current token has taken is the piece of the source up to the cursor. -/
lemma Covers.piece_eq (h : s.Covers passed between rest)
    (hsource : source = passed ++ (between ++ rest)) :
    source.piece (passed.length + 1) s.cursor.position = between := by
  have hlength : s.cursor.position - (passed.length + 1) = between.length := by
    rw [h.cursor]
    simp only [Cursor.behind, List.length_append]
    omega
  rw [Text.piece, hlength, hsource, Nat.add_sub_cancel, List.drop_left, List.take_left]

/-- The cursor stands behind the beginning of the current token, and inside the source. -/
lemma Covers.bounds (h : s.Covers passed between rest)
    (hsource : source = passed ++ (between ++ rest)) :
    passed.length + 1 ≤ s.cursor.position ∧ s.cursor.position ≤ source.length + 1 := by
  rw [h.cursor, hsource]
  simp only [Cursor.behind, List.length_append]
  omega

/-- Wherever the cursor moves to, what lies ahead is a slice of the source. -/
lemma Covers.dropBytes?_advanceBy (h : s.Covers passed between rest)
    (hsource : source = passed ++ (between ++ rest)) (n : Nat) :
    Text.dropBytes? (s.cursor.advanceBy n).offset source = some (s.cursor.advanceBy n).rest := by
  have hsplit : source = (passed ++ between ++ rest.take n) ++ rest.drop n := by
    rw [hsource, List.append_assoc, List.take_append_drop, List.append_assoc]
  rw [h.cursor, Cursor.advanceBy_behind, hsplit]
  exact Text.dropBytes?_utf8Length_append _ _

/-- A scan of the current token is a safe call. -/
lemma Covers.safeCall_perform (h : s.Covers passed between rest)
    (hsource : source = passed ++ (between ++ rest)) (hlen : source.length < UInt32.size - 1)
    (scan : Scan) :
    SafeCall source (passed.length + 1) s (some (s.perform scan).1) (s.perform scan).2 := by
  have hafter := h.perform scan
  have hsource' := source_eq_append_take hsource scan.width
  have hpiece := hafter.piece_eq hsource'
  refine {
    moves := ⟨scan.width, ?_⟩, ahead := h.dropBytes?_advanceBy hsource
    bounds := hafter.bounds hsource', slice := ?_, token := ?_
    diagnostics := ⟨_, h.diagnostics_perform scan, ?_⟩ }
  · rw [Session.perform, cursor_close]
    rfl
  · rw [hafter.sliceFrom?, hpiece]
  · intro t ht
    obtain rfl := Option.some.inj ht
    rw [h.fst_perform scan, hpiece]
    exact ⟨rfl, rfl⟩
  · intro d hd
    -- a diagnostic is emitted for the current token or not at all
    have hspan : d.span = spanBehind passed (between ++ rest.take scan.width) := by
      split at hd
      · exact span_of_mem_diagnostic? hd
      · cases hd
    have hposition : (Lines.ofText source).position (passed.length + 1) = passed.endPosition := by
      rw [hsource, Lines.position_append]
    have hpassed : passed.length < UInt32.size - 1 := by
      rw [hsource, List.length_append] at hlen
      omega
    rw [hspan, hafter.cursor, hposition]
    refine ⟨rfl, ?_, ?_⟩
    · simp only [spanBehind, Cursor.behind, List.length_append]
      omega
    · rw [spanBehind, Text.toNat_line_endPosition hpassed, Text.toNat_column_endPosition hpassed]

/-- So is a movement, which gives and emits nothing. -/
lemma Covers.safeCall_advanceBy (h : s.Covers passed between rest)
    (hsource : source = passed ++ (between ++ rest)) (n : Nat) :
    SafeCall source (passed.length + 1) s none (s.advanceBy n) := by
  have hafter := h.advanceBy n
  have hsource' := source_eq_append_take hsource n
  refine {
    moves := ⟨n, rfl⟩, ahead := h.dropBytes?_advanceBy hsource
    bounds := hafter.bounds hsource', slice := ?_, token := by simp
    diagnostics := ⟨[], (List.append_nil _).symm, by simp⟩ }
  rw [hafter.sliceFrom?, hafter.piece_eq hsource']

/-! ### Any number of calls -/

/-- The session splits the source in three, and its current token begins at `mark`. -/
def Tracks (source : Text) (mark : Nat) (s : Session) : Prop :=
  ∃ passed between rest, source = passed ++ (between ++ rest) ∧ mark = passed.length + 1 ∧
    s.Covers passed between rest

variable {mark : Nat}

/-- At the beginning of a text the current token begins there, too. -/
lemma tracks_ofText (options : Options) (collector : Collector) (source : Text) :
    Tracks source 1 (.ofText options collector source) :=
  ⟨[], [], source, rfl, rfl, rfl, rfl⟩

/-- A token that begins is recorded at the cursor. -/
lemma Tracks.begin (h : Tracks source mark s) : Tracks source s.cursor.position s.begin := by
  obtain ⟨passed, between, rest, hsource, -, hcovers⟩ := h
  refine ⟨passed ++ between, [], rest, ?_, ?_, covers_begin hcovers.cursor⟩
  · rw [hsource, List.nil_append, List.append_assoc]
  · rw [hcovers.cursor]
    rfl

/-- A scan adds to the current token. -/
lemma Tracks.perform (h : Tracks source mark s) (scan : Scan) :
    Tracks source mark (s.perform scan).2 := by
  obtain ⟨passed, between, rest, hsource, hmark, hcovers⟩ := h
  exact ⟨passed, _, _, source_eq_append_take hsource scan.width, hmark, hcovers.perform scan⟩

/-- So does a movement. -/
lemma Tracks.advanceBy (h : Tracks source mark s) (n : Nat) :
    Tracks source mark (s.advanceBy n) := by
  obtain ⟨passed, between, rest, hsource, hmark, hcovers⟩ := h
  exact ⟨passed, _, _, source_eq_append_take hsource n, hmark, hcovers.advanceBy n⟩

/-- A call keeps track of the source. The current token begins elsewhere only if the call begins
one. -/
lemma Tracks.call (h : Tracks source mark s) (c : Call) :
    Tracks source (if c.begins then s.cursor.position else mark) (s.call c).2 := by
  cases c with
  | nextToken => exact h.begin.perform _
  | next => exact h.begin.perform _
  | advance n => exact h.advanceBy n
  | scan scanner => exact h.perform _

/-- Any number of calls keeps track of the source. -/
lemma Tracks.calls (h : Tracks source mark s) (cs : List Call) :
    Tracks source (s.recorded mark cs) (s.calls cs) := by
  induction cs generalizing s mark with
  | nil => exact h
  | cons c cs ih => exact ih (h.call c)

/-- Every call on a session that tracks the source is safe. -/
lemma Tracks.safeCall (h : Tracks source mark s) (hlen : source.length < UInt32.size - 1)
    (c : Call) :
    SafeCall source (if c.begins then s.cursor.position else mark) s (s.call c).1 (s.call c).2 := by
  have hperform : ∀ {mark s}, Tracks source mark s → ∀ scan,
      SafeCall source mark s (some (s.perform scan).1) (s.perform scan).2 := by
    rintro _ s ⟨passed, between, rest, hsource, rfl, hcovers⟩ scan
    exact hcovers.safeCall_perform hsource hlen scan
  have hnext : SafeCall source s.cursor.position s (some s.nextToken.1) s.nextToken.2 := by
    -- beginning a token changes neither the cursor nor the collector
    have hbegun := hperform h.begin (Scan.next s.options.strictEscapes s.cursor.rest)
    exact ⟨hbegun.moves, hbegun.ahead, hbegun.bounds, hbegun.slice, hbegun.token,
      hbegun.diagnostics⟩
  cases c with
  | nextToken => exact hnext
  | next =>
    refine { hnext with token := ?_ }
    intro t ht
    refine hnext.token t ?_
    simp only [Session.call, next?] at ht
    split at ht
    · cases ht
    · exact ht
  | advance n =>
    obtain ⟨passed, between, rest, hsource, rfl, hcovers⟩ := h
    exact hcovers.safeCall_advanceBy hsource n
  | scan scanner => exact hperform h _

/-- Where the current token began is decided by the last call that began one. -/
lemma recorded_append (s : Session) (mark : Nat) (cs : List Call) (c : Call) :
    s.recorded mark (cs ++ [c]) =
      if c.begins then (s.calls cs).cursor.position else s.recorded mark cs := by
  induction cs generalizing s mark with
  | nil => rfl
  | cons c' cs ih => exact ih _ _

end Session

open Session

/-- Calls are safe in any order. After any calls on a session at the beginning of a text, one more
call takes only slices of that text, and its token and diagnostics are about the piece from the
start that the last begun token recorded, or from the first character on, up to the cursor. -/
theorem safeCall_of_calls (options : Options) (collector : Collector) (source : Text)
    (hlen : source.length < UInt32.size - 1) (before : List Call) (c : Call) :
    SafeCall source ((ofText options collector source).recorded 1 (before ++ [c]))
      ((ofText options collector source).calls before)
      (((ofText options collector source).calls before).call c).1
      (((ofText options collector source).calls before).call c).2 := by
  have htracks := (tracks_ofText options collector source).calls before
  rw [recorded_append]
  exact htracks.safeCall hlen c

/-- The scanner of strings goes on with a token that began as a run of separators, from a character
of two bytes to the end. The token and its diagnostic begin on the first line. -/
theorem safeCall_of_calls_continued :
    "λ\n é".toList.length < UInt32.size - 1 ∧
      (((ofText {} .empty "λ\n é".toList).calls [.nextToken, .next]).call (.scan .string)).1 =
        some (.error "\n é".toList 2 none) ∧
      SafeCall "λ\n é".toList 2 ((ofText {} .empty "λ\n é".toList).calls [.nextToken, .next])
        (some (.error "\n é".toList 2 none))
        (((ofText {} .empty "λ\n é".toList).calls [.nextToken, .next]).call (.scan .string)).2 := by
  have hlen : "λ\n é".toList.length < UInt32.size - 1 := by decide
  have hstart : (ofText {} .empty "λ\n é".toList).recorded 1
      ([.nextToken, .next] ++ [.scan .string]) = 2 := by
    decide +kernel
  have htoken : (((ofText {} .empty "λ\n é".toList).calls
      [.nextToken, .next]).call (.scan .string)).1 = some (.error "\n é".toList 2 none) := by
    decide +kernel
  have hsafe := safeCall_of_calls {} .empty "λ\n é".toList hlen [.nextToken, .next] (.scan .string)
  rw [hstart, htoken] at hsafe
  exact ⟨hlen, htoken, hsafe⟩

end EdnTokens
