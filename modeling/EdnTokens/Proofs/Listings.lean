import EdnTokens.Command.Listing
import EdnTokens.Json.RoundTrip
import EdnTokens.Proofs.Inputs
import EdnTokens.Proofs.Lexemes
import EdnTokens.Text.Unescape

/-!
# Listings can be read back

A listing of one file shows the tokens of its content (`Listing.run_single`), and nothing of them is
lost.

A text listing has one line for each token. Whatever the text of a token is, its escaped form holds
no line feed, so the lines can be told apart. On a line, what stands before the first quote and
behind the last one is made of numerals and names without quotes; what stands between these quotes
is the escaped text. So every line can be read back (`ListedToken.read?_listingLine`), and with the
texts of the tokens the content of the file (`Listing.run_text_lossless`).

A JSON listing is a document that stands for the array of the records of the tokens, and by the
grammar of JSON for nothing else (`Listing.run_json_lossless`).
-/

namespace EdnTokens

open Lexeme

/-! ### Cutting a text -/

namespace Text

/-- What stands before and behind the first occurrence of a character. -/
def cutFirst? (c : Char) (t : Text) : Option (Text × Text) :=
  match t.dropWhile (· != c) with
  | [] => none
  | _ :: behind => some (t.takeWhile (· != c), behind)

/-- What stands before and behind the last occurrence of a character. -/
def cutLast? (c : Char) (t : Text) : Option (Text × Text) :=
  (cutFirst? c t.reverse).map fun (behind, before) => (before.reverse, behind.reverse)

/-- The number that a numeral denotes. -/
def toNat? (t : Text) : Option Nat :=
  if t ≠ [] ∧ t.all Char.isDigit then some (valueIn 10 t) else none

/-- The lines of a text in which every line ends with a line feed. -/
def linesOf (t : Text) : List Text :=
  (t.splitOn '\n').dropLast

/-- A text is cut at a character that does not occur before. -/
lemma cutFirst?_append {c : Char} {before : Text} (h : c ∉ before) (behind : Text) :
    cutFirst? c (before ++ c :: behind) = some (before, behind) := by
  have hall : ∀ x ∈ before, (x != c) = true := by
    intro x hx
    rw [bne_iff_ne]
    rintro rfl
    exact h hx
  have hdrop : (before ++ c :: behind).dropWhile (· != c) = c :: behind := by
    rw [List.dropWhile_append_of_pos hall, List.dropWhile_cons_of_neg (by simp)]
  have htake : (before ++ c :: behind).takeWhile (· != c) = before := by
    rw [List.takeWhile_append_of_pos hall, List.takeWhile_cons_of_neg (by simp), List.append_nil]
  simp only [cutFirst?, hdrop, htake]

/-- A text is cut at a character that does not occur behind. -/
lemma cutLast?_append {c : Char} {behind : Text} (h : c ∉ behind) (before : Text) :
    cutLast? c (before ++ c :: behind) = some (before, behind) := by
  have hreverse : (before ++ c :: behind).reverse = behind.reverse ++ c :: before.reverse := by
    simp
  rw [cutLast?, hreverse, cutFirst?_append (by simpa using h)]
  simp

/-- A numeral denotes the number that it was written for. -/
lemma toNat?_ofNat (n : Nat) : toNat? (ofNat n) = some n := by
  have hdigits : (ofNat n).all Char.isDigit = true := by
    rw [List.all_eq_true]
    exact fun c hc => Nat.isDigit_of_mem_toDigits (by decide) (by decide) hc
  rw [toNat?, if_pos ⟨Nat.toDigits_ne_nil, hdigits⟩, ofNat,
    valueIn_toDigits (by decide) (by decide)]

/-- Lines that hold no line feed are the lines of the text that they make up. -/
lemma linesOf_flatMap_line {lines : List Text} (h : ∀ l ∈ lines, '\n' ∉ l) :
    linesOf (lines.flatMap line) = lines := by
  have hsplit : (lines.flatMap line).splitOn '\n' = lines ++ [[]] := by
    induction lines with
    | nil => rfl
    | cons l lines ih =>
      have hl : ∀ c ∈ l, (c == '\n') = false := by
        intro c hc
        rw [beq_eq_false_iff_ne]
        rintro rfl
        exact h l List.mem_cons_self hc
      have hlines := ih fun l' hl' => h l' (List.mem_cons_of_mem l hl')
      rw [List.splitOn_eq_splitOnP] at hlines ⊢
      rw [List.flatMap_cons, line, List.append_assoc, List.singleton_append,
        List.splitOnP_append_cons_of_forall_mem hl '\n' (beq_self_eq_true _), hlines,
        List.cons_append]
  rw [linesOf, hsplit, List.dropLast_concat]

/-! ### Escaped texts stand on one line -/

/-- The escape of a code point holds no line feed. -/
lemma newline_notMem_codePointEscape (c : Char) : '\n' ∉ codePointEscape c := by
  have hdigits : '\n' ∉ Nat.toDigits 16 c.toNat := by
    intro h
    have hlt := digitValue_lt_of_mem_toDigits (by decide) (by decide) h
    exact absurd hlt (by decide)
  simp [codePointEscape, hdigits]

/-- A character that occurs in neither of two texts does not occur in a choice between them. -/
lemma notMem_ite {c : Char} {p : Prop} [Decidable p] {s t : Text} (hs : c ∉ s) (ht : c ∉ t) :
    c ∉ if p then s else t := by
  split
  · exact hs
  · exact ht

/-- No character is escaped to a line feed, not even the line feed itself. -/
lemma newline_notMem_escapeChar (style : EscapeStyle) (c : Char) : '\n' ∉ escapeChar style c := by
  by_cases hnewline : c = '\n'
  · subst c
    exact (by decide : '\n' ∉ "\\n".toList)
  · have hpoint := newline_notMem_codePointEscape c
    have hself : '\n' ∉ [c] := by
      rw [List.mem_singleton]
      exact Ne.symm hnewline
    unfold escapeChar
    -- seven escapes with a letter, then the characters that are shown by code point or as they are
    iterate 7 refine notMem_ite (by decide) ?_
    exact notMem_ite hpoint (notMem_ite hself hpoint)

/-- An escaped text holds no line feed. -/
lemma newline_notMem_escape (t : Text) : '\n' ∉ escape t := by
  cases t with
  | nil => exact List.not_mem_nil
  | cons c t =>
    rw [escape, List.mem_append, List.mem_flatMap, not_or]
    refine ⟨newline_notMem_escapeChar leadingStyle c, ?_⟩
    rintro ⟨d, -, hd⟩
    exact newline_notMem_escapeChar innerStyle d hd

end Text

/-! ### Lines of a text listing -/

/-- What a line of a text listing says about a token. -/
structure ListedToken where
  start : Nat
  position : Position
  kind : TokenKind
  text : Text
  errorType : Option ErrorType
  deriving DecidableEq

/-- What there is to say about a token of a file. -/
def Token.listed (t : Token) (file : SourceFile) : ListedToken where
  start := t.start
  position := file.position t.start
  kind := t.kind
  text := t.text
  errorType := t.errorType?

namespace ListedToken

/-- Reads what stands behind the text of a token: nothing, or an error type in brackets. -/
def readErrorType? : Text → Option (Option ErrorType)
  | [] => some none
  | ' ' :: '[' :: t =>
    match Text.cutFirst? ']' t with
    | some (name, []) => (ErrorType.ofName (String.ofList name)).toOption.map some
    | _ => none
  | _ => none

/-- Reads a line of a text listing. The text of the token is what the part between the first and the
last quote of the line stands for. -/
def read? (line : Text) : Option ListedToken := do
  let (before, rest) ← Text.cutFirst? '"' line
  let (inside, behind) ← Text.cutLast? '"' rest
  let (start, before) ← Text.cutFirst? ':' before
  let (row, before) ← Text.cutFirst? ':' before
  let (column, before) ← Text.cutFirst? ' ' before
  let (kind, []) ← Text.cutFirst? ' ' before | none
  return {
    start := ← Text.toNat? start
    position := ⟨← Text.toNat? row, ← Text.toNat? column⟩
    kind := ← (TokenKind.ofName (String.ofList kind)).toOption
    text := ← Text.unescape? inside
    errorType := ← readErrorType? behind }

/-- The names of kinds are made of letters and hyphens. -/
lemma isAlpha_or_eq_of_mem_name (k : TokenKind) :
    ∀ c ∈ k.name.toList, c.isAlpha = true ∨ c = '-' := by
  have hall : k.name.toList.all (fun c => c.isAlpha || c == '-') = true := by
    cases k <;> rfl
  simpa only [List.all_eq_true, Bool.or_eq_true, beq_iff_eq] using hall

/-- The names of kinds are made of letters and hyphens. -/
lemma notMem_name {c : Char} (h : c.isAlpha = false ∧ c ≠ '-') (k : TokenKind) :
    c ∉ k.name.toList := by
  intro hc
  rcases isAlpha_or_eq_of_mem_name k c hc with halpha | rfl
  · rw [h.1] at halpha
    cases halpha
  · exact h.2 rfl

/-- What stands on a line before the first quote. -/
def head (t : Token) (file : SourceFile) : Text :=
  Text.ofNat t.start ++ ':' :: (Text.ofNat (file.position t.start).line ++
    ':' :: (Text.ofNat (file.position t.start).column ++ ' ' :: (t.kind.name.toList ++ [' '])))

/-- A line is its head, the escaped text between quotes, and what is said of an error. -/
lemma listingLine_eq (t : Token) (file : SourceFile) :
    t.listingLine file = head t file ++ '"' :: (Text.escape t.text ++ '"' :: t.errorSuffix) := by
  simp [Token.listingLine, head]

/-- The head of a line is made of numerals, the name of the kind and the marks between them. -/
lemma notMem_head {c : Char} (hdigit : c.isDigit = false)
    (hname : c.isAlpha = false ∧ c ≠ '-') (hmark : c ∉ [':', ' ']) (t : Token)
    (file : SourceFile) : c ∉ head t file := by
  rw [List.mem_cons, List.mem_singleton, not_or] at hmark
  simp only [head, List.mem_append, List.mem_cons, List.not_mem_nil, Text.notMem_ofNat hdigit,
    notMem_name hname, hmark.1, hmark.2, or_false, not_false_eq_true]

/-- Behind the last quote stands at most the name of an error type in brackets. -/
lemma notMem_errorSuffix {c : Char} (h : c.isAlpha = false ∧ c ∉ ['-', ' ', '[', ']']) (t : Token) :
    c ∉ t.errorSuffix := by
  have hnames : ∀ e : ErrorType, (" [".toList ++ e.name.toList ++ "]".toList).all
      (fun d => d.isAlpha || ['-', ' ', '[', ']'].contains d) = true := by
    intro e
    cases e <;> rfl
  unfold Token.errorSuffix
  split
  · rename_i e he
    intro hc
    have hclass := List.all_eq_true.mp (hnames e) c hc
    rw [Bool.or_eq_true, List.contains_iff_mem, h.1] at hclass
    exact h.2 (hclass.resolve_left Bool.false_ne_true)
  · exact List.not_mem_nil

/-- What stands behind the last quote tells the error type, or that there is none. -/
lemma readErrorType?_errorSuffix (t : Token) :
    readErrorType? t.errorSuffix = some t.errorType? := by
  unfold Token.errorSuffix
  split
  · rename_i e he
    rw [he]
    cases e <;> rfl
  · rename_i he
    rw [he]
    rfl

/-- A line of a listing says about its token all there is to say. -/
lemma read?_listingLine (t : Token) (file : SourceFile) :
    read? (t.listingLine file) = some (t.listed file) := by
  have hkind : (TokenKind.ofName (String.ofList t.kind.name.toList)).toOption = some t.kind := by
    rw [String.ofList_toList, TokenKind.ofName_name]
    rfl
  have hhead : '"' ∉ head t file := notMem_head rfl (by decide) (by decide) t file
  rw [read?, listingLine_eq, Text.cutFirst?_append hhead]
  simp only [head, Option.bind_eq_bind, Option.bind_some,
    Text.cutLast?_append (notMem_errorSuffix (c := '"') (by decide) t),
    Text.cutFirst?_append (Text.notMem_ofNat (c := ':') rfl _),
    Text.cutFirst?_append (Text.notMem_ofNat (c := ' ') rfl _),
    Text.cutFirst?_append (notMem_name (c := ' ') (by decide) t.kind),
    Text.toNat?_ofNat, hkind, Text.unescape?_escape, readErrorType?_errorSuffix]
  rfl

/-- A line of a listing is one line. -/
lemma newline_notMem_listingLine (t : Token) (file : SourceFile) :
    '\n' ∉ t.listingLine file := by
  have hhead : '\n' ∉ head t file := notMem_head rfl (by decide) (by decide) t file
  have hsuffix : '\n' ∉ t.errorSuffix := notMem_errorSuffix (by decide) t
  simp [listingLine_eq, hhead, Text.newline_notMem_escape, hsuffix]

end ListedToken

/-! ### The listing of one file -/

namespace Listing

variable (l : Listing) {tree : FileTree} {path : String} {content : Text}

/-- The listing of a single file that can be read has no heading. -/
lemma run_single (hfiles : l.files = [path]) (hread : tree.readInput path = .ok content) :
    ∃ notices, l.run tree = .ok (l.body { name := path, content }, notices) := by
  have hinputs : SourceMap.ofInputs tree l.files =
      .ok (SourceMap.ofContents (fun _ => content) [path]) := by
    rw [hfiles]
    exact SourceMap.ofInputs_eq_ok fun p hp => List.mem_singleton.mp hp ▸ hread
  rw [run, hinputs]
  refine ⟨_, congrArg Except.ok (Prod.ext ?_ rfl)⟩
  simp [ofMap, SourceMap.ofContents, SourceMap.size]

/-- The tokens of a file that are listed are all of its stream, or all but the end token. -/
lemma tokens_eq_filter (file : SourceFile) :
    l.tokens file =
      (tokenizeWith l.options file.content).filter fun t => l.includeEof || !t.isEof := by
  obtain ⟨body, hbody, hinner, -⟩ :=
    exists_place_lexemes_eq_concat l.options.strictEscapes file.content
  rw [tokens, tokenizeWith, tokenizeWith, tokens_ofText, tokens_ofText]
  simp only [hbody]
  cases l.includeEof with
  | true => simp
  | false =>
    have hbody' : body.filter (fun t => !t.isEof) = body :=
      List.filter_eq_self.mpr fun t ht => by rw [hinner t ht]; rfl
    simp only [Bool.false_eq_true, if_false, List.dropLast_concat, Bool.false_or,
      List.filter_append, hbody']
    simp [Token.isEof, Token.eof]

/-- The texts of the listed tokens make up the content. -/
lemma flatMap_text_tokens (file : SourceFile) :
    (l.tokens file).flatMap Token.text = file.content := by
  obtain ⟨body, hbody, -, htexts⟩ :=
    exists_place_lexemes_eq_concat l.options.strictEscapes file.content
  rw [tokens, tokenizeWith, tokens_ofText]
  simp only [hbody]
  cases l.includeEof with
  | true => simp [htexts, Token.eof]
  | false => simpa using htexts

/-! ### Text listings -/

/-- The lines of the text listing of a file. -/
def textLines (file : SourceFile) : List Text :=
  (l.tokens file).map fun t => t.listingLine file

/-- A text listing is made of lines. -/
lemma body_text (hformat : l.format = .text) (file : SourceFile) :
    l.body file = (l.textLines file).flatMap Text.line := by
  rw [body, hformat, textLines, List.flatMap_map]

/-- No line of a listing holds a line feed, so the lines can be told apart. -/
lemma newline_notMem_textLines (file : SourceFile) : ∀ line ∈ l.textLines file, '\n' ∉ line := by
  intro line hline
  obtain ⟨t, -, rfl⟩ := List.mem_map.mp hline
  exact ListedToken.newline_notMem_listingLine t file

/-- Every line can be read back as the token that it shows. -/
lemma map_read?_textLines (file : SourceFile) :
    (l.textLines file).map ListedToken.read? =
      (l.tokens file).map fun t => some (t.listed file) := by
  simp only [textLines, List.map_map, Function.comp_def, ListedToken.read?_listingLine]

/-- The texts that the lines of a listing say make up the content. -/
lemma flatMap_text_read?_textLines (file : SourceFile) :
    ((l.textLines file).filterMap ListedToken.read?).flatMap ListedToken.text = file.content := by
  have hread : (l.textLines file).filterMap ListedToken.read? =
      (l.tokens file).map fun t => t.listed file := by
    simp only [textLines, List.filterMap_map, Function.comp_def, ListedToken.read?_listingLine,
      List.filterMap_eq_map']
  rw [hread, List.flatMap_map]
  exact flatMap_text_tokens l file

/-- The text listing of a file consists of one line for each listed token. Every line stands alone
and says where its token starts, of which kind it is and which error type and text it has. The texts
make up the content of the file, so no other content has the same listing, under whatever options
it is made. -/
theorem run_text_lossless (l : Listing) (tree : FileTree) (path : String) (content : Text)
    (hfiles : l.files = [path]) (hformat : l.format = .text)
    (hread : tree.readInput path = .ok content) :
    ∃ (out : Text) (notices : List Notice) (lines : List Text), l.run tree = .ok (out, notices) ∧
      out = lines.flatMap Text.line ∧ (∀ line ∈ lines, '\n' ∉ line) ∧
      lines.map ListedToken.read? =
        ((tokenizeWith l.options content).filter fun t => l.includeEof || !t.isEof).map
          (fun t => some (t.listed { name := path, content })) ∧
      (lines.filterMap ListedToken.read?).flatMap ListedToken.text = content ∧
      ∀ (l' : Listing) (tree' : FileTree) (path' : String) (content' : Text)
        (notices' : List Notice), l'.files = [path'] → l'.format = .text →
          tree'.readInput path' = .ok content' → l'.run tree' = .ok (out, notices') →
            content' = content := by
  obtain ⟨notices, hrun⟩ := run_single l hfiles hread
  refine ⟨_, notices, l.textLines { name := path, content }, hrun, body_text l hformat _,
    newline_notMem_textLines l _, ?_, flatMap_text_read?_textLines l _, ?_⟩
  · rw [map_read?_textLines, tokens_eq_filter]
  · intro l' tree' path' content' notices' hfiles' hformat' hread' hrun'
    obtain ⟨_, hsingle⟩ := run_single l' hfiles' hread'
    have hsame : l.body { name := path, content } =
        l'.body { name := path', content := content' } :=
      (Prod.ext_iff.mp (Except.ok.inj (hrun'.symm.trans hsingle))).1
    -- both texts fall into the same lines, and these say both contents
    rw [body_text l hformat, body_text l' hformat'] at hsame
    have hlines := congrArg Text.linesOf hsame
    rw [Text.linesOf_flatMap_line (newline_notMem_textLines l _),
      Text.linesOf_flatMap_line (newline_notMem_textLines l' _)] at hlines
    have hcontent := flatMap_text_read?_textLines l { name := path, content }
    rw [hlines, flatMap_text_read?_textLines] at hcontent
    exact hcontent

/-- A string that holds a hidden quote and a line feed, and a malformed number behind it: the
listing says them back. -/
theorem run_text_lossless_hidden_quote :
    ((FileTree.empty []).set ["a.edn"] (.file (Text.toBytes "\"\\\"\n\" 4x".toList))).readInput
        "a.edn" = .ok "\"\\\"\n\" 4x".toList ∧
      ∃ (out : Text) (notices : List Notice) (lines : List Text),
        ({ files := ["a.edn"] } : Listing).run ((FileTree.empty []).set ["a.edn"]
            (.file (Text.toBytes "\"\\\"\n\" 4x".toList))) = .ok (out, notices) ∧
          out = lines.flatMap Text.line ∧
          lines.map ListedToken.read? =
            [some ⟨1, ⟨1, 1⟩, .string, "\"\\\"\n\"".toList, none⟩,
              some ⟨6, ⟨2, 2⟩, .whitespace, [' '], none⟩,
              some ⟨7, ⟨2, 3⟩, .lexError, ['4', 'x'], some .invalidNumberFormat⟩] := by
  have hread : ((FileTree.empty []).set ["a.edn"]
      (.file (Text.toBytes "\"\\\"\n\" 4x".toList))).readInput "a.edn" =
        .ok "\"\\\"\n\" 4x".toList := rfl
  obtain ⟨out, notices, lines, hrun, hout, -, hlines, -⟩ :=
    run_text_lossless { files := ["a.edn"] } _ "a.edn" _ rfl rfl hread
  refine ⟨hread, out, notices, lines, hrun, hout, ?_⟩
  rw [hlines]
  decide +kernel

/-- The line of the string: quotes, backslashes and line feeds are written as escapes. -/
example : (⟨.string, "\"\\\"\n\"".toList, 1, .empty⟩ : Token).listingLine
    { name := "a.edn", content := "\"\\\"\n\"".toList } =
      "1:1:1 string \"\\\"\\\\\\\"\\n\\\"\"".toList := by
  decide +kernel

end Listing

/-! ### Records of a JSON listing -/

/-- The type of malformed input, where the token is that and is classified. -/
def Token.classification? (t : Token) : Option ErrorType :=
  if t.isError then t.errorType? else none

/-- What a JSON listing has to say about a token of a file. Only malformed input that is classified
has an attribute. -/
def Token.record (t : Token) (file : SourceFile) : Json :=
  .object
    [("kind".toList, .string t.kind.name.toList),
      ("text".toList, .string t.text),
      ("start".toList, .number t.start),
      ("line".toList, .number (file.position t.start).line),
      ("column".toList, .number (file.position t.start).column),
      ("attributes".toList, .object
        (match t.classification? with
        | some e => [("error-type".toList, .string e.name.toList)]
        | none => []))]

/-- The text that an object has under a key. -/
def Json.textAt? (key : Text) : Json → Option Text
  | .object members =>
    match members.lookup key with
    | some (.string t) => some t
    | _ => none
  | _ => none

/-- The record of a token holds its text. -/
lemma Token.textAt?_record (t : Token) (file : SourceFile) :
    (t.record file).textAt? "text".toList = some t.text := rfl

/-- The attributes of a token are those of its classification. -/
lemma Lexeme.attributes_token (l : Lexeme) (start : Nat) :
    (l.token start).attributes = .ofErrorType (l.token start).classification? := by
  obtain ⟨text, verdict⟩ := l
  cases verdict with
  | token kind =>
    have hnone : (Lexeme.token ⟨text, .token kind⟩ start).classification? = none := ite_self none
    rw [hnone]
    rfl
  | word =>
    have hnone : (Lexeme.token ⟨text, .word⟩ start).classification? = none := ite_self none
    rw [hnone]
    rfl
  | error type =>
    have htype : (Lexeme.token ⟨text, .error type⟩ start).classification? = type :=
      Attributes.errorType?_ofErrorType type
    rw [htype]
    rfl

/-- A token of a stream is listed as its record, since it has no other attributes. -/
lemma toJson_of_mem_tokenizeWith {options : Options} {content : Text} {t : Token}
    (h : t ∈ tokenizeWith options content) (file : SourceFile) : t.toJson file = t.record file := by
  have hattributes : t.attributes = .ofErrorType t.classification? := by
    rw [tokenizeWith, tokens_ofText] at h
    rcases exists_first_of_mem_place h with rfl | ⟨passed, rest, -, -, rfl⟩
    · rfl
    · exact attributes_token _ _
  rw [Token.toJson, Token.record, hattributes]
  cases t.classification? with
  | none => rfl
  | some e => rfl

namespace Listing

/-- The records of the listed tokens of a file. -/
def records (l : Listing) (file : SourceFile) : List Json :=
  ((tokenizeWith l.options file.content).filter fun t => l.includeEof || !t.isEof).map
    fun t => t.record file

/-- A JSON listing is the array of the records, with a line feed behind it. -/
lemma body_json {l : Listing} (hformat : l.format = .json) (file : SourceFile) :
    l.body file = (Json.array (l.records file)).render ++ ['\n'] := by
  have hrecords : (l.tokens file).map (fun t => t.toJson file) = l.records file := by
    rw [records, tokens_eq_filter]
    refine List.map_congr_left fun t ht => ?_
    exact toJson_of_mem_tokenizeWith (List.mem_of_mem_filter ht) file
  rw [body, hformat]
  simp only [hrecords, Text.line]

/-- The texts that the records of a file say make up the content. -/
lemma flatten_textAt?_records (l : Listing) (file : SourceFile) :
    ((l.records file).filterMap (Json.textAt? "text".toList)).flatten = file.content := by
  have htexts : (l.records file).filterMap (Json.textAt? "text".toList) =
      (l.tokens file).map Token.text := by
    simp only [records, ← tokens_eq_filter, List.filterMap_map, Function.comp_def,
      Token.textAt?_record, List.filterMap_eq_map']
  rw [htexts]
  exact flatMap_text_tokens l file

/-- The JSON listing of a file is one array behind which a line feed stands. By the grammar of JSON
it stands for the records of the listed tokens and for nothing else, and the texts in these records
make up the content of the file. -/
theorem run_json_lossless (l : Listing) (tree : FileTree) (path : String) (content : Text)
    (hfiles : l.files = [path]) (hformat : l.format = .json)
    (hread : tree.readInput path = .ok content) :
    ∃ (out : Text) (notices : List Notice) (items : List Json), l.run tree = .ok (out, notices) ∧
      (∃ doc, out = doc ++ ['\n'] ∧ Json.Form doc (.array items)) ∧
      (∀ v, Json.Document out v ↔ v = .array items) ∧ Json.parse? out = some (.array items) ∧
      items = ((tokenizeWith l.options content).filter fun t => l.includeEof || !t.isEof).map
        (fun t => t.record { name := path, content }) ∧
      (items.filterMap (Json.textAt? "text".toList)).flatten = content := by
  obtain ⟨notices, hrun⟩ := run_single l hfiles hread
  rw [body_json hformat] at hrun
  have hblanks : Json.Blanks ['\n'] := by decide
  exact ⟨_, notices, _, hrun, ⟨_, rfl, Json.form_pretty 0 _⟩,
    fun _ => Json.document_render_iff hblanks, Json.parse?_render _ hblanks, rfl,
    flatten_textAt?_records l _⟩

/-- A string with a control character, a quote and a backslash in it, and a malformed number behind
it: the records of the listing give them back. -/
theorem run_json_lossless_control_character :
    ((FileTree.empty []).set ["a.edn"] (.file (Text.toBytes "\"\x01\\\"\" 4x".toList))).readInput
        "a.edn" = .ok "\"\x01\\\"\" 4x".toList ∧
      ∃ (out : Text) (notices : List Notice),
        ({ files := ["a.edn"], format := .json } : Listing).run ((FileTree.empty []).set ["a.edn"]
            (.file (Text.toBytes "\"\x01\\\"\" 4x".toList))) = .ok (out, notices) ∧
          ∀ v, Json.Document out v ↔ v = .array
            [.object [("kind".toList, .string "string".toList),
                ("text".toList, .string "\"\x01\\\"\"".toList), ("start".toList, .number 1),
                ("line".toList, .number 1), ("column".toList, .number 1),
                ("attributes".toList, .object [])],
              .object [("kind".toList, .string "whitespace".toList),
                ("text".toList, .string " ".toList), ("start".toList, .number 6),
                ("line".toList, .number 1), ("column".toList, .number 6),
                ("attributes".toList, .object [])],
              .object [("kind".toList, .string "lex-error".toList),
                ("text".toList, .string "4x".toList), ("start".toList, .number 7),
                ("line".toList, .number 1), ("column".toList, .number 7),
                ("attributes".toList, .object
                  [("error-type".toList, .string "invalid-number-format".toList)])]] := by
  have hread : ((FileTree.empty []).set ["a.edn"]
      (.file (Text.toBytes "\"\x01\\\"\" 4x".toList))).readInput "a.edn" =
        .ok "\"\x01\\\"\" 4x".toList := rfl
  obtain ⟨out, notices, items, hrun, -, hdocument, -, hitems, -⟩ :=
    run_json_lossless { files := ["a.edn"], format := .json } _ "a.edn" _ rfl rfl hread
  have htokens : (tokenizeWith {} "\"\x01\\\"\" 4x".toList).filter (fun t => false || !t.isEof) =
      [⟨.string, "\"\x01\\\"\"".toList, 1, .empty⟩, ⟨.whitespace, " ".toList, 6, .empty⟩,
        ⟨.lexError, "4x".toList, 7, .ofErrorType (some .invalidNumberFormat)⟩] := by
    decide +kernel
  have hpositions : [1, 6, 7].map (SourceFile.position
      { name := "a.edn", content := "\"\x01\\\"\" 4x".toList }) =
        [⟨1, 1⟩, ⟨1, 6⟩, ⟨1, 7⟩] := by
    decide +kernel
  simp only [List.map_cons, List.map_nil, List.cons.injEq] at hpositions
  simp only [htokens, List.map_cons, List.map_nil, Token.record, hpositions] at hitems
  refine ⟨hread, out, notices, hrun, ?_⟩
  rw [hitems] at hdocument
  exact hdocument

end Listing

end EdnTokens
