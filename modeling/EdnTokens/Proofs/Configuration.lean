import Mathlib.Algebra.Group.Nat.Defs
import EdnTokens.Command.Config
import EdnTokens.Proofs.Documents
import EdnTokens.Proofs.Files

/-!
# Configurations can be read back

The document of some settings is plain, so it is read line by line (`Config.readsAs_render`); its
table has the three entries that the settings are looked up in. So parsing the document gives the
settings back, with the number of workers fixed, unless they ask for no workers
(`Config.parse_render`).

Saving settings makes the directories around the file, then the document, and writes the file last.
If the number of workers is too large for a document, nothing has happened by then that takes the
content of a file away (`Config.load_of_save`).
-/

namespace EdnTokens.Config

open Toml (Denotes ReadsAs Table Statement Node IsBareKey)

variable (c : Config) (processors : Nat)

/-! ### The document of some settings -/

/-- The text of a truth value denotes it. -/
lemma denotes_flagText (b : Bool) : Denotes (flagText b) (.boolean b) := by
  cases b with
  | false => exact Toml.denotes_of_scalar? (by decide) (List.all_eq_true.mp (by decide)) rfl
  | true => exact Toml.denotes_of_scalar? (by decide) (List.all_eq_true.mp (by decide)) rfl

/-- The name of a format between quotes denotes that name. -/
lemma denotes_name (f : ListingFormat) :
    Denotes ('"' :: f.name.toList ++ ['"']) (.string f.name.toList) := by
  cases f with
  | text => exact Toml.denotes_quoted (by simp [ListingFormat.name, Toml.isPlain])
  | json => exact Toml.denotes_quoted (by simp [ListingFormat.name, Toml.isPlain])

/-- The lines that say what the settings are. -/
def statements : List Statement :=
  [.assignment [] "jobs".toList (.integer (c.workers processors)),
    .header [] "lexer".toList,
    .assignment [] "strict_char_escapes".toList (.boolean c.strictEscapes),
    .header [] "output".toList,
    .assignment [] "format".toList (.string c.format.name.toList),
    .assignment [] "include_eof".toList (.boolean c.includeEof)]

/-- The table that these lines describe. -/
def table : Table :=
  ⟨.header,
    [("jobs".toList, .integer (c.workers processors)),
      ("lexer".toList, .table .header [("strict_char_escapes".toList, .boolean c.strictEscapes)]),
      ("output".toList, .table .header
        [("format".toList, .string c.format.name.toList),
          ("include_eof".toList, .boolean c.includeEof)])]⟩

/-- The lines of some settings describe their table. -/
lemma ofStatements_statements :
    Table.ofStatements (c.statements processors) = some (c.table processors) :=
  rfl

/-- The document of some settings is read as their lines, as long as the number of workers is one
that a document can hold. -/
lemma readsAs_render (h : c.workers processors < Toml.integerLimit) :
    ReadsAs (c.render processors) (c.statements processors) := by
  have heof := ReadsAs.assignment "include_eof".toList (by decide)
    (denotes_flagText c.includeEof) ReadsAs.nil
  have hformat := heof.assignment "format".toList (by decide) (denotes_name c.format)
  have houtput := (hformat.header "output".toList (by decide)).blank
  have hstrict := houtput.assignment "strict_char_escapes".toList (by decide)
    (denotes_flagText c.strictEscapes)
  have hlexer := (hstrict.header "lexer".toList (by decide)).blank
  have hjobs := hlexer.assignment "jobs".toList (by decide) (Toml.denotes_ofNat h)
  simpa [render, Text.line, statements] using hjobs

/-- The settings of that table are the ones it was made from. -/
lemma ofTable?_table : ofTable? (c.table processors) = some (c.settle processors) := by
  have hjobs : jobs? ((c.table processors).get? "jobs".toList) =
      some (some (c.workers processors)) := by
    have hget : (c.table processors).get? "jobs".toList =
        some (.integer (c.workers processors)) := rfl
    rw [hget, jobs?, if_pos (Int.natCast_nonneg _), Int.toNat_natCast]
  have hlexer : lexer? ((c.table processors).get? "lexer".toList) = some c.strictEscapes := rfl
  have hformat : format? (some (.string c.format.name.toList)) = some c.format := by
    rw [format?, String.ofList_toList, ListingFormat.ofName?_name]
  have houtput : output? ((c.table processors).get? "output".toList) =
      some (c.format, c.includeEof) := by
    change (format? (some (.string c.format.name.toList))).bind
      (fun f => (flag? (some (.boolean c.includeEof))).map fun b => (f, b)) = _
    rw [hformat]
    rfl
  rw [ofTable?, hjobs, hlexer, houtput]
  rfl

/-- Reading the document of some settings gives them back, unless they ask for no workers. -/
lemma parse_render (h : c.workers processors < Toml.integerLimit) :
    parse (c.render processors) =
      if c.workers processors = 0 then .error .jobsNotPositive else .ok (c.settle processors) := by
  have htable : Toml.parse (c.render processors) = some (c.table processors) := by
    rw [Toml.parse_of_readsAs (c.readsAs_render processors h) (by simp [render, Text.line]),
      ofStatements_statements]
  rw [parse, htable, Option.bind_some, ofTable?_table]
  simp [settle]

/-! ### Saving and loading -/

variable {c processors} {tree : FileTree} {path : String}

/-- Loading a file that holds a text is reading that text. -/
lemma load_of_content? {t : Text} (h : tree.content? path = some (Text.toBytes t)) :
    load tree path = parse t := by
  have hexists : tree.pathExists path = true := FileTree.pathExists_of_content? h
  have htext : tree.text? path = some t := by
    rw [FileTree.text?, h, Option.bind_some, Text.ofBytes?_toBytes]
  simp only [load, hexists, htext, Bool.not_true, Bool.false_eq_true, if_false]

/-- The default settings are loaded from a file with their document, with the number of workers
fixed: there is always one at least. -/
lemma load_of_default
    (hcontent : tree.content? path = some (Text.toBytes (render {} processors)))
    (hlimit : workers {} processors < Toml.integerLimit) :
    load tree path = .ok (settle {} processors) := by
  have hpositive : workers {} processors ≠ 0 := by
    rw [workers, Option.getD_none]
    omega
  rw [load_of_content? hcontent, parse_render {} processors hlimit, if_neg hpositive]

/-- Saving goes on once the directories around the file are made. -/
lemma save_of_makeAround {ready : FileTree} (h : tree.makeAround path = (true, ready)) :
    c.save processors tree path =
      if Toml.integerLimit ≤ c.workers processors then (.error .jobsOutOfRange, ready)
      else
        match ready.write path (Text.toBytes (c.render processors)) with
        | (true, written) => (.ok (), written)
        | (false, written) => (.error .fileSystem, written) := by
  have hready : Disk.willing.makeAround tree path = (true, ready) := h
  rw [save, saveOn, hready]
  rfl

/-- Where a file can be written, settings whose number of workers fits into a document are saved as
their document. -/
lemma exists_save_eq_ok (hpath : tree.Writable path)
    (h : c.workers processors < Toml.integerLimit) :
    ∃ tree', c.save processors tree path = (.ok (), tree') ∧
      tree'.content? path = some (Text.toBytes (c.render processors)) := by
  obtain ⟨ready, hready, hwrite⟩ := hpath
  obtain ⟨written, hwritten⟩ := hwrite (Text.toBytes (c.render processors))
  refine ⟨written, ?_, FileTree.content?_of_write hwritten⟩
  rw [save_of_makeAround hready, if_neg (Nat.not_le.mpr h), hwritten]

/-- Settings with too many workers are not saved, and no file loses its content. -/
lemma exists_save_eq_outOfRange (hpath : tree.Writable path)
    (h : Toml.integerLimit ≤ c.workers processors) :
    ∃ tree', c.save processors tree path = (.error .jobsOutOfRange, tree') ∧ tree.Grows tree' := by
  obtain ⟨ready, hready, -⟩ := hpath
  refine ⟨ready, ?_, ?_⟩
  · rw [save_of_makeAround hready, if_pos h]
  · exact FileTree.grows_of_makeAround hready

/-- Saving and loading are inverse where they can be. Settings with a number of workers from 1 to
2⁶³ - 1 are loaded from the path that they were saved to. Settings without workers can be saved but
not loaded. More workers than that cannot be saved, and the files there are keep their content. -/
theorem load_of_save (c : Config) (jobs processors : Nat) (tree : FileTree) (path : String)
    (hjobs : c.jobs = some jobs) (hpath : tree.Writable path) :
    (1 ≤ jobs → jobs ≤ 2 ^ 63 - 1 →
      ∃ tree', c.save processors tree path = (.ok (), tree') ∧ load tree' path = .ok c) ∧
    (jobs = 0 →
      ∃ tree', c.save processors tree path = (.ok (), tree') ∧
        ∃ f, load tree' path = .error f ∧ f.category = .config) ∧
    (2 ^ 63 ≤ jobs →
      ∃ f tree', c.save processors tree path = (.error f, tree') ∧ f.category = .config ∧
        ∀ p content, tree.content? p = some content → tree'.content? p = some content) := by
  have hworkers : c.workers processors = jobs := by rw [workers, hjobs, Option.getD_some]
  have hsettle : c.settle processors = c := by rw [settle, hworkers, ← hjobs]
  have hlimit : Toml.integerLimit = 2 ^ 63 := rfl
  refine ⟨fun hpos hmax => ?_, fun hzero => ?_, fun hlarge => ?_⟩
  · have hfits : c.workers processors < Toml.integerLimit := by omega
    obtain ⟨tree', hsave, hcontent⟩ := exists_save_eq_ok hpath hfits
    refine ⟨tree', hsave, ?_⟩
    rw [load_of_content? hcontent, parse_render c processors hfits, if_neg (by omega), hsettle]
  · have hfits : c.workers processors < Toml.integerLimit := by omega
    obtain ⟨tree', hsave, hcontent⟩ := exists_save_eq_ok hpath hfits
    refine ⟨tree', hsave, .jobsNotPositive, ?_, rfl⟩
    rw [load_of_content? hcontent, parse_render c processors hfits, if_pos (by omega)]
  · have hlarge : Toml.integerLimit ≤ c.workers processors := by omega
    obtain ⟨tree', hsave, hgrows⟩ := exists_save_eq_outOfRange hpath hlarge
    exact ⟨.jobsOutOfRange, tree', hsave, rfl, fun _ _ hcontent => hgrows.content? hcontent⟩

/-- Strict settings for JSON listings with the largest number of workers that fits, saved into a
directory that does not exist yet. -/
theorem load_of_save_largest :
    (FileTree.empty []).Writable "nested/ednt.toml" ∧
      ∃ tree', save ⟨some (2 ^ 63 - 1), true, .json, true⟩ 4 (FileTree.empty [])
          "nested/ednt.toml" = (.ok (), tree') ∧
        load tree' "nested/ednt.toml" = .ok ⟨some (2 ^ 63 - 1), true, .json, true⟩ := by
  have hpath : (FileTree.empty []).Writable "nested/ednt.toml" :=
    ⟨(FileTree.empty []).set ["nested"] .directory, rfl, fun _ => ⟨_, rfl⟩⟩
  exact ⟨hpath, (load_of_save _ (2 ^ 63 - 1) 4 _ _ rfl hpath).1 (by decide) (by decide)⟩

end EdnTokens.Config
