import EdnTokens.Proofs.Inputs
import EdnTokens.Proofs.Listings

/-!
# Listings of several files

The files of a listing are loaded before anything is listed, and the listing is made of the
listings that the files have on their own. A path that is given more than once counts once, at the
place where it first occurs; the headings of a text listing depend on how many paths are left then.
If a path cannot be read there is no listing at all, only the failure of the first such path.
-/

namespace EdnTokens

namespace Listing

variable (l : Listing) {tree : FileTree}

/-- A heading is a line with the name of the file. -/
lemma heading_eq (file : SourceFile) :
    heading file = "==> ".toList ++ file.name.toList ++ " <==\n".toList := by
  rw [heading, Text.line, List.append_assoc _ _ ['\n']]
  rfl

/-- The listing of files that can all be read is made of the bodies of the different files. -/
lemma run_of_readable {content : String → Text}
    (hread : ∀ path ∈ l.files, tree.readInput path = .ok (content path)) :
    ∃ notices, l.run tree = .ok (l.files.eraseDups.flatMap fun path =>
      (if l.format = .text ∧ 1 < l.files.eraseDups.length then
        heading { name := path, content := content path } else []) ++
      l.body { name := path, content := content path }, notices) := by
  rw [run, SourceMap.ofInputs_eq_ok hread]
  refine ⟨_, congrArg Except.ok (Prod.ext ?_ rfl)⟩
  simp only [ofMap, SourceMap.ofContents, SourceMap.size, List.flatMap_map, List.size_toArray,
    List.length_map]

/-- Loading the files of a listing is ordered, passes repetitions over and is all or nothing. If
each of the different paths holds a text, the files are loaded in the order of their first mention,
and the listing consists of the listings that they have on their own, under headings if it is a text
listing and the different paths are several. Otherwise loading and listing both end with the failure
of the first path that holds none. -/
theorem run_all_or_nothing (l : Listing) (tree : FileTree) :
    (∀ content : String → Text, (∀ path ∈ l.files.eraseDups, tree.Holds path (content path)) →
      ∃ m, SourceMap.ofInputs tree l.files = .ok m ∧
        m.files.toList.map (fun file => (file.name, file.content)) =
          l.files.eraseDups.map (fun path => (path, content path)) ∧
        (∀ i path, l.files.eraseDups[i]? = some path →
          m.lookup? path = some i ∧
            ∃ file, m.get i = .ok file ∧ file.name = path ∧ file.content = content path) ∧
        ∃ single : String → Text,
          (∀ path ∈ l.files.eraseDups, ∃ notices,
            ({ l with files := [path] } : Listing).run tree = .ok (single path, notices)) ∧
          ∃ notices, l.run tree = .ok (l.files.eraseDups.flatMap fun path =>
            (if l.format = .text ∧ 1 < l.files.eraseDups.length then
              "==> ".toList ++ path.toList ++ " <==\n".toList else []) ++ single path, notices)) ∧
      ((¬ ∀ path ∈ l.files.eraseDups, ∃ content, tree.Holds path content) →
        ∃ done path rest f, l.files.eraseDups = done ++ path :: rest ∧
          (∀ p ∈ done, ∃ content, tree.Holds p content) ∧ tree.Unreadable path f ∧
          f.category = (if (tree.content? path).isSome then .fileOperation else .validation) ∧
          SourceMap.ofInputs tree l.files = .error f ∧ l.run tree = .error f) := by
  constructor
  · intro content hholds
    have hread : ∀ path ∈ l.files, tree.readInput path = .ok (content path) := fun path hpath =>
      FileTree.readInput_eq_ok_iff.mpr (hholds path (List.mem_eraseDups.mpr hpath))
    obtain ⟨notices, hrun⟩ := run_of_readable l hread
    refine ⟨_, SourceMap.ofInputs_eq_ok hread, ?_, ?_,
      fun path => l.body { name := path, content := content path }, ?_, notices, ?_⟩
    · simp [SourceMap.ofContents, Function.comp_def]
    · intro i path hpath
      refine ⟨SourceMap.lookup?_ofContents (nodup_eraseDups l.files) hpath,
        { name := path, content := content path }, ?_, rfl, rfl⟩
      simp [SourceMap.get, SourceMap.get?, SourceMap.ofContents, hpath]
    · intro path hpath
      exact run_single { l with files := [path] } rfl
        (FileTree.readInput_eq_ok_iff.mpr (hholds path hpath))
    · simpa only [heading_eq] using hrun
  · intro hnot
    -- the first path without a text ends the loading, and the listing does not begin
    simp only [List.mem_eraseDups] at hnot
    obtain ⟨done, path, rest, f, hfiles, hdone, hf, hinputs⟩ :=
      SourceMap.exists_ofInputs_eq_error hnot
    refine ⟨done, path, rest, f, hfiles, hdone, hf, hf.category_eq, hinputs, ?_⟩
    rw [run, hinputs]
    rfl

/-- A path that is given twice is listed once. With a missing path among the others there is no
listing, and the failure is that of an argument. -/
theorem run_all_or_nothing_repeated :
    ∃ tree : FileTree,
      (tree.Holds "a.edn" "1".toList ∧ tree.Holds "b.edn" ":b".toList ∧
        ∃ notices, ({ files := ["a.edn", "b.edn", "a.edn"] } : Listing).run tree =
          .ok (("==> a.edn <==\n1:1:1 number \"1\"\n" ++
            "==> b.edn <==\n1:1:1 keyword \":b\"\n").toList, notices)) ∧
      tree.entry? "c.edn" = none ∧
        ∃ f, f.category = .validation ∧
          ({ files := ["b.edn", "c.edn", "b.edn"] } : Listing).run tree = .error f := by
  let tree := ((FileTree.empty []).set ["a.edn"] (.file (Text.toBytes "1".toList))).set ["b.edn"]
    (.file (Text.toBytes ":b".toList))
  have ha : tree.Holds "a.edn" "1".toList := ⟨_, rfl, rfl⟩
  have hb : tree.Holds "b.edn" ":b".toList := ⟨_, rfl, rfl⟩
  have hc : tree.entry? "c.edn" = none := rfl
  refine ⟨tree, ⟨ha, hb, ?_⟩, hc, ?_⟩
  · have hpaths : (["a.edn", "b.edn", "a.edn"] : List String).eraseDups = ["a.edn", "b.edn"] := by
      decide
    have hholds : ∀ path ∈ (["a.edn", "b.edn", "a.edn"] : List String).eraseDups,
        tree.Holds path (if path = "a.edn" then "1".toList else ":b".toList) := by
      rw [hpaths, List.forall_mem_cons, List.forall_mem_singleton]
      exact ⟨ha, hb⟩
    obtain ⟨-, -, -, -, single, hsingle, notices, hrun⟩ :=
      (run_all_or_nothing { files := ["a.edn", "b.edn", "a.edn"] } tree).1 _ hholds
    have hfirst : single "a.edn" = "1:1:1 number \"1\"\n".toList := by
      obtain ⟨_, h⟩ := hsingle "a.edn" (by decide)
      have hlisting : ({ files := ["a.edn"] } : Listing).run tree =
        .ok ("1:1:1 number \"1\"\n".toList, []) := by decide +kernel
      exact (Prod.mk.inj (Except.ok.inj (h.symm.trans hlisting))).1
    have hsecond : single "b.edn" = "1:1:1 keyword \":b\"\n".toList := by
      obtain ⟨_, h⟩ := hsingle "b.edn" (by decide)
      have hlisting : ({ files := ["b.edn"] } : Listing).run tree =
        .ok ("1:1:1 keyword \":b\"\n".toList, []) := by decide +kernel
      exact (Prod.mk.inj (Except.ok.inj (h.symm.trans hlisting))).1
    refine ⟨notices, hrun.trans (congrArg (fun listing => Except.ok (listing, notices)) ?_)⟩
    dsimp only
    rw [hpaths, List.flatMap_cons, List.flatMap_cons, List.flatMap_nil, hfirst, hsecond]
    decide
  · have hpaths : (["b.edn", "c.edn", "b.edn"] : List String).eraseDups = ["b.edn", "c.edn"] := by
      decide
    have hnot : ¬ ∀ path ∈ (["b.edn", "c.edn", "b.edn"] : List String).eraseDups,
        ∃ content, tree.Holds path content := by
      intro h
      obtain ⟨_, _, hfile, -⟩ := h "c.edn" (by decide)
      rw [hc] at hfile
      cases hfile
    obtain ⟨done, path, rest, f, hfiles, -, hf, hcategory, -, hrun⟩ :=
      (run_all_or_nothing { files := ["b.edn", "c.edn", "b.edn"] } tree).2 hnot
    have hpath : path ∈ ["b.edn", "c.edn"] := by
      rw [← hpaths, hfiles]
      exact List.mem_append_right done List.mem_cons_self
    rw [List.mem_pair] at hpath
    rcases hpath with rfl | rfl
    · rw [← FileTree.readInput_eq_error_iff, FileTree.readInput_eq_ok_iff.mpr hb] at hf
      cases hf
    · exact ⟨f, hcategory, hrun⟩

end Listing

end EdnTokens
