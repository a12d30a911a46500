import Mathlib
import DeadSymbols.Analysis
import DeadSymbols.Proofs.Admission

/-!
# Whether a leaf belongs to its own build

A path is analysed as a dump if its name ends in ".json" in upper or lower case.  The
build of the dump is then put together from the files next to it, and these are
looked for by the ending ".json" as it is written, after at least one character.  The
leaf itself has no other way into its build.  So a leaf takes part in its build, as a
unit or as a vendored one, exactly if the search finds its name; a leaf with the name
"APP.JSON" or ".json" is read for its dependency table and then left out.

## Main results

* `Path.suffix_eq_json_iff` — the names that the search finds.
* `Dump.isCandidate_iff_suffix` — a file that was read is found by its name alone.
* `Build.leaf_takes_part_iff` — when a leaf takes part in its build.
* `Build.leaf_left_out` — a leaf that does not.
-/

namespace DeadSymbols

theorem Path.suffix_eq_json_iff (p : Path) :
    p.suffix = ".json" ↔ ∃ stem, stem ≠ "" ∧ p.name = stem ++ ".json" := by
  have hlist : ".json".toList = '.' :: "json".toList := by decide
  rw [suffix, ← String.toList_inj, String.toList_ofList, hlist,
    suffixOf_eq_iff (by decide) (by decide)]
  constructor
  · rintro ⟨stem, hstem, hname⟩
    refine ⟨String.ofList stem, ?_, ?_⟩
    · intro hempty
      exact hstem (by simpa using congrArg String.toList hempty)
    · rw [← String.toList_inj, String.toList_append, String.toList_ofList, hname, hlist]
  · rintro ⟨stem, hstem, hname⟩
    refine ⟨stem.toList, ?_, ?_⟩
    · intro hempty
      exact hstem (String.toList_inj.mp (by simpa using hempty))
    · rw [hname, String.toList_append, hlist]

/-- A path that is analysed as a dump has a last part. -/
theorem Analysis.parts_ne_nil_of_hasSuffix {path : Path}
    (h : hasSuffix path Dump.suffix = true) : path.parts ≠ [] := by
  intro hparts
  rw [hasSuffix, Path.name, hparts] at h
  exact absurd h (by decide)

/-- A file of a directory that was read is a candidate exactly if its name ends as those
of dumps do. -/
theorem Dump.isCandidate_iff_suffix {files : FileTree} {directory : Path} {name : String}
    {d : Dump} (h : decode files (directory.child name) = .ok d) :
    IsCandidate files directory (directory.child name) ↔
      (directory.child name).suffix = ".json" := by
  constructor
  · rintro ⟨_, _, _, _, _, _, hsuffix⟩
    exact hsuffix
  · intro hsuffix
    obtain ⟨content, hread, -⟩ := decode_eq_ok_iff.1 h
    have hname : name ≠ ".." := by
      rintro rfl
      rw [Path.suffix, Path.name_child] at hsuffix
      exact absurd hsuffix (by decide)
    obtain ⟨place, hplace, hentry⟩ := FileTree.entry?_of_read_child hread hname
    exact ⟨place, name, content, hplace, hentry, rfl, hsuffix⟩

namespace Build

theorem not_foreign_self (leaf : Metadata) : ¬Foreign leaf leaf :=
  fun h => h.1 rfl

section Leaf

variable {files : FileTree} {directory : Path} {name : String} {leaf : Dump}
  {cs : List (Path × Dump)} (markers : List String)

/-- Dumps of one directory that are equal were read from one file. -/
theorem Decoded.eq_of_dump_eq (h : Decoded files directory cs)
    (hleaf : Dump.decode files (directory.child name) = .ok leaf) {c : Path × Dump}
    (hc : c ∈ cs) (hdump : c.2 = leaf) : c.1 = directory.child name := by
  obtain ⟨_, _, hbytes⟩ := Dump.decode_eq_ok_iff.1 ((h.mem_iff c.1 c.2).1 hc).2
  obtain ⟨_, _, hbytes'⟩ := Dump.decode_eq_ok_iff.1 hleaf
  have hsource : c.1.toString = (directory.child name).toString := by
    rw [← Dump.source_of_ofBytes hbytes, ← Dump.source_of_ofBytes hbytes', hdump]
  have hchild := h.eq_child hc
  rw [hchild] at hsource
  rw [hchild, directory.toString_child_injective hsource]

/-- The leaf is a unit of the partition exactly if it is a candidate without mark. -/
theorem leaf_mem_units_iff (h : Decoded files directory cs)
    (hleaf : Dump.decode files (directory.child name) = .ok leaf) :
    leaf ∈ (partition leaf.metadata markers cs).units ↔
      Dump.IsCandidate files directory (directory.child name) ∧
        ¬Marked markers leaf.metadata := by
  simp only [partition, List.mem_map, List.mem_filter, decide_eq_true_eq]
  constructor
  · rintro ⟨c, ⟨hc, hadmits⟩, hdump⟩
    rw [hdump] at hadmits
    rw [← h.eq_of_dump_eq hleaf hc hdump]
    exact ⟨((h.mem_iff c.1 c.2).1 hc).1, hadmits.2⟩
  · rintro ⟨hcandidate, hmarked⟩
    exact ⟨(directory.child name, leaf), ⟨(h.mem_iff _ _).2 ⟨hcandidate, hleaf⟩,
      not_foreign_self _, hmarked⟩, rfl⟩

/-- The leaf is vendored exactly if it is a candidate with a mark. -/
theorem leaf_mem_vendored_iff (h : Decoded files directory cs)
    (hleaf : Dump.decode files (directory.child name) = .ok leaf) :
    directory.child name ∈ (partition leaf.metadata markers cs).vendored ↔
      Dump.IsCandidate files directory (directory.child name) ∧
        Marked markers leaf.metadata := by
  simp only [partition, List.mem_map, List.mem_filter, decide_eq_true_eq]
  constructor
  · rintro ⟨⟨path, d⟩, ⟨hc, -, hmarked⟩, rfl⟩
    obtain ⟨hcandidate, hdecode⟩ := (h.mem_iff _ d).1 hc
    obtain rfl := Except.ok.inj (hdecode.symm.trans hleaf)
    exact ⟨hcandidate, hmarked⟩
  · rintro ⟨hcandidate, hmarked⟩
    exact ⟨(directory.child name, leaf), ⟨(h.mem_iff _ _).2 ⟨hcandidate, hleaf⟩,
      not_foreign_self _, hmarked⟩, rfl⟩

/-- The leaf is never stale. -/
theorem leaf_not_mem_stale (h : Decoded files directory cs)
    (hleaf : Dump.decode files (directory.child name) = .ok leaf) :
    directory.child name ∉ (partition leaf.metadata markers cs).stale := by
  simp only [partition, List.mem_map, List.mem_filter, decide_eq_true_eq]
  rintro ⟨⟨path, d⟩, ⟨hc, hforeign⟩, rfl⟩
  obtain rfl := Except.ok.inj (((h.mem_iff _ d).1 hc).2.symm.trans hleaf)
  exact not_foreign_self _ hforeign

end Leaf

/-- A path that is analysed as a dump and whose build is loaded.  The leaf takes part in
the build, as a unit or as a vendored one, exactly if its name ends in ".json" as it is
written, with something before it; it is vendored only if it is marked, and never stale.
So a leaf with another name is in none of the lists of the build. -/
theorem leaf_takes_part_iff {w w' : World} {path : Path} {workers : Option Int}
    {markers : List String} {build : Build}
    (hdispatch : Analysis.hasSuffix path Dump.suffix = true)
    (hload : (load path workers markers).run.run w = (.ok build, w')) :
    ∃ leaf, Dump.decode w.files path = .ok leaf ∧
      ((leaf ∈ build.units ∨ path ∈ build.vendored) ↔
        ∃ stem, stem ≠ "" ∧ path.name = stem ++ ".json") ∧
      (path ∈ build.vendored → Marked markers leaf.metadata) ∧
      path ∉ build.stale := by
  have hpath := Path.child_name_parent (Analysis.parts_ne_nil_of_hasSuffix hdispatch)
  rw [← hpath] at hload
  obtain ⟨leaf, cs, hleaf, hcs, rfl⟩ := decoded_of_load markers hload
  have hunits := leaf_mem_units_iff markers hcs hleaf
  have hvendored := leaf_mem_vendored_iff markers hcs hleaf
  have hstale := leaf_not_mem_stale markers hcs hleaf
  rw [Dump.isCandidate_iff_suffix hleaf] at hunits hvendored
  rw [hpath] at hleaf hunits hvendored hstale
  refine ⟨leaf, hleaf, ?_, fun h => (hvendored.1 h).2, hstale⟩
  rw [hunits, hvendored, ← Path.suffix_eq_json_iff]
  constructor
  · rintro (⟨hsuffix, -⟩ | ⟨hsuffix, -⟩)
    · exact hsuffix
    · exact hsuffix
  · intro hsuffix
    by_cases hmarked : Marked markers leaf.metadata
    · exact Or.inr ⟨hsuffix, hmarked⟩
    · exact Or.inl ⟨hsuffix, hmarked⟩

/-! ## A leaf by itself -/

/-- A directory with one dump, under a given name. -/
def loneTree (name : String) : FileTree :=
  ⟨[], [(["build"], .directory), (["build", name], .file (Text.toBytes sampleText))]⟩

private theorem locate_loneTree (name : String) :
    (loneTree name).locate ⟨0, ["build"]⟩ = .ok ["build"] :=
  FileTree.locate_eq_ok_iff.2 ⟨by decide +kernel, by decide +kernel, by rfl⟩

private theorem loads_loneTree {name : String} {leaf : Dump}
    (hleaf : Dump.decode (loneTree name) (Path.child ⟨0, ["build"]⟩ name) = .ok leaf)
    (hshort : ∀ e ∈ (loneTree name).entriesIn ["build"],
      ¬FileTree.TooLong (Path.child ⟨0, ["build"]⟩ e.1))
    (hdecoded : ∀ other ∈ ((loneTree name).entriesIn ["build"]).filterMap
        (Dump.candidateName? ⟨0, ["build"]⟩),
      (Dump.decode (loneTree name) (Path.child ⟨0, ["build"]⟩ other)).toOption.isSome = true) :
    ∃ cs, Decoded (loneTree name) ⟨0, ["build"]⟩ cs ∧
      Loads ⟨loneTree name, []⟩ (Path.child ⟨0, ["build"]⟩ name) none []
        (.ok (partition leaf.metadata [] cs)) :=
  loads_of_decoded (w := ⟨loneTree name, []⟩) [] hleaf (by simp)
    (described_of_listing (locate_loneTree name) hshort)
    (decoded_of_listing (locate_loneTree name) hdecoded)

/-- The leaf "app.json" takes part in its build. -/
theorem leaf_takes_part_iff_loneTree :
    ∃ build w' leaf,
      Analysis.hasSuffix ⟨0, ["build", "app.json"]⟩ Dump.suffix = true ∧
      (load ⟨0, ["build", "app.json"]⟩ none []).run.run ⟨loneTree "app.json", []⟩ =
        (.ok build, w') ∧
      Dump.decode (loneTree "app.json") ⟨0, ["build", "app.json"]⟩ = .ok leaf ∧
      (leaf ∈ build.units ∨ ⟨0, ["build", "app.json"]⟩ ∈ build.vendored) := by
  have hdispatch : Analysis.hasSuffix ⟨0, ["build", "app.json"]⟩ Dump.suffix = true := by
    decide +kernel
  have hdecode : Dump.decode (loneTree "app.json") ⟨0, ["build", "app.json"]⟩ =
      .ok (sampleLeaf.relocate "build/app.json") := by
    decide +kernel
  obtain ⟨_, _, _, hload⟩ := loads_loneTree hdecode (by decide +kernel) (by decide +kernel)
  obtain ⟨leaf, hleaf, hpart, -, -⟩ := leaf_takes_part_iff hdispatch hload
  exact ⟨_, _, leaf, hdispatch, hload, hleaf, hpart.2 ⟨"app", by decide, by decide⟩⟩

/-- The leaf "APP.JSON" is analysed as a dump and its build is loaded, but the leaf is
left out of it. -/
theorem leaf_left_out :
    Analysis.hasSuffix ⟨0, ["build", "APP.JSON"]⟩ Dump.suffix = true ∧
    ∃ build w' leaf,
      (load ⟨0, ["build", "APP.JSON"]⟩ none []).run.run ⟨loneTree "APP.JSON", []⟩ =
        (.ok build, w') ∧
      Dump.decode (loneTree "APP.JSON") ⟨0, ["build", "APP.JSON"]⟩ = .ok leaf ∧
      leaf ∉ build.units ∧ ⟨0, ["build", "APP.JSON"]⟩ ∉ build.vendored := by
  have hdecode : Dump.decode (loneTree "APP.JSON") ⟨0, ["build", "APP.JSON"]⟩ =
      .ok (sampleLeaf.relocate "build/APP.JSON") := by
    decide +kernel
  obtain ⟨cs, hcs, _, hload⟩ := loads_loneTree hdecode (by decide +kernel) (by decide +kernel)
  have hnone : ¬Dump.IsCandidate (loneTree "APP.JSON") ⟨0, ["build"]⟩
      (Path.child ⟨0, ["build"]⟩ "APP.JSON") := by
    rw [Dump.isCandidate_iff_suffix hdecode]
    decide +kernel
  refine ⟨by decide +kernel, _, _, _, hload, hdecode, ?_, ?_⟩
  · exact fun h => hnone ((leaf_mem_units_iff [] hcs hdecode).1 h).1
  · exact fun h => hnone ((leaf_mem_vendored_iff [] hcs hdecode).1 h).1

end Build

end DeadSymbols
