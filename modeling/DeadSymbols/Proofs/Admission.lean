import Mathlib
import DeadSymbols.Proofs.Loading

/-!
# What a build depends on

The units of a build are the dumps of the files that are admitted, put in the order
of their names.  Nothing else in the directory has a part in them: stale and vendored
dumps, files that are no dumps and directories may come and go.  The directory itself
shows only in where the units say they come from.

One thing in a directory does matter besides its dumps: the system describes an entry
by its path, and where the path of some entry is too long, loading is refused, even
if the entry is no dump (`Build.load_refused_for_long_path`).

## Main results

* `Build.admittedByName_congr` — the units depend on the admitted files only.
* `Build.load_partitions_candidates` — what loading does, in all cases.
-/

namespace DeadSymbols.Build

/-- A file of the directory, by its name and content, whose dump is admitted. -/
def AdmittedFile (files : FileTree) (directory : Path) (leaf : Metadata)
    (markers : List String) (name : String) (content : Text.Bytes) : Prop :=
  Dump.IsCandidate files directory (directory.child name) ∧
    files.read (directory.child name) = .ok content ∧
    ∃ d, Dump.ofBytes (directory.child name) content = .ok d ∧
      Admits leaf markers d.metadata

/-- The admitted candidates by their names, with dumps that do not say where they
come from. -/
def admittedByName (leaf : Metadata) (markers : List String)
    (cs : List (Path × Dump)) : List (String × Dump) :=
  (cs.filter fun c => Admits leaf markers c.2.metadata).map fun c =>
    (c.1.name, c.2.relocate "")

section Units

variable {leaf : Metadata} {markers : List String} {files : FileTree}
  {directory : Path} {cs : List (Path × Dump)}

theorem Decoded.eq_child (h : Decoded files directory cs) {c : Path × Dump}
    (hc : c ∈ cs) : c.1 = directory.child c.1.name := by
  obtain ⟨_, name, _, _, _, hpath, _⟩ := ((h.mem_iff c.1 c.2).1 hc).1
  rw [hpath, Path.name_child]

private theorem pairwise_admittedByName (leaf : Metadata) (markers : List String)
    (h : Decoded files directory cs) :
    (admittedByName leaf markers cs).Pairwise fun a b => a.1 < b.1 := by
  rw [admittedByName, List.pairwise_map]
  refine List.Pairwise.filter _ (h.sorted.imp_of_mem ?_)
  intro a b ha hb hlt
  rw [h.eq_child ha, h.eq_child hb] at hlt
  exact (directory.child_parts_lt_iff _ _).1 hlt

private theorem mem_admittedByName_iff (h : Decoded files directory cs) {name : String}
    {d : Dump} :
    (name, d) ∈ admittedByName leaf markers cs ↔
      ∃ content body, AdmittedFile files directory leaf markers name content ∧
        Dump.ofBytes .here content = .ok body ∧ d = body.relocate "" := by
  simp only [admittedByName, List.mem_map, List.mem_filter, decide_eq_true_eq,
    Prod.mk.injEq]
  constructor
  · rintro ⟨c, ⟨hc, hadmits⟩, rfl, rfl⟩
    obtain ⟨hcandidate, hdecode⟩ := (h.mem_iff c.1 c.2).1 hc
    obtain ⟨content, hread, hbytes⟩ := Dump.decode_eq_ok_iff.1 hdecode
    rw [h.eq_child hc] at hcandidate hread hbytes
    exact ⟨content, c.2.relocate Path.here.toString,
      ⟨hcandidate, hread, c.2, hbytes, hadmits⟩, Dump.ofBytes_relocate hbytes _, rfl⟩
  · rintro ⟨content, body, ⟨hcandidate, hread, found, hfound, hadmits⟩, hbody, rfl⟩
    have hdecode := Dump.decode_eq_ok_iff.2 ⟨content, hread, hfound⟩
    have hmem := (h.mem_iff _ found).2 ⟨hcandidate, hdecode⟩
    have hsame : found.relocate Path.here.toString = body := by
      rw [Dump.ofBytes_relocate hfound Path.here] at hbody
      exact Except.ok.inj hbody
    refine ⟨(directory.child name, found), ⟨hmem, hadmits⟩, Path.name_child _ _, ?_⟩
    rw [← hsame]
    rfl

/-- The units are the admitted dumps, each put back in its place. -/
private theorem units_partition (h : Decoded files directory cs) :
    (partition leaf markers cs).units =
      (admittedByName leaf markers cs).map fun a =>
        a.2.relocate (directory.child a.1).toString := by
  rw [partition, admittedByName, List.map_map]
  refine List.map_congr_left ?_
  intro c hc
  have hmem := List.mem_of_mem_filter hc
  obtain ⟨content, _, hbytes⟩ :=
    Dump.decode_eq_ok_iff.1 ((h.mem_iff c.1 c.2).1 hmem).2
  have hsource := Dump.source_of_ofBytes hbytes
  rw [h.eq_child hmem] at hsource
  rw [Function.comp_apply, Dump.relocate, Dump.relocate, ← hsource]

/-- Two directories with the same admitted files give the same units, but for where
these come from. -/
theorem admittedByName_congr {files' : FileTree} {directory' : Path}
    {cs' : List (Path × Dump)} (h : Decoded files directory cs)
    (h' : Decoded files' directory' cs')
    (hsame : ∀ name content, AdmittedFile files directory leaf markers name content ↔
      AdmittedFile files' directory' leaf markers name content) :
    admittedByName leaf markers cs = admittedByName leaf markers cs' := by
  have hsorted := pairwise_admittedByName leaf markers h
  have hsorted' := pairwise_admittedByName leaf markers h'
  have hperm : (admittedByName leaf markers cs).Perm
      (admittedByName leaf markers cs') := by
    refine (List.perm_ext_iff_of_nodup ?_ ?_).2 ?_
    · exact hsorted.imp fun hlt heq => absurd (heq ▸ hlt) (lt_irrefl _)
    · exact hsorted'.imp fun hlt heq => absurd (heq ▸ hlt) (lt_irrefl _)
    · rintro ⟨name, d⟩
      simp only [mem_admittedByName_iff h, mem_admittedByName_iff h', hsame]
  refine hperm.eq_of_pairwise ?_ hsorted hsorted'
  intro a b _ _ hab hba
  exact absurd hba (lt_asymm hab)

end Units

/-! ## Intact directories -/

/-- Every entry of the directory can be described and every candidate decodes. -/
structure Intact (files : FileTree) (directory : Path) : Prop where
  described : ∀ path, ¬Dump.RefusedEntry files directory path
  decoded : ∀ path, Dump.IsCandidate files directory path →
    ∃ d, Dump.decode files path = .ok d

/-- Whether the entries can be described can be seen from the listing. -/
theorem described_of_listing {files : FileTree} {directory : Path} {place : Location}
    (hplace : files.locate directory = .ok place)
    (hshort : ∀ e ∈ files.entriesIn place, ¬FileTree.TooLong (directory.child e.1)) :
    ∀ path, ¬Dump.RefusedEntry files directory path := by
  rintro path ⟨other, name, entry, hother, hentry, rfl, hlong⟩
  obtain rfl : place = other := by simpa [hplace] using hother
  exact hshort (name, entry) (FileTree.mem_entriesIn_iff.2 hentry) hlong

/-- Whether the candidates decode can be seen from the listing. -/
theorem decoded_of_listing {files : FileTree} {directory : Path} {place : Location}
    (hplace : files.locate directory = .ok place)
    (hdecoded : ∀ name ∈
      (files.entriesIn place).filterMap (Dump.candidateName? directory),
      (Dump.decode files (directory.child name)).toOption.isSome = true) :
    ∀ path, Dump.IsCandidate files directory path →
      ∃ d, Dump.decode files path = .ok d := by
  intro path hpath
  obtain ⟨name, hname, rfl⟩ := (Dump.isCandidate_iff hplace).1 hpath
  have hsome := hdecoded name hname
  cases hdecode : Dump.decode files (directory.child name) with
  | ok d => exact ⟨d, rfl⟩
  | error e =>
      rw [hdecode] at hsome
      contradiction

/-- The admitted files of a listing, by name and content. -/
def admittedFiles (files : FileTree) (directory : Path) (place : Location)
    (leaf : Metadata) (markers : List String) : List (String × Text.Bytes) :=
  ((files.entriesIn place).filterMap (Dump.candidateName? directory)).filterMap fun name =>
    match files.read (directory.child name) with
    | .error _ => none
    | .ok content =>
      match Dump.ofBytes (directory.child name) content with
      | .error _ => none
      | .ok d => if Admits leaf markers d.metadata then some (name, content) else none

theorem mem_admittedFiles_iff {files : FileTree} {directory : Path} {place : Location}
    (hplace : files.locate directory = .ok place) {leaf : Metadata}
    {markers : List String} {name : String} {content : Text.Bytes} :
    (name, content) ∈ admittedFiles files directory place leaf markers ↔
      AdmittedFile files directory leaf markers name content := by
  have hcandidate : Dump.IsCandidate files directory (directory.child name) ↔
      name ∈ (files.entriesIn place).filterMap (Dump.candidateName? directory) := by
    rw [Dump.isCandidate_iff hplace]
    constructor
    · rintro ⟨other, hother, hchild⟩
      have hname := congrArg Path.name hchild
      rw [Path.name_child, Path.name_child] at hname
      rw [← hname]
      exact hother
    · intro hname
      exact ⟨name, hname, rfl⟩
  rw [admittedFiles, AdmittedFile, hcandidate, List.mem_filterMap]
  constructor
  · rintro ⟨other, hother, h⟩
    cases hread : files.read (directory.child other) with
    | error e => simp [hread] at h
    | ok found =>
        cases hbytes : Dump.ofBytes (directory.child other) found with
        | error e => simp [hread, hbytes] at h
        | ok d =>
            simp only [hread, hbytes, Option.ite_none_right_eq_some, Option.some.injEq,
              Prod.mk.injEq] at h
            obtain ⟨hadmits, rfl, rfl⟩ := h
            exact ⟨hother, hread, d, hbytes, hadmits⟩
  · rintro ⟨hname, hread, d, hbytes, hadmits⟩
    refine ⟨name, hname, ?_⟩
    simp only [hread, hbytes, if_pos hadmits]

/-! ## Loading -/

/-- Loading the build of a leaf that decodes, with one worker or more.

If the directory is intact, every candidate goes to one of the three lists of the
build, in the order of paths: the stale ones are those foreign to the leaf, the
vendored ones are those of the others that are marked, and the rest is admitted with
its whole dump.  If a candidate does not decode, the outcome is the error of the first
one that does not.  An entry whose path the system refuses ends the loading before any
candidate is read.

Two intact directories with the same leaf file and the same admitted files give the
same units, whatever else they hold and however many workers there are; where the
directories have different paths, the units differ in where they come from and in
nothing else. -/
theorem load_partitions_candidates (w : World) (directory : Path) (name : String)
    (workers : Option Int) (markers : List String) (leaf : Dump)
    (hleaf : Dump.decode w.files (directory.child name) = .ok leaf)
    (hworkers : ∀ n ∈ workers, 1 ≤ n) :
    (Intact w.files directory →
      ∃ cs, Decoded w.files directory cs ∧
        Loads w (directory.child name) workers markers
          (.ok (partition leaf.metadata markers cs))) ∧
    ((∀ path, ¬Dump.RefusedEntry w.files directory path) →
      (∃ path, Dump.IsCandidate w.files directory path ∧
        ∀ d, Dump.decode w.files path ≠ .ok d) →
      ∃ path e, FirstUndecoded w.files directory path e ∧
        Loads w (directory.child name) workers markers (.error e)) ∧
    ((∃ path, Dump.RefusedEntry w.files directory path) →
      ∃ path, Dump.RefusedEntry w.files directory path ∧
        Loads w (directory.child name) workers markers
          (.error (.refused ⟨.nameTooLong, path⟩))) ∧
    (∀ (w' : World) (directory' : Path) (name' : String) (workers' : Option Int),
      (∀ n ∈ workers', 1 ≤ n) →
      Intact w.files directory → Intact w'.files directory' →
      w'.files.read (directory'.child name') = w.files.read (directory.child name) →
      (∀ file content,
        AdmittedFile w.files directory leaf.metadata markers file content ↔
          AdmittedFile w'.files directory' leaf.metadata markers file content) →
      ∃ build build',
        Loads w (directory.child name) workers markers (.ok build) ∧
        Loads w' (directory'.child name') workers' markers (.ok build') ∧
        build.units.map (·.relocate "") = build'.units.map (·.relocate "") ∧
        (directory = directory' → build.units = build'.units)) := by
  refine ⟨?_, ?_, ?_, ?_⟩
  · intro h
    exact loads_of_decoded markers hleaf hworkers h.described h.decoded
  · rintro hdescribed ⟨path, hcandidate, hundecoded⟩
    exact loads_of_undecoded markers hleaf hworkers hdescribed hcandidate hundecoded
  · rintro ⟨path, hrefused⟩
    exact loads_of_refused markers hleaf hrefused
  · intro w' directory' name' workers' hworkers' h h' hread hsame
    obtain ⟨content, hcontent, hbytes⟩ := Dump.decode_eq_ok_iff.1 hleaf
    -- The other leaf has the same content, hence the same metadata.
    have hleaf' := Dump.decode_eq_ok_iff.2
      ⟨content, hread.trans hcontent, Dump.ofBytes_relocate hbytes (directory'.child name')⟩
    obtain ⟨cs, hcs, hload⟩ :=
      loads_of_decoded markers hleaf hworkers h.described h.decoded
    obtain ⟨cs', hcs', hload'⟩ :=
      loads_of_decoded markers hleaf' hworkers' h'.described h'.decoded
    have hunits := admittedByName_congr hcs hcs' hsame
    refine ⟨_, _, hload, hload', ?_, ?_⟩
    · rw [units_partition hcs, Dump.metadata_relocate, units_partition hcs', hunits,
        List.map_map, List.map_map]
      rfl
    · intro hdirectory
      rw [units_partition hcs, Dump.metadata_relocate, units_partition hcs', hunits,
        hdirectory]

/-- The text of a dump that only says which unit it is about. -/
def sampleText : String :=
  "\x7b\"prelude\":\x7b\"crate_id\":\x7b\"disambiguator\":[1,2]\x7d\x7d\x7d"

/-- A directory with a leaf and other files. -/
def sampleTree (others : List (String × String)) : FileTree :=
  ⟨[], (["build"], .directory) :: (("leaf.json", sampleText) :: others).map fun f =>
    (["build", f.1], .file (Text.toBytes f.2))⟩

/-- A file that is no dump, and a stale dump. -/
def sampleOthers : List (String × String) :=
  [("notes.txt", ""),
    ("old.json", "\x7b\"prelude\":\x7b\"crate_id\":\x7b\"disambiguator\":[9,9]\x7d\x7d\x7d")]

def sampleLeaf : Dump :=
  ⟨"build/leaf.json", ⟨⟨"", ⟨1, 2⟩, []⟩, ""⟩, [], []⟩

section Sample

variable (others : List (String × String))

private theorem locate_sampleTree :
    (sampleTree others).locate ⟨0, ["build"]⟩ = .ok ["build"] :=
  FileTree.locate_eq_ok_iff.2 ⟨by decide +kernel, by decide +kernel, by rfl⟩

private theorem read_sampleTree :
    (sampleTree others).read ⟨0, ["build", "leaf.json"]⟩ =
      (sampleTree []).read ⟨0, ["build", "leaf.json"]⟩ := by
  rfl

private theorem decode_sampleTree :
    Dump.decode (sampleTree others) ⟨0, ["build", "leaf.json"]⟩ = .ok sampleLeaf := by
  have hleaf : Dump.decode (sampleTree []) ⟨0, ["build", "leaf.json"]⟩ =
      .ok sampleLeaf := by
    decide +kernel
  rw [Dump.decode, read_sampleTree]
  exact hleaf

end Sample

private theorem intact_sampleTree :
    Intact (sampleTree sampleOthers) ⟨0, ["build"]⟩ ∧
      Intact (sampleTree []) ⟨0, ["build"]⟩ :=
  ⟨⟨described_of_listing (locate_sampleTree _) (by decide +kernel),
      decoded_of_listing (locate_sampleTree _) (by decide +kernel)⟩,
    ⟨described_of_listing (locate_sampleTree _) (by decide +kernel),
      decoded_of_listing (locate_sampleTree _) (by decide +kernel)⟩⟩

private theorem admittedFiles_sampleTree :
    admittedFiles (sampleTree sampleOthers) ⟨0, ["build"]⟩ ["build"] sampleLeaf.metadata
        defaultVendorMarkers =
      admittedFiles (sampleTree []) ⟨0, ["build"]⟩ ["build"] sampleLeaf.metadata
        defaultVendorMarkers := by
  decide +kernel

/-- The stale dump and the file that is no dump leave no trace in the units; a file
that is no dump although its name says so is an error. -/
theorem load_partitions_candidates_sampleTree :
    (∃ build build',
      Loads ⟨sampleTree sampleOthers, []⟩ ⟨0, ["build", "leaf.json"]⟩ (some 3)
        defaultVendorMarkers (.ok build) ∧
      Loads ⟨sampleTree [], []⟩ ⟨0, ["build", "leaf.json"]⟩ none
        defaultVendorMarkers (.ok build') ∧
      build.units = build'.units) ∧
    ∃ path e, FirstUndecoded (sampleTree [("bad.json", "")]) ⟨0, ["build"]⟩ path e ∧
      Loads ⟨sampleTree [("bad.json", "")], []⟩ ⟨0, ["build", "leaf.json"]⟩ (some 1)
        defaultVendorMarkers (.error e) := by
  constructor
  · obtain ⟨_, _, _, hsame⟩ := load_partitions_candidates ⟨sampleTree sampleOthers, []⟩
      ⟨0, ["build"]⟩ "leaf.json" (some 3) defaultVendorMarkers sampleLeaf
      (decode_sampleTree sampleOthers) (by decide)
    have hfiles : ∀ file content,
        AdmittedFile (sampleTree sampleOthers) ⟨0, ["build"]⟩ sampleLeaf.metadata
            defaultVendorMarkers file content ↔
          AdmittedFile (sampleTree []) ⟨0, ["build"]⟩ sampleLeaf.metadata
            defaultVendorMarkers file content := by
      intro file content
      rw [← mem_admittedFiles_iff (locate_sampleTree _), admittedFiles_sampleTree,
        mem_admittedFiles_iff (locate_sampleTree _)]
    obtain ⟨build, build', hload, hload', _, hunits⟩ := hsame ⟨sampleTree [], []⟩
      ⟨0, ["build"]⟩ "leaf.json" none (by decide) intact_sampleTree.1 intact_sampleTree.2
      (read_sampleTree sampleOthers).symm hfiles
    exact ⟨build, build', hload, hload', hunits rfl⟩
  · obtain ⟨_, hfirst, _, _⟩ := load_partitions_candidates
      ⟨sampleTree [("bad.json", "")], []⟩ ⟨0, ["build"]⟩ "leaf.json" (some 1)
      defaultVendorMarkers sampleLeaf (decode_sampleTree _) (by decide)
    have hplace := locate_sampleTree [("bad.json", "")]
    have hbad : Dump.decode (sampleTree [("bad.json", "")]) ⟨0, ["build", "bad.json"]⟩ =
        .error (.invalidJson ⟨0, ["build", "bad.json"]⟩) := by
      decide +kernel
    refine hfirst (described_of_listing hplace (by decide +kernel))
      ⟨⟨0, ["build", "bad.json"]⟩, ?_, ?_⟩
    · exact (Dump.isCandidate_iff hplace).2 ⟨"bad.json", by decide +kernel, rfl⟩
    · intro d hd
      rw [hbad] at hd
      contradiction

/-! ## Long paths -/

/-- A directory with a leaf and a file that is no dump. -/
def detourTree : FileTree :=
  ⟨[], [(["d"], .directory), (["d", "leaf.json"], .file (Text.toBytes sampleText)),
    (["d", "notes-on-the-compilation.txt"], .file [])]⟩

/-- The directory, on a path that goes in and out of it `n` times. -/
def detour (n : Nat) : Path := ⟨0, (List.replicate n ["d", ".."]).flatten ++ ["d"]⟩

section Detour

variable (n : Nat) (name : String)

private theorem walk_detour (rest : List String) :
    detourTree.walk [] ((List.replicate n ["d", ".."]).flatten ++ rest) =
      detourTree.walk [] rest := by
  induction n with
  | zero => rfl
  | succ n ih =>
      rw [List.replicate_succ, List.flatten_cons, List.append_assoc, ← ih]
      rfl

private theorem holdsNul_detour_child :
    ((detour n).child name).holdsNul = name.toList.contains (Char.ofNat 0) := by
  have hd : ("d".toList.contains (Char.ofNat 0)) = false := by decide
  have hdots : ("..".toList.contains (Char.ofNat 0)) = false := by decide
  rw [Path.holdsNul, Path.child, detour]
  induction n with
  | zero => simp only [List.replicate_zero, List.flatten_nil, List.nil_append,
      List.cons_append, List.any_cons, List.any_nil, hd, Bool.false_or, Bool.or_false]
  | succ n ih =>
      rw [List.replicate_succ, List.flatten_cons, List.append_assoc, List.append_assoc,
        List.any_append, ih]
      simp only [List.any_cons, List.any_nil, hd, hdots, Bool.false_or]

private theorem utf8ByteSize_detour_child :
    ((detour n).child name).toString.utf8ByteSize = 5 * n + 2 + name.utf8ByteSize := by
  have hd : ("d" : String).utf8ByteSize = 1 := rfl
  have hdots : (".." : String).utf8ByteSize = 2 := rfl
  rw [Path.utf8ByteSize_toString (by simp [Path.child])]
  simp [Path.child, detour, List.map_flatten, List.sum_flatten, hd, hdots]
  omega

end Detour

private theorem locate_detour_leaf :
    detourTree.locate ((detour 815).child "leaf.json") = .ok ["d", "leaf.json"] := by
  refine FileTree.locate_eq_ok_iff.2 ⟨?_, ?_, ?_⟩
  · rw [holdsNul_detour_child]
    decide
  · rw [utf8ByteSize_detour_child]
    decide
  · show detourTree.walk [] (_ ++ ["d"] ++ ["leaf.json"]) = _
    rw [List.append_assoc, walk_detour]
    rfl

private theorem decode_detour_leaf :
    ∃ leaf, Dump.decode detourTree ((detour 815).child "leaf.json") = .ok leaf := by
  have hread : detourTree.read ((detour 815).child "leaf.json") =
      (sampleTree []).read ⟨0, ["build", "leaf.json"]⟩ := by
    rw [FileTree.read, FileTree.stat, locate_detour_leaf]
    rfl
  obtain ⟨content, hcontent, hbytes⟩ := Dump.decode_eq_ok_iff.1 (decode_sampleTree [])
  exact ⟨_, Dump.decode_eq_ok_iff.2
    ⟨content, hread.trans hcontent, Dump.ofBytes_relocate hbytes _⟩⟩

private theorem locate_detour : detourTree.locate (detour 815) = .ok ["d"] := by
  have hwalk : detourTree.walk [] (detour 815).parts = .ok ["d"] := by
    rw [detour, walk_detour]
    rfl
  obtain ⟨place, hplace, _⟩ := FileTree.locate_of_locate_child locate_detour_leaf
  have hsame : detourTree.walk [] (detour 815).parts = .ok place :=
    (FileTree.locate_eq_ok_iff.1 hplace).2.2
  rw [hplace, ← hsame, hwalk]

/-- A file that is no dump can keep a build from being loaded although the leaf and
every candidate decode: its path is too long for the system to describe it. -/
theorem load_refused_for_long_path :
    (∃ leaf, Dump.decode detourTree ((detour 815).child "leaf.json") = .ok leaf) ∧
      (∀ path, Dump.IsCandidate detourTree (detour 815) path →
        ∃ d, Dump.decode detourTree path = .ok d) ∧
      ∃ e, Loads ⟨detourTree, []⟩ ((detour 815).child "leaf.json") none [] (.error e) := by
  obtain ⟨leaf, hleaf⟩ := decode_detour_leaf
  refine ⟨⟨leaf, hleaf⟩, ?_, ?_⟩
  · rintro path ⟨place, name, content, hplace, hentry, rfl, hsuffix⟩
    obtain rfl : ["d"] = place := by simpa [locate_detour] using hplace
    have hnames : (detourTree.entriesIn ["d"]).map (·.1) =
        ["leaf.json", "notes-on-the-compilation.txt"] := by
      decide +kernel
    have hname : name ∈ (detourTree.entriesIn ["d"]).map (·.1) :=
      List.mem_map.2 ⟨_, FileTree.mem_entriesIn_iff.2 hentry, rfl⟩
    rw [Path.suffix, Path.name_child] at hsuffix
    simp only [hnames, List.mem_cons, List.not_mem_nil, or_false] at hname
    rcases hname with rfl | rfl
    · exact ⟨leaf, hleaf⟩
    · exact absurd hsuffix (by decide)
  · have hlong : FileTree.TooLong ((detour 815).child "notes-on-the-compilation.txt") := by
      refine ⟨?_, .inl ?_⟩
      · rw [holdsNul_detour_child]
        decide
      · rw [utf8ByteSize_detour_child]
        decide
    have hentry : detourTree.entry? ["d", "notes-on-the-compilation.txt"] =
        some (.file []) := by
      rfl
    have hrefused : ∃ refused, Dump.RefusedEntry detourTree (detour 815) refused ∧
        Loads ⟨detourTree, []⟩ ((detour 815).child "leaf.json") none []
          (.error (.refused ⟨.nameTooLong, refused⟩)) :=
      loads_of_refused (w := ⟨detourTree, []⟩) [] hleaf
        ⟨["d"], _, .file [], locate_detour, hentry, rfl, hlong⟩
    obtain ⟨refused, _, hload⟩ := hrefused
    exact ⟨_, hload⟩

end DeadSymbols.Build
