import Mathlib
import DeadSymbols.Build
import DeadSymbols.Proofs.Listing

/-!
# The candidates of a directory

The dumps that may belong to a build are looked for among the files next to the
leaf.  `Dump.IsCandidate` says which paths these are in terms of the file tree
alone.  The search gives each of them once, in the order of paths, unless the
system refuses to describe some entry of the directory, be it a candidate or not;
then the search fails with that refusal.

## Main results

* `Dump.candidatesIn_of_described` — what the search finds.
* `Dump.candidatesIn_of_refused` — when it is refused.
-/

namespace DeadSymbols.Dump

/-- The path is that of a file in the directory whose name ends as those of dumps
do. -/
def IsCandidate (files : FileTree) (directory path : Path) : Prop :=
  ∃ place name content, files.locate directory = .ok place ∧
    files.entry? (place ++ [name]) = some (.file content) ∧
    path = directory.child name ∧ path.suffix = ".json"

/-- Something stands in the directory under a path that the system refuses. -/
def RefusedEntry (files : FileTree) (directory path : Path) : Prop :=
  ∃ place name entry, files.locate directory = .ok place ∧
    files.entry? (place ++ [name]) = some entry ∧
    path = directory.child name ∧ FileTree.TooLong path

section Names

variable {files : FileTree} {directory : Path} {place : Location}

private theorem candidateName?_eq_some_iff {e : String × Entry} {name : String} :
    candidateName? directory e = some name ↔
      ∃ content, e = (name, .file content) ∧ (directory.child name).suffix = suffix := by
  obtain ⟨other, entry⟩ := e
  cases entry with
  | directory => simp [candidateName?]
  | file content =>
      simp only [candidateName?, Option.ite_none_right_eq_some, Option.some.injEq,
        Prod.mk.injEq, Entry.file.injEq]
      constructor
      · rintro ⟨hsuffix, rfl⟩
        exact ⟨content, ⟨rfl, rfl⟩, hsuffix⟩
      · rintro ⟨_, ⟨rfl, rfl⟩, hsuffix⟩
        exact ⟨hsuffix, rfl⟩

private theorem mem_filterMap_candidateName? {name : String} :
    name ∈ (files.entriesIn place).filterMap (candidateName? directory) ↔
      ∃ content, files.entry? (place ++ [name]) = some (.file content) ∧
        (directory.child name).suffix = suffix := by
  simp only [List.mem_filterMap, candidateName?_eq_some_iff]
  constructor
  · rintro ⟨_, hmem, content, rfl, hsuffix⟩
    exact ⟨content, FileTree.mem_entriesIn_iff.1 hmem, hsuffix⟩
  · rintro ⟨content, hfile, hsuffix⟩
    exact ⟨_, FileTree.mem_entriesIn_iff.2 hfile, content, rfl, hsuffix⟩

/-- The candidates are the paths of the names that the search picks. -/
theorem isCandidate_iff (hplace : files.locate directory = .ok place) {path : Path} :
    IsCandidate files directory path ↔
      ∃ name ∈ (files.entriesIn place).filterMap (candidateName? directory),
        directory.child name = path := by
  simp only [mem_filterMap_candidateName?]
  constructor
  · rintro ⟨other, name, content, hother, hfile, rfl, hsuffix⟩
    obtain rfl : place = other := by simpa [hplace] using hother
    exact ⟨name, ⟨content, hfile, hsuffix⟩, rfl⟩
  · rintro ⟨name, ⟨content, hfile, hsuffix⟩, rfl⟩
    exact ⟨place, name, content, hplace, hfile, rfl, hsuffix⟩

private theorem filterMap_candidateName?_sublist (entries : List (String × Entry)) :
    (entries.filterMap (candidateName? directory)).Sublist (entries.map (·.1)) := by
  induction entries with
  | nil => simp
  | cons e rest ih =>
      cases hname : candidateName? directory e with
      | none =>
          rw [List.filterMap_cons_none hname, List.map_cons]
          exact ih.cons e.1
      | some name =>
          obtain ⟨content, rfl, _⟩ := candidateName?_eq_some_iff.1 hname
          rw [List.filterMap_cons_some hname, List.map_cons]
          exact ih.cons_cons name

private theorem isLE_compare_iff (a b : String) :
    (compare a b).isLE = true ↔ a ≤ b := by
  rw [← compare_le_iff_le, Ordering.isLE_iff_ne_gt]

-- The names in a listing are distinct, so sorted means strictly sorted.
private theorem pairwise_candidateNames :
    (candidateNames directory (files.entriesIn place)).Pairwise (· < ·) := by
  have hsorted : (candidateNames directory (files.entriesIn place)).Pairwise
      fun a b => (compare a b).isLE := by
    refine List.pairwise_mergeSort ?_ ?_ _
    · intro a b c hab hbc
      rw [isLE_compare_iff] at hab hbc ⊢
      exact hab.trans hbc
    · intro a b
      rw [Bool.or_eq_true, isLE_compare_iff, isLE_compare_iff]
      exact le_total a b
  have hnodup : (candidateNames directory (files.entriesIn place)).Nodup := by
    rw [candidateNames, (List.mergeSort_perm _ _).nodup_iff]
    exact (files.nodup_entriesIn place).sublist (filterMap_candidateName?_sublist _)
  refine (hsorted.and hnodup).imp ?_
  rintro a b ⟨hle, hne⟩
  exact lt_of_le_of_ne ((isLE_compare_iff a b).1 hle) hne

end Names

section Search

variable {files : FileTree} {directory : Path} {place : Location}

private theorem filesIn_eq_ok (hplace : files.locate directory = .ok place)
    (hdir : files.entry? place = some .directory) :
    filesIn files directory =
      .ok ((candidateNames directory (files.entriesIn place)).map directory.child) := by
  rw [filesIn, FileTree.list_eq_ok hplace hdir]
  rfl

private theorem refusalIn?_eq_some {refusal : FileError}
    (hplace : files.locate directory = .ok place)
    (hdir : files.entry? place = some .directory)
    (h : refusalIn? files directory = some refusal) :
    ∃ path, RefusedEntry files directory path ∧ refusal = ⟨.nameTooLong, path⟩ := by
  simp only [refusalIn?, FileTree.list_eq_ok hplace hdir] at h
  obtain ⟨⟨name, entry⟩, hmem, hrefused⟩ := List.exists_of_findSome?_eq_some h
  have hentry := FileTree.mem_entriesIn_iff.1 hmem
  split at hrefused
  · next e he =>
      obtain ⟨hlong, rfl⟩ := (FileTree.has_child_eq_error_iff hplace hdir).1 he
      obtain rfl := Option.some.inj hrefused
      exact ⟨_, ⟨place, name, entry, hplace, hentry, rfl, hlong⟩, rfl⟩
  · contradiction

private theorem refusalIn?_ne_none {path : Path}
    (hplace : files.locate directory = .ok place)
    (hdir : files.entry? place = some .directory)
    (h : RefusedEntry files directory path) : refusalIn? files directory ≠ none := by
  obtain ⟨other, name, entry, hother, hentry, rfl, hlong⟩ := h
  obtain rfl : place = other := by simpa [hplace] using hother
  have hrefused := (FileTree.has_child_eq_error_iff hplace hdir).2 ⟨hlong, rfl⟩
  intro hnone
  simp only [refusalIn?, FileTree.list_eq_ok hplace hdir, List.findSome?_eq_none_iff]
    at hnone
  have hname := hnone (name, entry) (FileTree.mem_entriesIn_iff.2 hentry)
  simp [hrefused] at hname

end Search

/-- If every entry can be described, the search finds exactly the candidates, each
once and in the order of paths. -/
theorem candidatesIn_of_described {files : FileTree} {directory : Path}
    {place : Location} (hplace : files.locate directory = .ok place)
    (hdir : files.entry? place = some .directory)
    (h : ∀ path, ¬RefusedEntry files directory path) :
    ∃ paths, candidatesIn files directory = .ok paths ∧
      paths.Pairwise (fun p q => p.parts < q.parts) ∧
      ∀ path, path ∈ paths ↔ IsCandidate files directory path := by
  have hnone : refusalIn? files directory = none := by
    cases hrefusal : refusalIn? files directory with
    | none => rfl
    | some refusal =>
        obtain ⟨path, hpath, _⟩ := refusalIn?_eq_some hplace hdir hrefusal
        exact absurd hpath (h path)
  refine ⟨(candidateNames directory (files.entriesIn place)).map directory.child,
    ?_, ?_, ?_⟩
  · simp only [candidatesIn, filesIn_eq_ok hplace hdir, hnone]
  · rw [List.pairwise_map]
    refine pairwise_candidateNames.imp ?_
    intro a b hab
    exact (directory.child_parts_lt_iff a b).2 hab
  · intro path
    simp only [List.mem_map, isCandidate_iff hplace, candidateNames, List.mem_mergeSort]

/-- If some entry cannot be described, the search fails. -/
theorem candidatesIn_of_refused {files : FileTree} {directory path : Path}
    {place : Location} (hplace : files.locate directory = .ok place)
    (hdir : files.entry? place = some .directory)
    (h : RefusedEntry files directory path) :
    ∃ refused, RefusedEntry files directory refused ∧
      candidatesIn files directory = .error (.refused ⟨.nameTooLong, refused⟩) := by
  obtain ⟨refusal, hrefusal⟩ := Option.ne_none_iff_exists'.1
    (refusalIn?_ne_none hplace hdir h)
  obtain ⟨refused, hentry, rfl⟩ := refusalIn?_eq_some hplace hdir hrefusal
  refine ⟨refused, hentry, ?_⟩
  simp only [candidatesIn, filesIn_eq_ok hplace hdir, hrefusal]

end DeadSymbols.Dump
