import Mathlib
import DeadSymbols.File.Tree

/-!
# What a directory lists

A path is walked name by name, and every place on the way has to be a directory.
So the place that holds a file is a directory that can be listed by the path of
the file without its last name, and the entries of a listing are the entries that
stand directly below that place, each under its own name and once.

The system refuses paths that are too long.  The path of a directory may be short
enough where the path of one of its entries is not; `FileTree.has_child_eq_error_iff`
says exactly for which entries that happens.

## Main results

* `FileTree.locate_of_locate_child` — what a path leads to lies in a directory that
  the path without its last part leads to.
* `FileTree.list_eq_ok`, `FileTree.mem_entriesIn_iff`, `FileTree.nodup_entriesIn` —
  what a listing holds.
* `FileTree.has_child_eq_error_iff` — which entries the system refuses to describe.
-/

namespace DeadSymbols

theorem Text.mem_of_mem_splitAt {separator c : Char} {cs part : List Char}
    (hpart : part ∈ splitAt separator cs) (hc : c ∈ part) : c ∈ cs := by
  induction cs generalizing part with
  | nil =>
      rw [splitAt, List.mem_singleton] at hpart
      exact hpart ▸ hc
  | cons d rest ih =>
      rw [splitAt] at hpart
      split at hpart
      · rcases List.mem_cons.1 hpart with rfl | htail
        · contradiction
        · exact List.mem_cons_of_mem d (ih htail hc)
      · cases hsplit : splitAt separator rest with
        | nil =>
            rw [hsplit, List.mem_singleton] at hpart
            exact List.mem_cons.2 (.inl (List.mem_singleton.1 (hpart ▸ hc)))
        | cons first parts =>
            rw [hsplit] at hpart ih
            rcases List.mem_cons.1 hpart with rfl | htail
            · rcases List.mem_cons.1 hc with rfl | hfirst
              · exact List.mem_cons_self
              · exact List.mem_cons_of_mem d (ih List.mem_cons_self hfirst)
            · exact List.mem_cons_of_mem d (ih (List.mem_cons_of_mem first htail) hc)

namespace Path

@[simp] theorem parent_child (p : Path) (name : String) :
    (p.child name).parent = p := by
  simp [parent, child]

@[simp] theorem name_child (p : Path) (name : String) :
    (p.child name).name = name := by
  simp [Path.name, child]

/-- A path with parts is that of its last part in the path of the others. -/
theorem child_name_parent {p : Path} (h : p.parts ≠ []) : p.parent.child p.name = p := by
  obtain ⟨slashes, parts⟩ := p
  have hlast : parts.getLast?.getD "" = parts.getLast h := by
    rw [List.getLast?_eq_some_getLast h, Option.getD_some]
  rw [Path.name, hlast, parent, child, List.dropLast_append_getLast h]

private theorem exists_intercalate_concat (parts : List String) :
    ∃ front, ∀ name, String.intercalate "/" (parts ++ [name]) = front ++ name := by
  induction parts with
  | nil => exact ⟨"", fun name => by simp⟩
  | cons part rest ih =>
      obtain ⟨front, hfront⟩ := ih
      refine ⟨part ++ "/" ++ front, ?_⟩
      intro name
      obtain ⟨next, others, heq⟩ := List.exists_cons_of_ne_nil
        (List.append_ne_nil_of_right_ne_nil rest (List.cons_ne_nil name []))
      rw [List.cons_append, heq, String.intercalate_cons_cons, ← heq, hfront]
      simp only [String.append_assoc]

/-- In one directory different names have different paths, also when written. -/
theorem toString_child_injective (p : Path) :
    Function.Injective fun name => (p.child name).toString := by
  obtain ⟨front, hfront⟩ := exists_intercalate_concat p.parts
  have hwritten : ∀ name, (p.child name).toString =
      String.ofList (List.replicate p.slashes '/') ++ (front ++ name) := by
    intro name
    have hsome : ¬((p.child name).slashes = 0 ∧ (p.child name).parts.isEmpty = true) := by
      simp [child]
    rw [toString, if_neg hsome, child, hfront]
  intro a b h
  simp only [hwritten] at h
  have hlists := congrArg String.toList h
  simp only [String.toList_append, List.append_cancel_left_eq] at hlists
  exact String.toList_inj.mp hlists

/-- A name ends in a dot and a text without dots exactly if something stands before
them. -/
theorem suffixOf_eq_iff {cs ending : List Char} (hsome : ending ≠ [])
    (hdot : '.' ∉ ending) :
    suffixOf cs = '.' :: ending ↔ ∃ stem, stem ≠ [] ∧ cs = stem ++ '.' :: ending := by
  constructor
  · intro h
    have hsplit := List.takeWhile_append_dropWhile (p := (· != '.')) (l := cs.reverse)
    rw [suffixOf] at h
    split at h
    · cases h
    · next hlong =>
        have hending := List.reverse_eq_iff.mp (List.cons.inj h).2
        rw [hending] at hsplit
        rw [(List.cons.inj h).2] at hlong
        have hlength : ending.length + (cs.reverse.dropWhile (· != '.')).length =
            cs.length := by
          rw [← cs.length_reverse, ← congrArg List.length hsplit, List.length_append,
            List.length_reverse]
        cases hrest : cs.reverse.dropWhile (· != '.') with
        | nil =>
            rw [hrest, List.length_nil] at hlength
            exact absurd (Or.inr (by omega)) hlong
        | cons c rest =>
            have hc : c = '.' := by
              have hhead := List.head?_dropWhile_not (· != '.') cs.reverse
              rw [hrest] at hhead
              simpa using hhead
            rw [hrest] at hsplit hlength
            refine ⟨rest.reverse, ?_, ?_⟩
            · intro hnil
              rw [List.reverse_eq_nil_iff.mp hnil] at hlength
              simp only [List.length_cons, List.length_nil] at hlength
              exact absurd (Or.inr (by omega)) hlong
            · rw [← cs.reverse_reverse, ← hsplit, hc]
              simp
  · rintro ⟨stem, hstem, rfl⟩
    have htake : (stem ++ '.' :: ending).reverse.takeWhile (· != '.') = ending.reverse := by
      rw [List.reverse_append, List.reverse_cons, List.append_assoc,
        List.takeWhile_append_of_pos ?_, List.singleton_append,
        List.takeWhile_cons_of_neg (by simp), List.append_nil]
      intro c hc
      have hne : c ≠ '.' := fun h => hdot (h ▸ List.mem_reverse.mp hc)
      simpa using hne
    have hpos := List.length_pos_of_ne_nil hstem
    rw [suffixOf, htake, List.reverse_reverse, if_neg]
    rw [List.isEmpty_iff, List.length_append, List.length_cons]
    rintro (hempty | hshort)
    · exact hsome hempty
    · omega

/-- In one directory the order of paths is the order of names. -/
theorem child_parts_lt_iff (p : Path) (a b : String) :
    (p.child a).parts < (p.child b).parts ↔ a < b := by
  have hmono : ∀ {x y : String}, x < y → (p.child x).parts < (p.child y).parts :=
    fun h => List.append_left_lt (List.cons_lt_cons_iff.2 (.inl h))
  constructor
  · intro h
    rcases lt_trichotomy a b with hlt | heq | hgt
    · exact hlt
    · rw [heq] at h
      exact absurd h (lt_irrefl _)
    · exact absurd (hmono hgt) (lt_asymm h)
  · exact hmono

private theorem utf8ByteSize_intercalate (parts : List String) :
    (String.intercalate "/" parts).utf8ByteSize =
      (parts.map String.utf8ByteSize).sum + (parts.length - 1) := by
  induction parts with
  | nil => rfl
  | cons part rest ih =>
      cases rest with
      | nil => simp
      | cons next rest =>
          have hslash : ("/" : String).utf8ByteSize = 1 := rfl
          rw [String.intercalate_cons_cons, String.utf8ByteSize_append,
            String.utf8ByteSize_append, ih, hslash]
          simp only [List.map_cons, List.sum_cons, List.length_cons]
          omega

private theorem utf8Len_replicate_slash (n : Nat) :
    String.utf8Len (List.replicate n '/') = n := by
  induction n with
  | zero => rfl
  | succ n ih =>
      have hslash : Char.utf8Size '/' = 1 := rfl
      rw [List.replicate_succ, String.utf8Len_cons, ih, hslash]

/-- The written form has its slashes at the front, its parts, and one slash
between any two of them. -/
theorem utf8ByteSize_toString {p : Path} (h : p.parts ≠ []) :
    p.toString.utf8ByteSize =
      p.slashes + (p.parts.map String.utf8ByteSize).sum + (p.parts.length - 1) := by
  have hsome : ¬(p.slashes = 0 ∧ p.parts.isEmpty = true) := by simp [h]
  rw [toString, if_neg hsome, String.utf8ByteSize_append, String.utf8ByteSize_ofList,
    utf8Len_replicate_slash, utf8ByteSize_intercalate, Nat.add_assoc]

/-- Going up does not make a path longer, the path `.` apart. -/
theorem utf8ByteSize_toString_parent_le (p : Path) :
    p.parent.toString.utf8ByteSize ≤ max 1 p.toString.utf8ByteSize := by
  by_cases hparts : p.parts = []
  · have hself : p.parent = p := by
      obtain ⟨slashes, parts⟩ := p
      simp_all [parent]
    rw [hself]
    exact Nat.le_max_right _ _
  by_cases habove : p.parent.parts = []
  · have hsize := utf8ByteSize_toString hparts
    rw [toString, habove]
    split
    · exact Nat.le_max_left _ _
    · have hslashes : p.parent.slashes = p.slashes := rfl
      rw [String.utf8ByteSize_append, String.utf8ByteSize_ofList,
        utf8Len_replicate_slash, hslashes]
      have hnone : (String.intercalate "/" []).utf8ByteSize = 0 := rfl
      omega
  · have hsplit : p.parts = p.parent.parts ++ [p.parts.getLast hparts] :=
      (List.dropLast_append_getLast hparts).symm
    have hsize := utf8ByteSize_toString hparts
    rw [hsplit] at hsize
    have hslashes : p.parent.slashes = p.slashes := rfl
    simp only [List.map_append, List.sum_append, List.length_append] at hsize
    rw [utf8ByteSize_toString habove]
    omega

/-- What a text without the refused character spells, seen from a path without it, is
without it too. -/
theorem holdsNul_join_ofString {root : Path} {file : String}
    (hroot : root.holdsNul = false) (hfile : Char.ofNat 0 ∉ file.toList) :
    (root.join (ofString file)).holdsNul = false := by
  have hown : (ofString file).holdsNul = false := by
    rw [holdsNul, List.any_eq_false]
    intro part hpart hnul
    obtain ⟨cs, hcs, rfl⟩ := List.mem_map.1 (List.mem_filter.1 hpart).1
    rw [String.toList_ofList, List.contains_iff_mem] at hnul
    exact hfile (Text.mem_of_mem_splitAt hcs hnul)
  rw [join]
  split
  · exact hown
  · rw [holdsNul, List.any_append, Bool.or_eq_false_iff]
    exact ⟨hroot, hown⟩

end Path

namespace FileTree

/-! ## Walking -/

/-- A walk can be interrupted anywhere. -/
theorem walk_append (t : FileTree) (start : Location) (xs ys : List String) :
    t.walk start (xs ++ ys) = (t.walk start xs).bind fun place => t.walk place ys := by
  induction xs generalizing start with
  | nil => rfl
  | cons name rest ih =>
      rw [List.cons_append, walk, walk]
      cases t.entry? start with
      | none => rfl
      | some entry =>
          cases entry with
          | file content => rfl
          | directory =>
              show (if _ then _ else if _ then _ else _) =
                Except.bind (if _ then _ else if _ then _ else _) _
              rw [ih, ih]
              split
              · rfl
              · split <;> rfl

/-- Where the walk along a path starts. -/
def origin (t : FileTree) (p : Path) : Location :=
  if p.isAbsolute then [] else t.cwd

theorem locate_eq_ok_iff {t : FileTree} {p : Path} {place : Location} :
    t.locate p = .ok place ↔
      p.holdsNul = false ∧ p.toString.utf8ByteSize < maxPath ∧
        t.walk (t.origin p) p.parts = .ok place := by
  rw [locate]
  by_cases hnul : p.holdsNul = true
  · simp [hnul]
  by_cases hlong : maxPath ≤ p.toString.utf8ByteSize
  · simp [hnul, hlong]
  · have hshort : p.toString.utf8ByteSize < maxPath := by omega
    simp [hnul, hlong, hshort, origin]

private theorem holdsNul_child (p : Path) (name : String) :
    (p.child name).holdsNul = (p.holdsNul || name.toList.contains (Char.ofNat 0)) := by
  simp [Path.holdsNul, Path.child]

private theorem walk_child {t : FileTree} {p : Path} {name : String} :
    t.walk (t.origin (p.child name)) (p.child name).parts =
      (t.walk (t.origin p) p.parts).bind fun place => t.walk place [name] :=
  walk_append t (t.origin p) p.parts [name]

/-- What a path leads to lies in a directory that the path without its last part
leads to. -/
theorem locate_of_locate_child {t : FileTree} {p : Path} {name : String}
    {place : Location} (h : t.locate (p.child name) = .ok place) :
    ∃ above, t.locate p = .ok above ∧ t.entry? above = some .directory := by
  obtain ⟨hnul, hsize, hwalk⟩ := locate_eq_ok_iff.1 h
  have hp : p.holdsNul = false := by
    rw [holdsNul_child, Bool.or_eq_false_iff] at hnul
    exact hnul.1
  have hshort : p.toString.utf8ByteSize < maxPath := by
    have hle := Path.utf8ByteSize_toString_parent_le (p.child name)
    rw [Path.parent_child] at hle
    have hone : 1 < maxPath := by decide
    omega
  rw [walk_child] at hwalk
  cases habove : t.walk (t.origin p) p.parts with
  | error fault => simp [habove, Except.bind] at hwalk
  | ok above =>
      refine ⟨above, locate_eq_ok_iff.2 ⟨hp, hshort, habove⟩, ?_⟩
      rw [habove] at hwalk
      simp only [Except.bind, walk] at hwalk
      split at hwalk <;> simp_all

/-! ## Listing -/

theorem list_eq_ok {t : FileTree} {p : Path} {place : Location}
    (hplace : t.locate p = .ok place) (hdir : t.entry? place = some .directory) :
    t.list p = .ok (t.entriesIn place) := by
  simp only [list, hplace, hdir]

private theorem nameIn?_eq_some_iff {directory place : Location} {name : String} :
    nameIn? directory place = some name ↔ place = directory ++ [name] := by
  rcases List.eq_nil_or_concat place with rfl | ⟨above, last, rfl⟩
  · simp [nameIn?]
  · simp only [nameIn?, List.concat_eq_append, List.getLast?_append, List.dropLast_concat]
    by_cases h : above = directory
    · simp [h]
    · simp [h]

private theorem mem_namesIn_iff {t : FileTree} {place : Location} {name : String} :
    name ∈ t.namesIn place ↔ ∃ entry, t.entry? (place ++ [name]) = some entry := by
  have hentry : t.entry? (place ++ [name]) = t.entries.lookup (place ++ [name]) := by
    unfold entry?
    simp
  rw [hentry, ← Option.isSome_iff_exists, List.lookup_isSome_iff, namesIn,
    List.mem_eraseDups, List.mem_filterMap]
  simp only [nameIn?_eq_some_iff, beq_iff_eq]
  constructor
  · rintro ⟨e, he, hplace⟩
    exact ⟨e, he, hplace.symm⟩
  · rintro ⟨e, he, hplace⟩
    exact ⟨e, he, hplace.symm⟩

/-- A listing holds exactly what stands directly below the place. -/
@[simp] theorem mem_entriesIn_iff {t : FileTree} {place : Location} {name : String}
    {entry : Entry} :
    (name, entry) ∈ t.entriesIn place ↔ t.entry? (place ++ [name]) = some entry := by
  simp only [entriesIn, List.mem_filterMap, Option.map_eq_some_iff, Prod.mk.injEq]
  constructor
  · rintro ⟨_, _, _, h, rfl, rfl⟩
    exact h
  · intro h
    exact ⟨name, mem_namesIn_iff.2 ⟨entry, h⟩, entry, h, rfl, rfl⟩

private theorem nodup_eraseDups {α : Type} [DecidableEq α] (xs : List α) :
    xs.eraseDups.Nodup := by
  induction hn : xs.length using Nat.strong_induction_on generalizing xs with
  | _ n ih =>
      cases xs with
      | nil => simp
      | cons x rest =>
          have hshort : (rest.filter fun y => !(y == x)).length < n := by
            have := List.length_filter_le (fun y => !(y == x)) rest
            rw [← hn, List.length_cons]
            omega
          rw [List.eraseDups_cons, List.nodup_cons]
          exact ⟨by simp [List.mem_eraseDups], ih _ hshort _ rfl⟩

/-- No name is listed twice. -/
theorem nodup_entriesIn (t : FileTree) (place : Location) :
    ((t.entriesIn place).map (·.1)).Nodup := by
  have hnames : (t.entriesIn place).map (·.1) =
      (t.namesIn place).filterMap fun name =>
        (t.entry? (place ++ [name])).map fun _ => name := by
    simp only [entriesIn, List.map_filterMap, Option.map_map, Function.comp_def]
  rw [hnames]
  refine List.Nodup.filterMap ?_ (nodup_eraseDups _)
  intro a b c ha hb
  simp only [Option.mem_def, Option.map_eq_some_iff] at ha hb
  obtain ⟨_, _, rfl⟩ := ha
  obtain ⟨_, _, rfl⟩ := hb
  rfl

/-! ## Refusals -/

/-- The system refuses the path, because it or its last name is too long. -/
def TooLong (p : Path) : Prop :=
  p.holdsNul = false ∧
    (maxPath ≤ p.toString.utf8ByteSize ∨ maxName < p.name.utf8ByteSize)

instance (p : Path) : Decidable (TooLong p) :=
  inferInstanceAs (Decidable (_ ∧ _))

private theorem walk_singleton {t : FileTree} {place : Location} (name : String)
    (hdir : t.entry? place = some .directory) :
    t.walk place [name] =
      if maxName < name.utf8ByteSize then .error .nameTooLong
      else .ok (if name = ".." then place.dropLast else place ++ [name]) := by
  simp only [walk, hdir]
  split
  · rfl
  · split <;> rfl

private theorem has_ne_error {t : FileTree} {p : Path} {place : Location}
    (h : t.locate p = .ok place) (e : FileError) : t.has p ≠ .error e := by
  cases hentry : t.entry? place with
  | none => simp [has, holds, stat, h, hentry]
  | some entry => simp [has, holds, stat, h, hentry]

/-- A file that is read by its path stands under its name in the directory of the
path. -/
theorem entry?_of_read_child {t : FileTree} {p : Path} {name : String}
    {content : Text.Bytes} (h : t.read (p.child name) = .ok content) (hname : name ≠ "..") :
    ∃ place, t.locate p = .ok place ∧
      t.entry? (place ++ [name]) = some (.file content) := by
  cases hlocate : t.locate (p.child name) with
  | error fault => simp [read, stat, hlocate] at h
  | ok place =>
      obtain ⟨above, habove, hdir⟩ := locate_of_locate_child hlocate
      have hwalk := (locate_eq_ok_iff.1 hlocate).2.2
      rw [walk_child, (locate_eq_ok_iff.1 habove).2.2] at hwalk
      change t.walk above [name] = .ok place at hwalk
      rw [walk_singleton name hdir, if_neg hname] at hwalk
      split at hwalk
      · cases hwalk
      · obtain rfl := Except.ok.inj hwalk
        refine ⟨above, habove, ?_⟩
        cases hentry : t.entry? (above ++ [name]) with
        | none => simp [read, stat, hlocate, hentry] at h
        | some entry =>
            cases entry with
            | directory => simp [read, stat, hlocate, hentry] at h
            | file found =>
                simp only [read, stat, hlocate, hentry, Except.ok.injEq] at h
                rw [h]

/-- Of the entries of a directory the system refuses to describe those whose paths
are too long. -/
theorem has_child_eq_error_iff {t : FileTree} {p : Path} {place : Location}
    {name : String} {e : FileError} (hplace : t.locate p = .ok place)
    (hdir : t.entry? place = some .directory) :
    t.has (p.child name) = .error e ↔
      TooLong (p.child name) ∧ e = ⟨.nameTooLong, p.child name⟩ := by
  have hwalk : t.walk (t.origin (p.child name)) (p.child name).parts =
      t.walk place [name] := by
    rw [walk_child, (locate_eq_ok_iff.1 hplace).2.2]
    rfl
  rw [walk_singleton name hdir] at hwalk
  by_cases hnul : (p.child name).holdsNul = true
  · have hlocate : t.locate (p.child name) = .error .nul := by rw [locate, if_pos hnul]
    simp [has, holds, stat, hlocate, TooLong, hnul]
  by_cases hlong : maxPath ≤ (p.child name).toString.utf8ByteSize
  · have hlocate : t.locate (p.child name) = .error .nameTooLong := by
      rw [locate, if_neg hnul, if_pos hlong]
    simp [has, holds, stat, hlocate, TooLong, hnul, hlong, eq_comm]
  by_cases hname : maxName < name.utf8ByteSize
  · have hlocate : t.locate (p.child name) = .error .nameTooLong := by
      rw [locate, if_neg hnul, if_neg hlong]
      rw [if_pos hname] at hwalk
      exact hwalk
    simp [has, holds, stat, hlocate, TooLong, hnul, hname, eq_comm]
  · rw [if_neg hname] at hwalk
    have hlocate := locate_eq_ok_iff.2 ⟨by simpa using hnul, by omega, hwalk⟩
    have hfits : ¬TooLong (p.child name) := by
      simp only [TooLong, Path.name_child, not_and, not_or]
      exact fun _ => ⟨hlong, hname⟩
    simp [has_ne_error hlocate, hfits]

private theorem walk_ne_nul (t : FileTree) (start : Location) (names : List String) :
    t.walk start names ≠ .error .nul := by
  induction names generalizing start with
  | nil => simp [walk]
  | cons name rest ih =>
      rw [walk]
      cases t.entry? start with
      | none => simp
      | some entry =>
          cases entry with
          | file content => simp
          | directory =>
              dsimp only
              split
              · simp
              · split
                · exact ih _
                · exact ih _

private theorem isSystem_of_stat_eq_error {t : FileTree} {p : Path} {e : FileError}
    (hnul : p.holdsNul = false) (h : t.stat p = .error e) : e.isSystem = true := by
  have hlocate : t.locate p ≠ .error .nul := by
    rw [locate, hnul, if_neg Bool.false_ne_true]
    split
    · simp
    · exact walk_ne_nul t _ _
  rw [stat] at h
  cases hplace : t.locate p with
  | error fault =>
      rw [hplace] at h hlocate
      obtain rfl := Except.error.inj h
      cases fault <;> simp_all [FileError.isSystem]
  | ok place =>
      rw [hplace] at h
      dsimp only at h
      split at h
      · obtain rfl := Except.error.inj h
        rfl
      · contradiction

/-- A path that cannot be handed to the system is not read. -/
theorem read_of_holdsNul {t : FileTree} {p : Path} (h : p.holdsNul = true) :
    t.read p = .error ⟨.nul, p⟩ := by
  rw [read, stat, locate, if_pos h]

/-- What is read was handed to the system. -/
theorem holdsNul_of_read_eq_ok {t : FileTree} {p : Path} {content : Text.Bytes}
    (h : t.read p = .ok content) : p.holdsNul = false := by
  rw [← Bool.not_eq_true]
  intro hnul
  rw [read_of_holdsNul hnul] at h
  contradiction

/-- Reading fails because the system refuses exactly if the path can be handed to it. -/
theorem isSystem_of_read_eq_error {t : FileTree} {p : Path} {e : FileError}
    (h : t.read p = .error e) : e.isSystem = !p.holdsNul := by
  cases hnul : p.holdsNul with
  | true =>
      rw [read_of_holdsNul hnul] at h
      obtain rfl := Except.error.inj h
      rfl
  | false =>
      rw [read] at h
      split at h
      · next hstat =>
          obtain rfl := Except.error.inj h
          exact isSystem_of_stat_eq_error hnul hstat
      · obtain rfl := Except.error.inj h
        rfl
      · contradiction

end FileTree

end DeadSymbols
