import Mathlib
import DeadSymbols.Proofs.Candidates
import DeadSymbols.Proofs.Sessions

/-!
# Loading a build is a partition of its directory

The build of a leaf is made of the candidates next to it.  A candidate is stale if
its unit is foreign to the leaf, vendored if it was compiled where vendored sources
live, and admitted otherwise; `Build.partition` splits a list of candidates with
their dumps accordingly.  Loading gives the partition of all candidates in the order
of their paths, or the error of the first one that does not decode, and the number
of workers has no part in it.

## Main results

* `Build.loads_of_decoded`, `Build.loads_of_undecoded`, `Build.loads_of_refused` —
  what loading does, case by case.
* `Build.decoded_of_load` — what is known of a build that was loaded.
-/

namespace DeadSymbols

namespace Text

theorem isInfix_eq_true_iff {α : Type} [BEq α] [LawfulBEq α] (part whole : List α) :
    isInfix part whole = true ↔ part <:+: whole := by
  induction whole with
  | nil => simp [isInfix]
  | cons c rest ih =>
      rw [isInfix, Bool.or_eq_true, List.isPrefixOf_iff_prefix, ih, List.infix_cons_iff]

theorem occursIn_eq_true_iff (part whole : String) :
    occursIn part whole = true ↔ part.toList <:+: whole.toList :=
  isInfix_eq_true_iff part.toList whole.toList

end Text

namespace Dump

/-! ## Decoding a file -/

/-- What decoding the file at a path gives. -/
def decode (files : FileTree) (path : Path) : Except Error Dump :=
  match files.read path with
  | .error e => .error (Error.ofFileError (.unreadable path) e)
  | .ok content => ofBytes path content

theorem decode_eq_ok_iff {files : FileTree} {path : Path} {d : Dump} :
    decode files path = .ok d ↔
      ∃ content, files.read path = .ok content ∧ ofBytes path content = .ok d := by
  cases hread : files.read path with
  | error e => simp [decode, hread]
  | ok content => simp [decode, hread]

theorem run_readFrom (path : Path) (w : World) :
    (readFrom path).run.run w = (decode w.files path, w) := by
  rw [readFrom, decode]
  cases hread : w.files.read path with
  | error e =>
      have hrun : (Session.readFile path).run.run w =
          (.error (Error.ofFileError (.unreadable path) e), w) := by
        rw [Session.run_readFile, hread]
        rfl
      rw [Session.run_bind_error hrun]
  | ok content =>
      have hrun : (Session.readFile path).run.run w = (.ok content, w) := by
        rw [Session.run_readFile, hread]
        rfl
      rw [Session.run_bind_ok hrun, Session.run_ofExcept_id]

/-- A path that decodes leads into a directory. -/
theorem locate_of_decode_child {files : FileTree} {directory : Path} {name : String}
    {d : Dump} (h : decode files (directory.child name) = .ok d) :
    ∃ place, files.locate directory = .ok place ∧
      files.entry? place = some .directory := by
  cases hlocate : files.locate (directory.child name) with
  | ok place => exact FileTree.locate_of_locate_child hlocate
  | error fault => simp [decode, FileTree.read, FileTree.stat, hlocate] at h

/-- The dump as if it had been read from somewhere else. -/
def relocate (d : Dump) (source : String) : Dump := { d with source := source }

@[simp] theorem metadata_relocate (d : Dump) (source : String) :
    (d.relocate source).metadata = d.metadata := rfl

private theorem ofValue_eq_relocate (source other : String) (v : Value) :
    ofValue source v = (fun d => d.relocate source) <$> ofValue other v := by
  simp [ofValue, relocate]

/-- Where a file stands shows in its dump as the source only. -/
theorem ofBytes_relocate {path : Path} {content : Text.Bytes} {d : Dump}
    (h : ofBytes path content = .ok d) (other : Path) :
    ofBytes other content = .ok (d.relocate other.toString) := by
  rw [ofBytes] at h ⊢
  cases htext : Text.strictText content with
  | error e => simp [htext] at h
  | ok text =>
      cases hjson : Json.read text with
      | error e => cases e <;> simp [htext, hjson] at h
      | ok v =>
          cases hvalue : ofValue path.toString v with
          | error fault => simp [htext, hjson, hvalue] at h
          | ok found =>
              have hother : ofValue other.toString v =
                  .ok (found.relocate other.toString) := by
                rw [ofValue_eq_relocate other.toString path.toString, hvalue]
                rfl
              have hfound : found = d := by simpa [htext, hjson, hvalue] using h
              simp only [hjson, hother, hfound]

/-- A dump names the file that it was read from. -/
theorem source_of_ofBytes {path : Path} {content : Text.Bytes} {d : Dump}
    (h : ofBytes path content = .ok d) : d.source = path.toString := by
  have hself := ofBytes_relocate h path
  rw [h] at hself
  exact congrArg source (Except.ok.inj hself)

end Dump

namespace Build

/-! ## Verdicts -/

/-- The unit is neither the leaf's nor in the leaf's dependency table. -/
def Foreign (leaf m : Metadata) : Prop :=
  m.unit ≠ leaf.unit ∧ ∀ row ∈ leaf.table.externals, row.unit ≠ m.unit

/-- A marker that is not empty occurs in the compilation directory. -/
def Marked (markers : List String) (m : Metadata) : Prop :=
  ∃ marker ∈ markers, marker ≠ "" ∧ marker.toList <:+: m.directory.toList

/-- The unit takes part in the analysis. -/
def Admits (leaf : Metadata) (markers : List String) (m : Metadata) : Prop :=
  ¬Foreign leaf m ∧ ¬Marked markers m

instance (leaf m : Metadata) : Decidable (Foreign leaf m) :=
  inferInstanceAs (Decidable (_ ∧ _))

instance (markers : List String) (m : Metadata) : Decidable (Marked markers m) :=
  inferInstanceAs (Decidable (∃ marker ∈ markers, _ ∧ _))

instance (leaf : Metadata) (markers : List String) (m : Metadata) :
    Decidable (Admits leaf markers m) :=
  inferInstanceAs (Decidable (_ ∧ _))

private theorem contains_admissible_iff (leaf m : Metadata) :
    leaf.table.admissible.contains m.unit = true ↔ ¬Foreign leaf m := by
  simp only [DependencyTable.admissible, Foreign, Metadata.unit, List.contains_iff_mem,
    List.mem_cons, List.mem_map]
  constructor
  · rintro (hown | ⟨row, hrow, hunit⟩) ⟨hne, hrows⟩
    · exact hne hown
    · exact hrows row hrow hunit
  · intro h
    by_cases hown : m.table.own = leaf.table.own
    · exact .inl hown
    · right
      by_contra hno
      exact h ⟨hown, fun row hrow hunit => hno ⟨row, hrow, hunit⟩⟩

private theorem isVendored_iff (markers : List String) (m : Metadata) :
    isVendored markers m.directory = true ↔ Marked markers m := by
  simp [isVendored, Marked, Text.occursIn_eq_true_iff]

theorem verdict_eq (leaf : Metadata) (markers : List String) (m : Metadata) :
    Verdict.of leaf.table.admissible markers m.unit m.directory =
      if Foreign leaf m then .stale
      else if Marked markers m then .vendored
      else .admitted := by
  rw [Verdict.of]
  by_cases hforeign : Foreign leaf m
  · have hout : leaf.table.admissible.contains m.unit = false := by
      rw [Bool.eq_false_iff, ne_eq, contains_admissible_iff, not_not]
      exact hforeign
    rw [hout, if_pos hforeign]
    rfl
  · rw [(contains_admissible_iff leaf m).2 hforeign, if_neg hforeign]
    by_cases hmarked : Marked markers m
    · rw [(isVendored_iff markers m).2 hmarked, if_pos hmarked]
      rfl
    · have hplain : isVendored markers m.directory = false := by
        rw [Bool.eq_false_iff, ne_eq, isVendored_iff]
        exact hmarked
      rw [hplain, if_neg hmarked]
      rfl

/-- The build that a list of candidates with their dumps makes: every candidate goes
to one of three lists, and the lists keep its order. -/
def partition (leaf : Metadata) (markers : List String) (cs : List (Path × Dump)) :
    Build :=
  { leaf
    units := (cs.filter fun c => Admits leaf markers c.2.metadata).map (·.2)
    vendored := (cs.filter fun c =>
      ¬Foreign leaf c.2.metadata ∧ Marked markers c.2.metadata).map (·.1)
    stale := (cs.filter fun c => Foreign leaf c.2.metadata).map (·.1) }

/-- A candidate with its verdict. -/
def judged (leaf : Metadata) (markers : List String) (c : Path × Dump) : Candidate :=
  ⟨c.1, c.2, Verdict.of leaf.table.admissible markers c.2.unit c.2.metadata.directory⟩

private theorem judged_verdict_iff (leaf : Metadata) (markers : List String)
    (c : Path × Dump) :
    ((judged leaf markers c).verdict = .stale ↔ Foreign leaf c.2.metadata) ∧
      ((judged leaf markers c).verdict = .vendored ↔
        ¬Foreign leaf c.2.metadata ∧ Marked markers c.2.metadata) ∧
      ((judged leaf markers c).verdict = .admitted ↔
        Admits leaf markers c.2.metadata) := by
  have hverdict := verdict_eq leaf markers c.2.metadata
  change (judged leaf markers c).verdict = _ at hverdict
  rw [hverdict]
  by_cases hforeign : Foreign leaf c.2.metadata
  · simp [Admits, hforeign]
  · by_cases hmarked : Marked markers c.2.metadata
    · simp [Admits, hforeign, hmarked]
    · simp [Admits, hforeign, hmarked]

theorem ofCandidates_map_judged (leaf : Metadata) (markers : List String)
    (cs : List (Path × Dump)) :
    ofCandidates leaf (cs.map (judged leaf markers)) = partition leaf markers cs := by
  have hverdict := judged_verdict_iff leaf markers
  simp only [ofCandidates, partition, List.filter_map, List.map_map,
    Function.comp_def, (hverdict _).1, (hverdict _).2.1, (hverdict _).2.2]
  rfl

/-! ## Running -/

variable (leaf : Metadata) (markers : List String)

private theorem run_examine_ok {path : Path} {d : Dump} {w : World}
    (h : Dump.decode w.files path = .ok d) :
    (examine leaf.table.admissible markers path).run.run w =
      (.ok (judged leaf markers (path, d)),
        { w with log := w.log ++ [record (judged leaf markers (path, d))] }) := by
  have hread : (Dump.readFrom path).run.run w = (.ok d, w) := by
    rw [Dump.run_readFrom, h]
  rw [examine, Session.run_bind_ok hread, Session.run_bind_ok (Session.run_notes _ w)]
  rfl

private theorem run_examine_error {path : Path} {e : Error} {w : World}
    (h : Dump.decode w.files path = .error e) :
    (examine leaf.table.admissible markers path).run.run w = (.error e, w) := by
  have hread : (Dump.readFrom path).run.run w = (.error e, w) := by
    rw [Dump.run_readFrom, h]
  rw [examine, Session.run_bind_error hread]

/-- Candidates that decode are judged one after the other. -/
theorem run_mapM_examine {w : World} {cs : List (Path × Dump)}
    (h : ∀ c ∈ cs, Dump.decode w.files c.1 = .ok c.2) :
    ((cs.map (·.1)).mapM (examine leaf.table.admissible markers)).run.run w =
      (.ok (cs.map (judged leaf markers)),
        { w with log := w.log ++ cs.map fun c => record (judged leaf markers c) }) := by
  induction cs generalizing w with
  | nil =>
      rw [List.map_nil, List.mapM_nil, Session.run_pure, List.map_nil, List.map_nil,
        List.append_nil]
  | cons c rest ih =>
      -- Judging a candidate adds to the log and leaves the files alone, so the
      -- other candidates still decode.
      have hc := run_examine_ok leaf markers (h c List.mem_cons_self)
      have hrest := ih (w := { w with log := w.log ++ [record (judged leaf markers c)] })
        fun c' hc' => h c' (List.mem_cons_of_mem c hc')
      rw [List.map_cons, List.mapM_cons, Session.run_bind_ok hc,
        Session.run_bind_ok hrest, Session.run_pure]
      simp only [List.map_cons, List.append_assoc, List.singleton_append]

/-- The first candidate that does not decode ends the loading. -/
theorem run_mapM_examine_error {w : World} {cs : List (Path × Dump)} {path : Path}
    {e : Error} (h : ∀ c ∈ cs, Dump.decode w.files c.1 = .ok c.2)
    (he : Dump.decode w.files path = .error e) (rest : List Path) :
    ((cs.map (·.1) ++ path :: rest).mapM
        (examine leaf.table.admissible markers)).run.run w =
      (.error e,
        { w with log := w.log ++ cs.map fun c => record (judged leaf markers c) }) := by
  rw [List.mapM_append, Session.run_bind_ok (run_mapM_examine leaf markers h),
    List.mapM_cons]
  exact Session.run_bind_error
    (Session.run_bind_error (run_examine_error leaf markers he))

/-- The candidates of a directory with their dumps, in the order of paths. -/
structure Decoded (files : FileTree) (directory : Path) (cs : List (Path × Dump)) :
    Prop where
  sorted : cs.Pairwise fun a b => a.1.parts < b.1.parts
  mem_iff : ∀ path d, (path, d) ∈ cs ↔
    Dump.IsCandidate files directory path ∧ Dump.decode files path = .ok d

/-- The first candidate in the order of paths that does not decode. -/
structure FirstUndecoded (files : FileTree) (directory path : Path) (e : Error) :
    Prop where
  candidate : Dump.IsCandidate files directory path
  undecoded : Dump.decode files path = .error e
  first : ∀ other, Dump.IsCandidate files directory other →
    other.parts < path.parts → ∃ d, Dump.decode files other = .ok d

private theorem exists_dumps {files : FileTree} {paths : List Path}
    (h : ∀ path ∈ paths, ∃ d, Dump.decode files path = .ok d) :
    ∃ cs : List (Path × Dump), cs.map (·.1) = paths ∧
      ∀ c ∈ cs, Dump.decode files c.1 = .ok c.2 := by
  induction paths with
  | nil => exact ⟨[], rfl, by simp⟩
  | cons path rest ih =>
      obtain ⟨d, hd⟩ := h path List.mem_cons_self
      obtain ⟨cs, hpaths, hcs⟩ := ih fun p hp => h p (List.mem_cons_of_mem path hp)
      refine ⟨(path, d) :: cs, by rw [List.map_cons, hpaths], ?_⟩
      rintro c (_ | ⟨_, hc⟩)
      · exact hd
      · exact hcs c hc

private theorem exists_first_undecoded {files : FileTree} {paths : List Path}
    {path : Path} (hmem : path ∈ paths) (h : ∀ d, Dump.decode files path ≠ .ok d) :
    ∃ before first after e, paths = before ++ first :: after ∧
      (∀ other ∈ before, ∃ d, Dump.decode files other = .ok d) ∧
      Dump.decode files first = .error e := by
  induction paths with
  | nil => simp at hmem
  | cons head rest ih =>
      cases hhead : Dump.decode files head with
      | error e => exact ⟨[], head, rest, e, rfl, by simp, hhead⟩
      | ok d =>
          rcases List.mem_cons.1 hmem with rfl | hin
          · exact absurd hhead (h d)
          · obtain ⟨before, first, after, e, rfl, hbefore, he⟩ := ih hin
            refine ⟨head :: before, first, after, e, rfl, ?_, he⟩
            rintro other (_ | ⟨_, hother⟩)
            · exact ⟨d, hhead⟩
            · exact hbefore other hother

private theorem decoded_of_dumps {files : FileTree} {directory : Path}
    {cs : List (Path × Dump)} (hcs : ∀ c ∈ cs, Dump.decode files c.1 = .ok c.2)
    (hsorted : (cs.map (·.1)).Pairwise fun p q => p.parts < q.parts)
    (hmem : ∀ path, path ∈ cs.map (·.1) ↔ Dump.IsCandidate files directory path) :
    Decoded files directory cs := by
  rw [List.pairwise_map] at hsorted
  refine ⟨hsorted, ?_⟩
  intro path d
  constructor
  · intro h
    exact ⟨(hmem path).1 (List.mem_map.2 ⟨(path, d), h, rfl⟩), hcs _ h⟩
  · rintro ⟨hpath, hd⟩
    obtain ⟨⟨p, d'⟩, hc, rfl⟩ := List.mem_map.1 ((hmem path).2 hpath)
    have hd' : d' = d := Except.ok.inj ((hcs _ hc).symm.trans hd)
    rw [← hd']
    exact hc

/-- The outcome of loading the build of a leaf.  Loading reads files and writes
none; all it leaves behind are records in the log. -/
def Loads (w : World) (leafPath : Path) (workers : Option Int) (markers : List String)
    (outcome : Except Error Build) : Prop :=
  ∃ records, (load leafPath workers markers).run.run w =
    (outcome, { w with log := w.log ++ records })

section Outcomes

variable {w : World} {directory : Path} {name : String} {workers : Option Int}
  {leafDump : Dump}

-- Up to the search for candidates nothing depends on what is in the directory.
private theorem run_load (hleaf : Dump.decode w.files (directory.child name) = .ok leafDump) :
    (load (directory.child name) workers markers).run.run w =
      (do
        let paths ← Session.ofExcept id (Dump.candidatesIn w.files directory)
        if workers.any (· ≤ 0) then throw Error.noWorkers
        let candidates ← paths.mapM
          (examine leafDump.metadata.table.admissible markers)
        return ofCandidates leafDump.metadata candidates : Session Build).run.run w := by
  have hread : (Dump.readFrom (directory.child name)).run.run w = (.ok leafDump, w) := by
    rw [Dump.run_readFrom, hleaf]
  rw [load, Session.run_bind_ok hread, Path.parent_child,
    Session.run_bind_ok (Session.run_files w)]

private theorem any_nonpos_eq_false (hworkers : ∀ n ∈ workers, 1 ≤ n) :
    workers.any (· ≤ 0) = false := by
  cases workers with
  | none => rfl
  | some n =>
      have hn : 1 ≤ n := hworkers n rfl
      have hpos : ¬n ≤ 0 := by omega
      simp [hpos]

private theorem run_load_of_candidates
    (hleaf : Dump.decode w.files (directory.child name) = .ok leafDump)
    (hworkers : ∀ n ∈ workers, 1 ≤ n) {paths : List Path}
    (hpaths : Dump.candidatesIn w.files directory = .ok paths) :
    (load (directory.child name) workers markers).run.run w =
      (do
        let candidates ← paths.mapM
          (examine leafDump.metadata.table.admissible markers)
        return ofCandidates leafDump.metadata candidates : Session Build).run.run w := by
  have hsearch : (Session.ofExcept id (Dump.candidatesIn w.files directory)).run.run w =
      (.ok paths, w) := by
    rw [Session.run_ofExcept_id, hpaths]
  rw [run_load markers hleaf, Session.run_bind_ok hsearch,
    any_nonpos_eq_false hworkers]
  rfl

/-- If every candidate decodes, loading gives their partition. -/
theorem loads_of_decoded
    (hleaf : Dump.decode w.files (directory.child name) = .ok leafDump)
    (hworkers : ∀ n ∈ workers, 1 ≤ n)
    (hdescribed : ∀ path, ¬Dump.RefusedEntry w.files directory path)
    (hdecoded : ∀ path, Dump.IsCandidate w.files directory path →
      ∃ d, Dump.decode w.files path = .ok d) :
    ∃ cs, Decoded w.files directory cs ∧
      Loads w (directory.child name) workers markers
        (.ok (partition leafDump.metadata markers cs)) := by
  obtain ⟨place, hplace, hdir⟩ := Dump.locate_of_decode_child hleaf
  obtain ⟨paths, hpaths, hsorted, hmem⟩ :=
    Dump.candidatesIn_of_described hplace hdir hdescribed
  obtain ⟨cs, rfl, hcs⟩ := exists_dumps fun path hpath =>
    hdecoded path ((hmem path).1 hpath)
  refine ⟨cs, decoded_of_dumps hcs hsorted hmem,
    cs.map fun c => record (judged leafDump.metadata markers c), ?_⟩
  rw [run_load_of_candidates markers hleaf hworkers hpaths,
    Session.run_bind_ok (run_mapM_examine leafDump.metadata markers hcs),
    Session.run_pure, ofCandidates_map_judged]

/-- If some candidate does not decode, loading gives the error of the first one. -/
theorem loads_of_undecoded
    (hleaf : Dump.decode w.files (directory.child name) = .ok leafDump)
    (hworkers : ∀ n ∈ workers, 1 ≤ n)
    (hdescribed : ∀ path, ¬Dump.RefusedEntry w.files directory path) {path : Path}
    (hcandidate : Dump.IsCandidate w.files directory path)
    (hundecoded : ∀ d, Dump.decode w.files path ≠ .ok d) :
    ∃ first e, FirstUndecoded w.files directory first e ∧
      Loads w (directory.child name) workers markers (.error e) := by
  obtain ⟨place, hplace, hdir⟩ := Dump.locate_of_decode_child hleaf
  obtain ⟨paths, hpaths, hsorted, hmem⟩ :=
    Dump.candidatesIn_of_described hplace hdir hdescribed
  obtain ⟨before, first, after, e, rfl, hbefore, he⟩ :=
    exists_first_undecoded ((hmem path).2 hcandidate) hundecoded
  obtain ⟨_, hafter, _⟩ := List.pairwise_append.1 hsorted
  obtain ⟨cs, rfl, hcs⟩ := exists_dumps hbefore
  refine ⟨first, e, ⟨(hmem first).1 (by simp), he, ?_⟩,
    cs.map fun c => record (judged leafDump.metadata markers c), ?_⟩
  · intro other hother hlt
    rcases List.mem_append.1 ((hmem other).2 hother) with hin | hin
    · exact hbefore other hin
    · rcases List.mem_cons.1 hin with rfl | hin
      · exact absurd hlt (lt_irrefl _)
      · exact absurd ((List.pairwise_cons.1 hafter).1 other hin) (lt_asymm hlt)
  · rw [run_load_of_candidates markers hleaf hworkers hpaths]
    exact Session.run_bind_error
      (run_mapM_examine_error leafDump.metadata markers hcs he after)

/-- If the system refuses to describe some entry of the directory, loading gives that
refusal. -/
theorem loads_of_refused
    (hleaf : Dump.decode w.files (directory.child name) = .ok leafDump)
    {path : Path} (hrefused : Dump.RefusedEntry w.files directory path) :
    ∃ refused, Dump.RefusedEntry w.files directory refused ∧
      Loads w (directory.child name) workers markers
        (.error (.refused ⟨.nameTooLong, refused⟩)) := by
  obtain ⟨place, hplace, hdir⟩ := Dump.locate_of_decode_child hleaf
  obtain ⟨refused, hentry, hsearch⟩ :=
    Dump.candidatesIn_of_refused hplace hdir hrefused
  refine ⟨refused, hentry, [], ?_⟩
  have hrun : (Session.ofExcept id (Dump.candidatesIn w.files directory)).run.run w =
      (.error (.refused ⟨.nameTooLong, refused⟩), w) := by
    rw [Session.run_ofExcept_id, hsearch]
  rw [run_load markers hleaf, Session.run_bind_error hrun, List.append_nil]

private theorem run_load_of_no_workers
    (hleaf : Dump.decode w.files (directory.child name) = .ok leafDump)
    (hworkers : ¬∀ n ∈ workers, 1 ≤ n) :
    ∃ e w', (load (directory.child name) workers markers).run.run w = (.error e, w') := by
  have hany : workers.any (· ≤ 0) = true := by
    cases workers with
    | none => exact absurd (by simp) hworkers
    | some n =>
        have hn : n ≤ 0 := by
          by_contra hpos
          refine hworkers ?_
          rintro _ ⟨⟩
          omega
        simpa using hn
  rw [run_load markers hleaf]
  cases hsearch : Dump.candidatesIn w.files directory with
  | error e =>
      have hrun : (Session.ofExcept id (Dump.candidatesIn w.files directory)).run.run w =
          (.error e, w) := by
        rw [Session.run_ofExcept_id, hsearch]
      rw [hsearch] at hrun
      exact ⟨e, w, Session.run_bind_error hrun⟩
  | ok paths =>
      have hrun : (Session.ofExcept id (Except.ok paths : Except Error (List Path))).run.run w =
          (.ok paths, w) := Session.run_ofExcept_id _ w
      rw [Session.run_bind_ok hrun, hany]
      exact ⟨.noWorkers, w, rfl⟩

/-- A build that is loaded is the partition of candidates that all decode. -/
theorem decoded_of_load {build : Build} {w' : World}
    (h : (load (directory.child name) workers markers).run.run w = (.ok build, w')) :
    ∃ leaf cs, Dump.decode w.files (directory.child name) = .ok leaf ∧
      Decoded w.files directory cs ∧ build = partition leaf.metadata markers cs := by
  -- Every other case ends in an error.
  have hno : ∀ e w'', (load (directory.child name) workers markers).run.run w ≠
      (.error e, w'') := by
    intro e w'' he
    rw [h] at he
    cases he
  cases hleaf : Dump.decode w.files (directory.child name) with
  | error e =>
      have hread : (Dump.readFrom (directory.child name)).run.run w = (.error e, w) := by
        rw [Dump.run_readFrom, hleaf]
      exact absurd (by rw [load]; exact Session.run_bind_error hread) (hno e w)
  | ok leaf =>
      have hworkers : ∀ n ∈ workers, 1 ≤ n := by
        by_contra hworkers
        obtain ⟨e, w'', he⟩ := run_load_of_no_workers markers hleaf hworkers
        exact hno e w'' he
      have hdescribed : ∀ path, ¬Dump.RefusedEntry w.files directory path := by
        intro path hrefused
        obtain ⟨_, _, records, he⟩ := loads_of_refused markers hleaf hrefused
        exact hno _ _ he
      have hdecoded : ∀ path, Dump.IsCandidate w.files directory path →
          ∃ d, Dump.decode w.files path = .ok d := by
        intro path hcandidate
        by_contra hundecoded
        push Not at hundecoded
        obtain ⟨_, _, _, records, he⟩ :=
          loads_of_undecoded markers hleaf hworkers hdescribed hcandidate hundecoded
        exact hno _ _ he
      obtain ⟨cs, hcs, records, hload⟩ :=
        loads_of_decoded markers hleaf hworkers hdescribed hdecoded
      refine ⟨leaf, cs, rfl, hcs, ?_⟩
      rw [hload] at h
      exact (Except.ok.inj (Prod.mk.inj h).1).symm

end Outcomes

end Build

end DeadSymbols
