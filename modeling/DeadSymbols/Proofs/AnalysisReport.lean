import Mathlib
import DeadSymbols.Analysis
import DeadSymbols.Proofs.Loading
import DeadSymbols.Proofs.ReportOrder
import DeadSymbols.Proofs.Schedule
import DeadSymbols.Proofs.Utf8

/-!
# What an analysis reports

An analysis that succeeds reports on a build, on an index, or on the index that the
indexer makes of a project.  `IsReport` says which report that is, without workers and
without a log: the detector's report on the graph of the units that load, with macro
input looked up in the files as they are, or the report of the index that stands in the
file.  The sessions that compute it give this report or fail
(`isReport_or_isUnknown_of_run`), and as long as there is a worker it makes no difference
how many there are (`ofPath_workers`).

## Main results

* `findings_of_run` — the detector's report, through the cache and without.
* `isReport_or_isUnknown_of_run` — what an analysis gives.
* `IsReport.sorted` — every report is sorted.
* `ofPath_workers` — the number of workers.
-/

namespace DeadSymbols

namespace Build

theorem onlyLogs_readFrom (path : Path) : Session.OnlyLogs (Dump.readFrom path) :=
  (Session.OnlyLogs.readFile path).bind fun _ => .ofExcept _ _

theorem onlyLogs_examine (allowed : List UnitId) (markers : List String) (path : Path) :
    Session.OnlyLogs (examine allowed markers path) :=
  (onlyLogs_readFrom path).bind fun _ => (Session.OnlyLogs.notes _).bind fun _ => .pure _

/-- Loading a build leaves the files alone. -/
theorem onlyLogs_load (leafPath : Path) (workers : Option Int) (markers : List String) :
    Session.OnlyLogs (load leafPath workers markers) := by
  refine (onlyLogs_readFrom leafPath).bind fun leaf => ?_
  refine Session.OnlyLogs.files.bind fun files => ?_
  refine (Session.OnlyLogs.ofExcept _ _).bind fun paths => ?_
  have hrest : Session.OnlyLogs (do
      let candidates ← paths.mapM (examine leaf.metadata.table.admissible markers)
      return ofCandidates leaf.metadata candidates) :=
    (Session.OnlyLogs.mapM (onlyLogs_examine _ markers) paths).bind fun _ => .pure _
  split
  · exact (Session.OnlyLogs.throw _).bind fun _ => hrest
  · exact hrest

/-- Among numbers of workers it matters only whether there is one. -/
theorem load_workers (leafPath : Path) {n : Int} (hn : 1 ≤ n) (markers : List String) :
    load leafPath (some n) markers = load leafPath none markers := by
  have hpos : ¬n ≤ 0 := by omega
  simp only [load, Option.any_some, hpos, decide_false, Option.any_none]

end Build

namespace Analysis

/-- Where the sources behind a dump are looked for. -/
def rootOf (settings : Settings) (cwd : Location) (dump : Path) : Except FileError Path :=
  match settings.sourceRoot with
  | some text => .ok (Path.ofString text)
  | none => sourceRoot cwd dump

/-- How macro input is looked up: in the files, or not at all. -/
inductive Lookups (parse : Source.Parser) (settings : Settings) (files : FileTree)
    (dump : Path) : Option (UnitId → Span → Bool) → Prop
  | off : settings.macroSuppression = false → Lookups parse settings files dump none
  | on {root : Path} : settings.macroSuppression = true →
      rootOf settings files.cwd dump = .ok root →
      Lookups parse settings files dump (some (RegionCache.inside parse files (.fresh root)))

open Detector Session

variable {parse : Source.Parser}

/-- Without suppression, evaluation keeps what survives without a lookup. -/
theorem run_evaluate_blind (g : SymbolGraph) (policy : Policy) (ds : List Definition)
    (w : World) :
    ∃ records, (evaluate g policy blindSource ds).run.run w =
      (.ok ((ds.filter (survives g policy none)).map finding),
        { w with log := w.log ++ records }) := by
  induction ds generalizing w with
  | nil => exact ⟨[], by rw [List.append_nil]; rfl⟩
  | cons d ds ih =>
      have hreason : (reason g policy blindSource d).run.run w =
          (.ok (graphReason g policy d), w) := by
        unfold reason
        cases graphReason g policy d <;> rfl
      rw [evaluate, run_bind_ok hreason]
      cases hgraph : graphReason g policy d with
      | some r =>
          have hkept : survives g policy none d = false := by
            simp [survives, hgraph]
          obtain ⟨records, hrest⟩ :=
            ih { w with log := w.log ++ [RegionCache.suppressedRecord d r] }
          refine ⟨RegionCache.suppressedRecord d r :: records, ?_⟩
          dsimp only [blindSource]
          rw [run_bind_ok (run_notes _ w)]
          refine hrest.trans ?_
          simp [hkept]
      | none =>
          have hkept : survives g policy none d = true := by
            simp [survives, isMuted, hgraph]
          obtain ⟨records, hrest⟩ := ih w
          refine ⟨records, ?_⟩
          dsimp only
          rw [run_bind_ok hrest, run_pure]
          simp [hkept]

theorem findings_of_run {settings : Settings} {dump : Path} {g : SymbolGraph}
    {w w' : World} {found : List Finding}
    (h : (findingsOf parse settings dump g).run.run w = (.ok found, w')) :
    ∃ lookup, Lookups parse settings w.files dump lookup ∧
      found = (report g settings.policy (.ofLookup lookup) none : Id (List Finding)) := by
  unfold findingsOf at h
  cases hon : settings.macroSuppression with
  | false =>
      refine ⟨none, .off hon, ?_⟩
      rw [hon] at h
      obtain ⟨records, hrun⟩ := run_evaluate_blind g settings.policy (candidates g) w
      have hreport : (report g settings.policy blindSource
          (some (settings.workers : Int))).run.run w = (.ok found, w') := h
      rw [report_eq, run_bind_ok hrun, run_pure] at hreport
      rw [report_ofLookup]
      exact (Except.ok.inj (Prod.mk.inj hreport).1).symm
  | true =>
      rw [hon] at h
      have hroot : ∃ root, rootOf settings w.files.cwd dump = .ok root ∧
          (do
            let r ← (report g settings.policy (RegionCache.source parse)
              (some (settings.workers : Int))).run (.fresh root)
            return r.1 : Session (List Finding)).run.run w = (.ok found, w') := by
        unfold rootOf
        cases hsource : settings.sourceRoot with
        | some text =>
            rw [hsource] at h
            exact ⟨Path.ofString text, rfl, h⟩
        | none =>
            rw [hsource] at h
            obtain ⟨files, w₁, hfiles, hask⟩ := exists_of_run_bind h
            cases hfiles
            exact exists_of_run_ofExcept_bind hask
      obtain ⟨root, hroot, hrun⟩ := hroot
      refine ⟨_, .on hon hroot, ?_⟩
      obtain ⟨result, w₁, hreport, hreturn⟩ := exists_of_run_bind hrun
      rw [report_ofLookup]
      cases asks_report parse g settings.policy (some (settings.workers : Int))
        (.fresh root) w with
      | failed k e w₂ mem error run =>
          rw [run] at hreport
          cases hreport
      | answered c records answers run remembers =>
          rw [run] at hreport
          cases hreport
          cases hreturn
          rfl

/-! ## Reports -/

/-- The report on the build of a leaf. -/
structure IsBuildReport (parse : Source.Parser) (settings : Settings) (files : FileTree)
    (dump : Path) (found : List Finding) : Prop where
  spec : ∃ build g lookup,
    Build.Loads ⟨files, []⟩ dump none settings.vendorMarkers (.ok build) ∧
    SymbolGraph.assemble build.units = .ok g ∧
    Lookups parse settings files dump lookup ∧
    found = (report g settings.policy (.ofLookup lookup) none : Id (List Finding))

/-- The report on the index in a file. -/
structure IsIndexReport (files : FileTree) (path : Path) (found : List Finding) :
    Prop where
  spec : ∃ content index a, files.read path = .ok content ∧
    Index.ofBytes? content = some index ∧
    IndexAnalysis.ofIndex index = .ok a ∧ found = a.report

/-- The indexer, started in a project, ends well: with the status of success, and with
something in the place for the index. -/
structure Indexes (execute : Executor) (indexer : Indexer) (project : Path)
    (files : FileTree) (output : Path) (files' : FileTree) : Prop where
  spec : ∃ prepared words out err,
    files.makeDirectories (project.join (Path.ofString indexer.outputDirectory)) =
      .ok prepared ∧
    output = (project.join (Path.ofString indexer.outputDirectory)).join
      (Path.ofString indexer.indexName) ∧
    Indexer.words indexer.command project output = .ok words ∧
    execute words project prepared = .finished 0 out err files' ∧
    files'.has output = .ok true

/-- The report that the analysis of a path comes to. -/
inductive IsReport (execute : Executor) (parse : Source.Parser) (settings : Settings)
    (files : FileTree) (path : Path) : List Finding → Prop
  | index {found : List Finding} : hasSuffix path indexSuffix = true →
      IsIndexReport files path found → IsReport execute parse settings files path found
  | build {found : List Finding} : hasSuffix path indexSuffix = false →
      hasSuffix path Dump.suffix = true →
      IsBuildReport parse settings files path found →
      IsReport execute parse settings files path found
  | project {found : List Finding} {output : Path} {files' : FileTree} :
      hasSuffix path indexSuffix = false → hasSuffix path Dump.suffix = false →
      files.hasDirectory path = .ok true →
      Indexes execute settings.indexer (path.resolve files.cwd) files output files' →
      IsIndexReport files' output found → IsReport execute parse settings files path found

/-- A path that is not analysed. -/
def IsUnknown (files : FileTree) (path : Path) : Prop :=
  hasSuffix path indexSuffix = false ∧ hasSuffix path Dump.suffix = false ∧
    files.hasDirectory path = .ok false

theorem IsIndexReport.sorted {files : FileTree} {path : Path} {found : List Finding}
    (h : IsIndexReport files path found) :
    found.Pairwise fun a b => a.sortKey ≤ b.sortKey := by
  obtain ⟨_, _, a, _, _, _, rfl⟩ := h.spec
  exact Finding.inOrder_sorted _

/-- Every report is sorted. -/
theorem IsReport.sorted {execute : Executor} {settings : Settings} {files : FileTree}
    {path : Path} {found : List Finding}
    (h : IsReport execute parse settings files path found) :
    found.Pairwise fun a b => a.sortKey ≤ b.sortKey := by
  cases h with
  | index _ h => exact h.sorted
  | project _ _ _ _ h => exact h.sorted
  | build _ _ h =>
      obtain ⟨_, _, _, _, _, _, rfl⟩ := h.spec
      rw [report_ofLookup]
      exact Finding.inOrder_sorted _

/-! ## Runs that succeed -/

theorem isIndexReport_of_run {path : Path} {w w' : World} {a : Analysis}
    (h : (ofIndexFile path).run.run w = (.ok a, w')) :
    IsIndexReport w.files path a.findings := by
  obtain ⟨content, hread, hdecode⟩ := exists_of_run_readFile_bind h
  cases hindex : Index.ofBytes? content with
  | none =>
      rw [hindex] at hdecode
      cases hdecode
  | some index =>
      rw [hindex] at hdecode
      obtain ⟨_, w₁, _, hanalyse⟩ := exists_of_run_bind hdecode
      obtain ⟨analysis, hanalysis, hreturn⟩ := exists_of_run_ofExcept_bind hanalyse
      cases hreturn
      exact ⟨content, index, analysis, hread, hindex, hanalysis, rfl⟩

theorem isBuildReport_of_run {settings : Settings} (hworkers : 1 ≤ settings.workers)
    {dump : Path} {files : FileTree} {w' : World} {a : Analysis}
    (h : (ofDump parse settings dump).run.run ⟨files, []⟩ = (.ok a, w')) :
    IsBuildReport parse settings files dump a.findings := by
  obtain ⟨build, w₁, hload, hloaded⟩ := exists_of_run_bind h
  rw [Build.load_workers dump (by omega)] at hload
  obtain ⟨records, hw₁⟩ := Build.onlyLogs_load dump none settings.vendorMarkers ⟨files, []⟩
  rw [hload] at hw₁
  replace hw₁ : w₁ = ⟨files, [] ++ records⟩ := hw₁
  obtain ⟨g, hassemble, hassembled⟩ := exists_of_run_ofExcept_bind hloaded
  rw [run_bind_ok (run_notes _ w₁)] at hassembled
  obtain ⟨found, w₂, hfound, hreturn⟩ := exists_of_run_bind hassembled
  cases hreturn
  obtain ⟨lookup, hlookup, rfl⟩ := findings_of_run hfound
  refine ⟨build, g, lookup, ⟨records, by rw [hload, hw₁]⟩, hassemble, ?_, rfl⟩
  rw [hw₁] at hlookup
  exact hlookup

/-- The command of an indexer ends well: it has a tool and words that can be handed to the
system, it is started, prints text, and ends with the status of success. -/
structure EndsWell (execute : Executor) (template : List String) (project output : Path)
    (files : FileTree) (tool : String) (files' : FileTree) : Prop where
  spec : ∃ args out err, Indexer.words template project output = .ok (tool :: args) ∧
    (∀ word ∈ tool :: args, Char.ofNat 0 ∉ word.toList) ∧
    execute (tool :: args) project files =
      .finished 0 (Text.toBytes out) (Text.toBytes err) files'

theorem exists_toBytes_of_printed {bytes : Text.Bytes} {text : String}
    (h : Indexer.printed bytes = .ok text) : ∃ s, bytes = Text.toBytes s := by
  unfold Indexer.printed at h
  cases hstrict : Text.strictText bytes with
  | error e =>
      rw [hstrict] at h
      cases h
  | ok s => exact ⟨s, Text.strictText_eq_ok_iff.1 hstrict⟩

/-- An indexer whose run gives a place ended well, and something stands in the place for
the index. -/
theorem endsWell_of_run {execute : Executor} {template : List String}
    {project output place : Path} {w w' : World}
    (h : (Indexer.run execute template project output).run.run w = (.ok place, w')) :
    place = output ∧ w'.files.has output = .ok true ∧
      ∃ tool, EndsWell execute template project output w.files tool w'.files := by
  obtain ⟨words, hwords, hnoted⟩ := exists_of_run_ofExcept_bind h
  obtain ⟨_, w₁, hnote, hstart⟩ := exists_of_run_bind hnoted
  cases hnote
  cases words with
  | nil => cases hstart
  | cons tool args =>
      dsimp only at hstart
      split at hstart
      · cases hstart
      · next hplain =>
          rw [run_bind_ok (run_files _)] at hstart
          cases hexecute : execute (tool :: args) project w.files with
          | notStarted cause =>
              rw [hexecute] at hstart
              cases hstart
          | finished status out err files =>
              rw [hexecute] at hstart
              rw [run_bind_ok (run_setFiles files _)] at hstart
              obtain ⟨_, hprinted, hout⟩ := exists_of_run_ofExcept_bind hstart
              obtain ⟨out, rfl⟩ := exists_toBytes_of_printed hprinted
              obtain ⟨_, hprinted', herr⟩ := exists_of_run_ofExcept_bind hout
              obtain ⟨err, rfl⟩ := exists_toBytes_of_printed hprinted'
              split at herr
              · cases herr
              · next hstatus =>
                  obtain ⟨there, hthere, hend⟩ := exists_of_run_ofExcept_bind herr
                  split at hend
                  · next htrue =>
                      cases hend
                      refine ⟨rfl, hthere.trans (by rw [htrue]), tool,
                        args, out, err, hwords, ?_, ?_⟩
                      · intro word hword hnul
                        exact hplain (List.any_eq_true.2
                          ⟨word, hword, List.contains_iff_mem.2 hnul⟩)
                      · rw [hexecute, not_not.1 hstatus]
                  · cases hend

theorem indexes_of_run {execute : Executor} {indexer : Indexer} {project output : Path}
    {w w₁ w₂ : World} {place : Path}
    (hpath : (Indexer.indexPath project indexer.outputDirectory
      indexer.indexName).run.run w = (.ok output, w₁))
    (hrun : (Indexer.run execute indexer.command project output).run.run w₁ =
      (.ok place, w₂)) :
    Indexes execute indexer project w.files output w₂.files := by
  unfold Indexer.indexPath at hpath
  rw [run_bind_ok (run_files w)] at hpath
  obtain ⟨prepared, hprepared, hplaced⟩ := exists_of_run_ofExcept_bind hpath
  rw [run_bind_ok (run_setFiles prepared w)] at hplaced
  cases hplaced
  obtain ⟨_, hthere, tool, args, out, err, hwords, _, hexecute⟩ := endsWell_of_run hrun
  exact ⟨prepared, tool :: args, _, _, hprepared, rfl, hwords, hexecute, hthere⟩

/-! ## The analysis of a path -/

section Path

variable {execute : Executor} {settings : Settings} {files : FileTree} {path : Path}

theorem isReport_of_run_project {w' : World} {a : Analysis}
    (hindex : hasSuffix path indexSuffix = false)
    (hdump : hasSuffix path Dump.suffix = false)
    (hdirectory : files.hasDirectory path = .ok true)
    (h : (ofProject execute settings path).run.run ⟨files, []⟩ = (.ok a, w')) :
    IsReport execute parse settings files path a.findings := by
  unfold ofProject at h
  rw [run_bind_ok (run_files _)] at h
  obtain ⟨output, w₁, hpath, hplaced⟩ := exists_of_run_bind h
  obtain ⟨place, w₂, hrun, hindexed⟩ := exists_of_run_bind hplaced
  exact .project hindex hdump hdirectory (indexes_of_run hpath hrun)
    (isIndexReport_of_run hindexed)

/-- An analysis that succeeds gives the report on the path, or nothing if the path is not
analysed. -/
theorem isReport_or_isUnknown_of_run (hworkers : 1 ≤ settings.workers) {w' : World}
    {result : Option Analysis}
    (h : (ofPath execute parse settings path).run.run ⟨files, []⟩ = (.ok result, w')) :
    (∃ a, result = some a ∧ IsReport execute parse settings files path a.findings) ∨
      result = none ∧ IsUnknown files path := by
  unfold ofPath at h
  by_cases hindex : hasSuffix path indexSuffix = true
  · rw [if_pos hindex] at h
    obtain ⟨a, w₁, hrun, hreturn⟩ := exists_of_run_bind h
    cases hreturn
    exact .inl ⟨a, rfl, .index hindex (isIndexReport_of_run hrun)⟩
  · rw [if_neg hindex] at h
    rw [Bool.not_eq_true] at hindex
    by_cases hdump : hasSuffix path Dump.suffix = true
    · rw [if_pos hdump] at h
      obtain ⟨a, w₁, hrun, hreturn⟩ := exists_of_run_bind h
      cases hreturn
      exact .inl ⟨a, rfl, .build hindex hdump (isBuildReport_of_run hworkers hrun)⟩
    · rw [if_neg hdump, run_bind_ok (run_files _)] at h
      rw [Bool.not_eq_true] at hdump
      obtain ⟨directory, hdirectory, hrest⟩ := exists_of_run_ofExcept_bind h
      cases directory with
      | false =>
          cases hrest
          exact .inr ⟨rfl, hindex, hdump, hdirectory⟩
      | true =>
          obtain ⟨a, w₁, hrun, hreturn⟩ := exists_of_run_bind hrest
          cases hreturn
          exact .inl ⟨a, rfl, isReport_of_run_project hindex hdump hdirectory hrun⟩

end Path

/-! ## The number of workers -/

theorem findingsOf_workers (settings : Settings) (dump : Path) (g : SymbolGraph) :
    findingsOf parse settings dump g =
      findingsOf parse { settings with workers := 1 } dump g := by
  simp only [findingsOf, report_eq]

theorem ofDump_workers {settings : Settings} (h : 1 ≤ settings.workers) (dump : Path) :
    ofDump parse settings dump = ofDump parse { settings with workers := 1 } dump := by
  simp only [ofDump]
  rw [Build.load_workers dump (n := settings.workers) (by omega),
    Build.load_workers dump (by omega)]
  simp only [findingsOf_workers settings]

/-- As long as there is a worker, any number of them does the same. -/
theorem ofPath_workers (execute : Executor) (parse : Source.Parser) {settings : Settings}
    (h : 1 ≤ settings.workers) (path : Path) :
    ofPath execute parse settings path =
      ofPath execute parse { settings with workers := 1 } path := by
  have hproject : ofProject execute settings path =
      ofProject execute { settings with workers := 1 } path := rfl
  rw [ofPath, ofPath, ofDump_workers h, hproject]

end Analysis

end DeadSymbols
