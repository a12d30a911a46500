import Mathlib
import DeadSymbols.Command.Builtin
import DeadSymbols.Proofs.AnalysisReport

/-!
# Fresh indexes and indexes left over

An indexer is believed when its command ends well and something stands in the place for
the index.  Whether the command put it there is not asked.  So a run that gives a place
is about an index that the command wrote, or about one that was there before; and a
command that ends well without touching the place is caught exactly if nothing stood
there.

The analysis of a project inherits this.  Its report is on what the command left in the
place for the index, and if the command left it as it was, the report is the one that the
old index gives.

## Main results

* `run_of_endsWell` — a run whose command ends well.
* `run_ofProject_of_untouched` — an analysis whose command touches nothing.
* `index_written_or_left_over` — all runs and all analyses.
-/

namespace DeadSymbols

theorem FileTree.has_congr {t t' : FileTree} {p : Path} (h : t'.stat p = t.stat p) :
    t'.has p = t.has p := by
  rw [has, holds, has, holds, h]

theorem FileTree.read_congr {t t' : FileTree} {p : Path} (h : t'.stat p = t.stat p) :
    t'.read p = t.read p := by
  rw [read, read, h]

namespace Analysis

open Session

/-! ## Runs -/

/-- What a run says after its command ended well, given whether something stands in the
place for the index. -/
def verdict (tool : String) (output : Path) : Except FileError Bool → Except Error Path
  | .ok true => .ok output
  | .ok false => .error (.toolWithoutOutput tool output)
  | .error cause => .error (.refused cause)

theorem verdict_eq_ok_iff {tool : String} {output place : Path}
    {there : Except FileError Bool} :
    verdict tool output there = .ok place ↔ there = .ok true ∧ place = output := by
  rcases there with cause | _ | _
  · simp [verdict]
  · simp [verdict]
  · simp [verdict, eq_comm]

section Run

variable {execute : Executor} {template : List String} {project output : Path}
  {tool : String} {files' : FileTree} {w : World}

/-- A run whose command ends well goes by what stands in the place for the index. -/
theorem run_of_endsWell (h : EndsWell execute template project output w.files tool files') :
    ∃ log, (Indexer.run execute template project output).run.run w =
      (verdict tool output (files'.has output), ⟨files', log⟩) := by
  obtain ⟨args, out, err, hwords, hplain, hexecute⟩ := h.spec
  have hnul : ¬((tool :: args).any fun word => word.toList.contains (Char.ofNat 0)) = true := by
    intro hany
    obtain ⟨word, hword, hholds⟩ := List.any_eq_true.1 hany
    exact hplain word hword (List.contains_iff_mem.1 hholds)
  have hprinted : ∀ s, ∃ text, Indexer.printed (Text.toBytes s) = .ok text := by
    intro s
    rw [Indexer.printed, Text.strictText_eq_ok_iff.2 rfl]
    exact ⟨_, rfl⟩
  obtain ⟨outText, hout⟩ := hprinted out
  obtain ⟨errText, herr⟩ := hprinted err
  have hplace : ∀ v : World, v.files = files' → ∃ log,
      (do
        if ← ofExcept .refused (files'.has output) then return output
        throw (.toolWithoutOutput tool output) : Session Path).run.run v =
          (verdict tool output (files'.has output), ⟨files', log⟩) := by
    intro v hv
    refine ⟨v.log, ?_⟩
    rw [← hv]
    rcases v.files.has output with cause | _ | _ <;> rfl
  unfold Indexer.run
  rw [hwords]
  have hnoted : (note .info Indexer.origin
      ("running " ++ String.intercalate " " (tool :: args))).run.run w =
        (.ok (), { w with log := w.log ++ [⟨.info, Indexer.origin,
          "running " ++ String.intercalate " " (tool :: args)⟩] }) := rfl
  rw [run_bind_ok (run_ofExcept _ _ w), run_bind_ok hnoted]
  dsimp only
  rw [if_neg hnul]
  rw [run_bind_ok (run_files _)]
  dsimp only
  rw [hexecute]
  dsimp only
  rw [run_bind_ok (run_setFiles files' _), hout, run_bind_ok (run_ofExcept _ _ _), herr,
    run_bind_ok (run_ofExcept _ _ _)]
  exact hplace _ rfl

end Run

/-! ## Analyses -/

/-- The place for the index of a project. -/
def placeOf (indexer : Indexer) (project : Path) : Path :=
  (project.join (Path.ofString indexer.outputDirectory)).join (Path.ofString indexer.indexName)

/-- The files among which the indexer of a project is started: the directory for the index
has been made. -/
def Prepares (indexer : Indexer) (project : Path) (files prepared : FileTree) : Prop :=
  files.makeDirectories (project.join (Path.ofString indexer.outputDirectory)) = .ok prepared

theorem run_indexPath {indexer : Indexer} {project : Path} {w : World} {prepared : FileTree}
    (h : Prepares indexer project w.files prepared) :
    (Indexer.indexPath project indexer.outputDirectory indexer.indexName).run.run w =
      (.ok (placeOf indexer project), { w with files := prepared }) := by
  unfold Indexer.indexPath
  rw [run_bind_ok (run_files w), h, run_bind_ok (run_ofExcept _ _ w),
    run_bind_ok (run_setFiles prepared w)]
  rfl

/-- What is said about the index in a file depends on its content. -/
theorem result_ofIndexFile_congr {path : Path} {w w' : World}
    (h : w'.files.read path = w.files.read path) :
    ((ofIndexFile path).run.run w').1 = ((ofIndexFile path).run.run w).1 := by
  unfold ofIndexFile
  cases hread : w.files.read path with
  | error e =>
      have hfail : ∀ v : World, v.files.read path = .error e →
          (readFile path).run.run v = (.error (Error.ofFileError (.unreadable path) e), v) := by
        intro v hv
        rw [run_readFile, hv]
        rfl
      rw [run_bind_error (hfail w hread), run_bind_error (hfail w' (h.trans hread))]
  | ok content =>
      have hok : ∀ v : World, v.files.read path = .ok content →
          (readFile path).run.run v = (.ok content, v) := by
        intro v hv
        rw [run_readFile, hv]
        rfl
      rw [run_bind_ok (hok w hread), run_bind_ok (hok w' (h.trans hread))]
      cases Index.ofBytes? content with
      | none => rfl
      | some index =>
          dsimp only
          cases hindex : IndexAnalysis.ofIndex index with
          | error fault => rfl
          | ok a => rfl

section Project

variable {execute : Executor} {settings : Settings} {directory : Path} {w : World}

/-- An analysis whose command ends well without touching the place for the index: it is
the analysis of the index that stood there, if there was one. -/
theorem run_ofProject_of_untouched {prepared files' : FileTree} {tool : String}
    (hprepared : Prepares settings.indexer (directory.resolve w.files.cwd) w.files prepared)
    (hends : EndsWell execute settings.indexer.command (directory.resolve w.files.cwd)
      (placeOf settings.indexer (directory.resolve w.files.cwd)) prepared tool files')
    (huntouched : files'.stat (placeOf settings.indexer (directory.resolve w.files.cwd)) =
      prepared.stat (placeOf settings.indexer (directory.resolve w.files.cwd))) :
    ((ofProject execute settings directory).run.run w).1 =
      (verdict tool (placeOf settings.indexer (directory.resolve w.files.cwd))
        (prepared.has (placeOf settings.indexer (directory.resolve w.files.cwd)))).bind
          fun place => ((ofIndexFile place).run.run ⟨prepared, []⟩).1 := by
  obtain ⟨log, hrun⟩ := run_of_endsWell (w := { w with files := prepared }) hends
  rw [FileTree.has_congr huntouched] at hrun
  unfold ofProject
  rw [run_bind_ok (run_files w)]
  dsimp only
  rw [run_bind_ok (run_indexPath hprepared)]
  cases hverdict : verdict tool (placeOf settings.indexer (directory.resolve w.files.cwd))
      (prepared.has (placeOf settings.indexer (directory.resolve w.files.cwd))) with
  | error e =>
      rw [hverdict] at hrun
      rw [run_bind_error hrun]
      rfl
  | ok place =>
      obtain ⟨_, rfl⟩ := verdict_eq_ok_iff.1 hverdict
      rw [hverdict] at hrun
      rw [run_bind_ok hrun]
      exact result_ofIndexFile_congr (FileTree.read_congr huntouched)

/-- The report of an analysis is on what the command of the indexer left in the place for
the index. -/
theorem exists_of_run_ofProject {a : Analysis} {w' : World}
    (h : (ofProject execute settings directory).run.run w = (.ok a, w')) :
    ∃ prepared files' tool,
      Prepares settings.indexer (directory.resolve w.files.cwd) w.files prepared ∧
      EndsWell execute settings.indexer.command (directory.resolve w.files.cwd)
        (placeOf settings.indexer (directory.resolve w.files.cwd)) prepared tool files' ∧
      IsIndexReport files' (placeOf settings.indexer (directory.resolve w.files.cwd))
        a.findings := by
  unfold ofProject at h
  rw [run_bind_ok (run_files _)] at h
  obtain ⟨output, w₁, hpath, hplaced⟩ := exists_of_run_bind h
  obtain ⟨place, w₂, hrun, hindexed⟩ := exists_of_run_bind hplaced
  unfold Indexer.indexPath at hpath
  rw [run_bind_ok (run_files w)] at hpath
  obtain ⟨prepared, hprepared, hreturn⟩ := exists_of_run_ofExcept_bind hpath
  rw [run_bind_ok (run_setFiles prepared w)] at hreturn
  cases hreturn
  obtain ⟨_, _, tool, hends⟩ := endsWell_of_run hrun
  exact ⟨prepared, w₂.files, tool, hprepared, hends, isIndexReport_of_run hindexed⟩

end Project

/-- A run that gives a place gives the place for the index, and either the command changed
what stands there or something stood there before.  If the command ends well and leaves
the place as it was, the run goes by what stood there before: it fails if that is nothing,
and otherwise succeeds.

The report of an analysis is on what the command left in the place for the index, and if
the command left it as it was, the report is on the index that was there when the command
was started.  An analysis whose command ends well and leaves the place as it was comes to
the analysis of the old index, or fails if there was none. -/
theorem index_written_or_left_over (execute : Executor) (w : World) :
    (∀ template project output,
      (∀ place w', (Indexer.run execute template project output).run.run w = (.ok place, w') →
        place = output ∧
          (w'.files.stat output ≠ w.files.stat output ∨ w.files.has output = .ok true)) ∧
      ∀ tool files', EndsWell execute template project output w.files tool files' →
        files'.stat output = w.files.stat output →
        ∃ log, (Indexer.run execute template project output).run.run w =
          (verdict tool output (w.files.has output), ⟨files', log⟩)) ∧
    ∀ settings directory project output, project = directory.resolve w.files.cwd →
      output = placeOf settings.indexer project →
      (∀ a w', (ofProject execute settings directory).run.run w = (.ok a, w') →
        ∃ prepared files' tool, Prepares settings.indexer project w.files prepared ∧
          EndsWell execute settings.indexer.command project output prepared tool files' ∧
          IsIndexReport files' output a.findings ∧
          (files'.stat output ≠ prepared.stat output ∨
            IsIndexReport prepared output a.findings)) ∧
      ∀ prepared tool files', Prepares settings.indexer project w.files prepared →
        EndsWell execute settings.indexer.command project output prepared tool files' →
        files'.stat output = prepared.stat output →
        ((ofProject execute settings directory).run.run w).1 =
          (verdict tool output (prepared.has output)).bind fun place =>
            ((ofIndexFile place).run.run ⟨prepared, []⟩).1 := by
  constructor
  · intro template project output
    constructor
    · intro place w' hrun
      obtain ⟨hplace, hthere, _⟩ := endsWell_of_run hrun
      refine ⟨hplace, ?_⟩
      by_cases hstat : w'.files.stat output = w.files.stat output
      · exact .inr ((FileTree.has_congr hstat).symm.trans hthere)
      · exact .inl hstat
    · intro tool files' hends huntouched
      rw [← FileTree.has_congr huntouched]
      exact run_of_endsWell hends
  · intro settings directory project output hproject houtput
    subst hproject houtput
    constructor
    · intro a w' hrun
      obtain ⟨prepared, files', tool, hprepared, hends, hreport⟩ := exists_of_run_ofProject hrun
      refine ⟨prepared, files', tool, hprepared, hends, hreport, ?_⟩
      by_cases hstat : files'.stat (placeOf settings.indexer (directory.resolve w.files.cwd)) =
          prepared.stat (placeOf settings.indexer (directory.resolve w.files.cwd))
      · obtain ⟨content, index, analysis, hread, hindex⟩ := hreport.spec
        exact .inr ⟨content, index, analysis,
          (FileTree.read_congr hstat).symm.trans hread, hindex⟩
      · exact .inl hstat
    · intro prepared tool files' hprepared hends huntouched
      exact run_ofProject_of_untouched hprepared hends huntouched

/-- A project with an index that an earlier run left. -/
def leftOver : FileTree :=
  ⟨[], [(["p"], .directory), (["p", "target"], .directory), (["p", "target", "index.scip"],
    .file [18, 18, 10, 4, 97, 46, 114, 115, 18, 10, 10, 3, 1, 3, 7, 18, 1, 115, 24, 1])]⟩

/-- An indexer that does nothing and says that all went well. -/
def idleIndexer : Indexer := { Indexer.default with command := ["true"] }

/-- The idle command ends well and leaves all files as they are. -/
theorem endsWell_idle (output : Path) :
    EndsWell Builtin.execute ["true"] (Path.ofString "/p") output leftOver "true" leftOver := by
  refine ⟨[], "", "", ?_, by decide, rfl⟩
  rw [Indexer.words, List.mapM_cons, List.mapM_nil]
  rfl

/-- The idle indexer is believed if there is an old index, and caught if there is none. -/
theorem index_written_or_left_over_leftOver :
    (∃ log, (Indexer.run Builtin.execute ["true"] (Path.ofString "/p")
        (Path.ofString "/p/target/index.scip")).run.run ⟨leftOver, []⟩ =
      (.ok (Path.ofString "/p/target/index.scip"), ⟨leftOver, log⟩)) ∧
    ∃ log, (Indexer.run Builtin.execute ["true"] (Path.ofString "/p")
        (Path.ofString "/p/other.scip")).run.run ⟨leftOver, []⟩ =
      (.error (.toolWithoutOutput "true" (Path.ofString "/p/other.scip")), ⟨leftOver, log⟩) := by
  obtain ⟨hruns, _⟩ := index_written_or_left_over Builtin.execute ⟨leftOver, []⟩
  constructor
  · exact (hruns ["true"] (Path.ofString "/p") (Path.ofString "/p/target/index.scip")).2
      "true" leftOver (endsWell_idle _) rfl
  · exact (hruns ["true"] (Path.ofString "/p") (Path.ofString "/p/other.scip")).2
      "true" leftOver (endsWell_idle _) rfl

/-- A command that touches no file makes a run succeed, and an analysis report on the index
that an earlier run left. -/
theorem left_over_index_reported :
    (∃ log, (Indexer.run Builtin.execute ["true"] (Path.ofString "/p")
        (Path.ofString "/p/target/index.scip")).run.run ⟨leftOver, []⟩ =
          (.ok (Path.ofString "/p/target/index.scip"), ⟨leftOver, log⟩)) ∧
      ((ofProject Builtin.execute { Settings.default none with indexer := idleIndexer }
          (Path.ofString "p")).run.run ⟨leftOver, []⟩).1.toOption.map (·.findings) =
        some [⟨⟨"a.rs", 2, 4, 2, 8⟩, "<unknown>", "s", "s"⟩] ∧
      ((ofProject Builtin.execute { Settings.default none with indexer := idleIndexer }
        (Path.ofString "p")).run.run ⟨leftOver, []⟩).2.files = leftOver := by
  refine ⟨?_, by decide +kernel, by decide +kernel⟩
  have hrun := run_of_endsWell (w := ⟨leftOver, []⟩)
    (endsWell_idle (Path.ofString "/p/target/index.scip"))
  exact hrun

end Analysis

end DeadSymbols
