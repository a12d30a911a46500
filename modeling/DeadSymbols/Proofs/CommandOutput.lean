import Mathlib
import DeadSymbols.CommandLine.Run
import DeadSymbols.Proofs.AnalysisReport
import DeadSymbols.Proofs.Tuning
import DeadSymbols.Settings.Format

/-!
# What a run prints

A run prints the whole report or nothing, as long as the standard output takes every
line.  At a line that it does not take the run breaks off, and the lines before it are
printed.  What is printed, and how the run ends, depend on the files, the path, the
configuration and the source root (`shown`): not on the number of workers, as long as
there is one, nor on the log level, the environment or the request for counts.

Settings that load have a worker (`Settings.one_le_workers_of_load`), so every number of
workers that an analysis is done with is one at least, and then the analysis is the same
for all of them.

## Main results

* `Settings.one_le_workers_of_load` — settings have a worker.
* `print_spec` — how far lines are printed.
* `visible_runPath` — what a run shows, and what it depends on.
* `output_all_or_nothing` — all accepted command lines.
-/

namespace DeadSymbols

namespace Settings

open Session (exists_of_except_bind)

theorem one_le_workers_of_workersOf {v : Value} {n : Nat} (h : workersOf v = .ok n) :
    1 ≤ n := by
  unfold workersOf at h
  split at h
  · cases h
  · cases h
  · split at h
    · cases h
    · cases h
      omega

theorem one_le_defaultWorkers (processors : Option Nat) :
    1 ≤ defaultWorkers processors := by
  unfold defaultWorkers
  split
  · exact Nat.le_add_left 1 _
  · exact Nat.le_refl 1

variable {readers : Readers} {processors : Option Nat}

theorem one_le_workers_of_ofValue {v : Value} {s : Settings}
    (h : ofValue processors v = .ok s) : 1 ≤ s.workers := by
  cases v with
  | map entries =>
      obtain ⟨workers, hworkers, hmarkers⟩ := exists_of_except_bind h
      obtain ⟨_, _, hroot⟩ := exists_of_except_bind hmarkers
      obtain ⟨_, _, hpolicy⟩ := exists_of_except_bind hroot
      obtain ⟨_, _, hlevel⟩ := exists_of_except_bind hpolicy
      obtain ⟨_, _, hindexer⟩ := exists_of_except_bind hlevel
      obtain ⟨_, _, hreturn⟩ := exists_of_except_bind hindexer
      cases hreturn
      unfold keyed at hworkers
      split at hworkers
      · exact one_le_workers_of_workersOf hworkers
      · cases hworkers
        exact one_le_defaultWorkers processors
  | _ => cases h

theorem one_le_workers_of_ofFile {files : FileTree} {path : Path} {s : Settings}
    (h : ofFile readers processors files path = .ok s) : 1 ≤ s.workers := by
  obtain ⟨there, _, hthere⟩ := exists_of_except_bind h
  dsimp only at hthere
  split at hthere
  · cases hthere
  · split at hthere
    · obtain ⟨content, _, hyaml⟩ := exists_of_except_bind hthere
      obtain ⟨document, _, hdocument⟩ := exists_of_except_bind hyaml
      split at hdocument
      · cases hdocument
        exact one_le_defaultWorkers processors
      · exact one_le_workers_of_ofValue hdocument
    · split at hthere
      · obtain ⟨content, _, htoml⟩ := exists_of_except_bind hthere
        obtain ⟨document, _, htables⟩ := exists_of_except_bind htoml
        obtain ⟨v, _, hsettings⟩ := exists_of_except_bind htables
        exact one_le_workers_of_ofValue hsettings
      · cases hthere

/-- Settings that load have a worker. -/
theorem one_le_workers_of_load {files : FileTree} {named : Option Path}
    {directory : Path} {s : Settings}
    (h : load readers processors files named directory = .ok s) : 1 ≤ s.workers := by
  cases named with
  | some path => exact one_le_workers_of_ofFile h
  | none =>
      obtain ⟨found, _, hfile⟩ := exists_of_except_bind h
      cases found with
      | some path => exact one_le_workers_of_ofFile hfile
      | none =>
          cases hfile
          exact one_le_defaultWorkers processors

end Settings

namespace CommandLine

/-! ## Printing -/

/-- Lines are printed up to the first that is not taken. -/
theorem print_spec (takes : List String → String → Bool) (before lines : List String) :
    ∃ taken left, lines = taken ++ left ∧
      print takes before lines = (before ++ taken, left.head?) ∧
      ∀ line ∈ left.head?, takes (before ++ taken) line = false := by
  induction lines generalizing before with
  | nil => exact ⟨[], [], rfl, by simp [print], by simp⟩
  | cons line rest ih =>
      rw [print]
      split
      · obtain ⟨taken, left, rfl, hprint, hleft⟩ := ih (before ++ [line])
        refine ⟨line :: taken, left, rfl, ?_, ?_⟩
        · simpa using hprint
        · simpa using hleft
      · next htakes => exact ⟨[], line :: rest, rfl, by simp, by simpa using htakes⟩

/-- The text of a report. -/
def reportText (found : List Finding) : String := textOf (reportLines found)

/-- The report is printed up to a line that is not taken. -/
def BreaksOff (takes : List String → String → Bool) (found : List Finding)
    (stdout line : String) : Prop :=
  ∃ before rest, reportLines found = before ++ line :: rest ∧
    takes before line = false ∧ stdout = textOf before

/-- A report is printed whole, or up to a line that is not taken. -/
theorem printReport_cases (takes : List String → String → Bool) (found : List Finding) :
    printReport takes found = (reportText found, .exit 0) ∨
      ∃ stdout line, printReport takes found = (stdout, .escape (.printing line)) ∧
        BreaksOff takes found stdout line := by
  obtain ⟨taken, left, hlines, hprint, hleft⟩ := print_spec takes [] (reportLines found)
  rw [List.nil_append] at hprint hleft
  rw [printReport, hprint]
  cases left with
  | nil =>
      left
      rw [reportText, hlines, List.append_nil]
      rfl
  | cons line rest => exact .inr ⟨_, line, rfl, taken, rest, hlines, hleft line rfl, rfl⟩

/-! ## What is shown -/

/-- What a run shows of itself: what it prints on the standard output, and how it ends. -/
def Outcome.visible (outcome : Outcome) : String × Ending :=
  (outcome.stdout, outcome.ending)

/-- What an analysis shows. -/
def shownOf (takes : List String → String → Bool) :
    Except Error (Option Analysis) → String × Ending
  | .error e => ("", if e.isReported then .exit 1 else .escape (.analysis e))
  | .ok none => ("", .exit 0)
  | .ok (some a) => printReport takes a.findings

/-- Whether the options leave a worker. -/
def Options.haveWorker (o : Options) : Bool :=
  o.jobs.all (1 ≤ ·)

/-- The file of settings that the options name. -/
def Options.named (o : Options) : Option Path :=
  if o.config.isEmpty then none else some (Path.ofString o.config)

/-- What a run shows, said without what tunes it. -/
def shown (p : Platform) (files : FileTree) (path : String) (o : Options) :
    String × Ending :=
  match Settings.load p.readers p.processors files o.named ⟨1, files.cwd⟩ with
  | .error fault => ("", if fault.isReported then .exit 1 else .escape (.settings fault))
  | .ok settings =>
    if o.haveWorker then
      shownOf p.takes ((Analysis.ofPath p.execute p.parse
        (adjust settings o settings.workers) (Path.ofString path)).run.run ⟨files, []⟩).1
    else ("", .exit 1)

theorem visible_analyse (p : Platform) (files : FileTree) (threshold : Log.Level)
    (settings : Settings) (path : Path) (summary : Bool) :
    (analyse p files threshold settings path summary).visible =
      shownOf p.takes
        ((Analysis.ofPath p.execute p.parse settings path).run.run ⟨files, []⟩).1 := by
  unfold analyse
  cases hrun : (Analysis.ofPath p.execute p.parse settings path).run.run ⟨files, []⟩ with
  | mk result world =>
      cases result with
      | error e =>
          dsimp only [shownOf]
          split <;> rfl
      | ok result =>
          cases result <;> rfl

/-- However many workers there are, an analysis shows the same. -/
theorem visible_analyse_adjust (p : Platform) (files : FileTree)
    (threshold : Log.Level) {settings : Settings} (hsettings : 1 ≤ settings.workers)
    (o : Options) {workers : Nat} (h : 1 ≤ workers) (path : Path) (summary : Bool) :
    (analyse p files threshold (adjust settings o workers) path summary).visible =
      shownOf p.takes ((Analysis.ofPath p.execute p.parse
        (adjust settings o settings.workers) path).run.run ⟨files, []⟩).1 := by
  have hworkers : 1 ≤ (adjust settings o workers).workers := h
  have hadjusted : 1 ≤ (adjust settings o settings.workers).workers := hsettings
  rw [visible_analyse, Analysis.ofPath_workers p.execute p.parse hworkers,
    Analysis.ofPath_workers p.execute p.parse hadjusted]
  rfl

theorem visible_runPath (p : Platform) (files : FileTree)
    (environment : Option String) (path : String) (o : Options) :
    (runPath p files environment path o).visible = shown p files path o := by
  unfold runPath shown Options.named
  dsimp only
  cases hload : Settings.load p.readers p.processors files
      (if o.config.isEmpty then none else some (Path.ofString o.config)) ⟨1, files.cwd⟩ with
  | error fault =>
      dsimp only
      split <;> rfl
  | ok settings =>
      have hsettings := Settings.one_le_workers_of_load hload
      dsimp only
      cases hjobs : o.jobs with
      | none =>
          have hworker : o.haveWorker = true := by
            simp [Options.haveWorker, hjobs]
          rw [if_pos hworker]
          exact visible_analyse_adjust p files _ hsettings o hsettings _ _
      | some n =>
          by_cases hn : n < 1
          · have hworker : ¬o.haveWorker = true := by
              simpa [Options.haveWorker, hjobs] using hn
            rw [if_neg hworker, workersFor, if_pos hn]
            rfl
          · have hworker : o.haveWorker = true := by
              simpa [Options.haveWorker, hjobs] using hn
            have hworkers : 1 ≤ n.toNat := by omega
            rw [if_pos hworker, workersFor, if_neg hn]
            exact visible_analyse_adjust p files _ hsettings o hworkers _ _

theorem shown_congr (p : Platform) (files : FileTree) (path : String)
    {o o' : Options} (hsame : o.untuned = o'.untuned)
    (hworker : o.haveWorker = o'.haveWorker) :
    shown p files path o = shown p files path o' := by
  obtain ⟨hconfig, _, hroot, _⟩ := Options.mk.inj hsame
  simp only [shown, Options.named, adjust, hconfig, hroot, hworker]

/-! ## All or nothing -/

/-- The sorted report that a run is about, with the settings that load. -/
structure IsReportOf (p : Platform) (files : FileTree) (path : Path) (o : Options)
    (found : List Finding) : Prop where
  report : ∃ settings,
    Settings.load p.readers p.processors files o.named ⟨1, files.cwd⟩ = .ok settings ∧
      Analysis.IsReport p.execute p.parse (adjust settings o settings.workers) files path
        found
  sorted : found.Pairwise fun a b => a.sortKey ≤ b.sortKey

/-- A run prints the whole report on its path, or nothing, unless it breaks off at a line
that the standard output does not take. -/
structure AllOrNothing (p : Platform) (files : FileTree) (path : Path) (o : Options)
    (stdout : String) (ending : Ending) : Prop where
  /-- A run that ends with a status ends with success or failure. -/
  status : ∀ n, ending = .exit n → n = 0 ∨ n = 1
  /-- A run that neither succeeds nor breaks off prints nothing. -/
  nothing : ending ≠ .exit 0 → (∀ line, ending ≠ .escape (.printing line)) → stdout = ""
  /-- A run that succeeds prints the report, unless the path is not analysed. -/
  all : ending = .exit 0 →
    stdout = "" ∧ Analysis.IsUnknown files path ∨
      ∃ found, IsReportOf p files path o found ∧ stdout = reportText found
  /-- A run that breaks off has printed the report up to a line that is not taken. -/
  broken : ∀ line, ending = .escape (.printing line) →
    ∃ found, IsReportOf p files path o found ∧ BreaksOff p.takes found stdout line

section

variable {p : Platform} {files : FileTree} {path : Path} {o : Options}

theorem allOrNothing_of_failure {ending : Ending}
    (h : ending = .exit 1 ∨ ∃ failure, ending = .escape failure ∧
      ∀ line, failure ≠ .printing line) :
    AllOrNothing p files path o "" ending := by
  rcases h with rfl | ⟨failure, rfl, hfailure⟩
  · exact ⟨fun n hn => .inr (Ending.exit.inj hn).symm, fun _ _ => rfl, nofun, nofun⟩
  · exact ⟨nofun, fun _ _ => rfl, nofun,
      fun line hline => absurd (Ending.escape.inj hline) (hfailure line)⟩

theorem allOrNothing_of_unknown (h : Analysis.IsUnknown files path) :
    AllOrNothing p files path o "" (.exit 0) :=
  ⟨fun _ hn => .inl (Ending.exit.inj hn).symm, fun hne => absurd rfl hne,
    fun _ => .inl ⟨rfl, h⟩, nofun⟩

/-- A report that is printed, or of which some is printed. -/
theorem allOrNothing_printReport {found : List Finding}
    (h : IsReportOf p files path o found) :
    AllOrNothing p files path o (printReport p.takes found).1
      (printReport p.takes found).2 := by
  rcases printReport_cases p.takes found with hprint | ⟨stdout, line, hprint, hbreaks⟩
  · rw [hprint]
    exact ⟨fun n hn => .inl (Ending.exit.inj hn).symm, fun hne => absurd rfl hne,
      fun _ => .inr ⟨found, h, rfl⟩, nofun⟩
  · rw [hprint]
    refine ⟨nofun, fun _ hne => absurd rfl (hne line), nofun, ?_⟩
    intro line' hline'
    obtain rfl := Escape.printing.inj (Ending.escape.inj hline')
    exact ⟨found, h, hbreaks⟩

/-- As long as every line is taken, a run that does not succeed prints nothing. -/
theorem AllOrNothing.eq_empty_of_takes {stdout : String} {ending : Ending}
    (h : AllOrNothing p files path o stdout ending)
    (htakes : ∀ before line, p.takes before line = true) (hfailed : ending ≠ .exit 0) :
    stdout = "" := by
  refine h.nothing hfailed fun line hline => ?_
  obtain ⟨found, -, before, rest, -, hrefused, -⟩ := h.broken line hline
  rw [htakes] at hrefused
  cases hrefused

end

theorem allOrNothing_shown (p : Platform) (files : FileTree) (path : String)
    (o : Options) :
    AllOrNothing p files (Path.ofString path) o (shown p files path o).1
      (shown p files path o).2 := by
  unfold shown
  cases hload : Settings.load p.readers p.processors files o.named ⟨1, files.cwd⟩ with
  | error fault =>
      refine allOrNothing_of_failure ?_
      dsimp only
      split
      · exact .inl rfl
      · exact .inr ⟨_, rfl, nofun⟩
  | ok settings =>
      dsimp only
      split
      · cases hrun : (Analysis.ofPath p.execute p.parse
            (adjust settings o settings.workers) (Path.ofString path)).run.run
              ⟨files, []⟩ with
        | mk result w =>
            cases result with
            | error e =>
                refine allOrNothing_of_failure ?_
                dsimp only [shownOf]
                split
                · exact .inl rfl
                · exact .inr ⟨_, rfl, nofun⟩
            | ok result =>
                have hsettings := Settings.one_le_workers_of_load hload
                have hworkers : 1 ≤ (adjust settings o settings.workers).workers :=
                  hsettings
                rcases Analysis.isReport_or_isUnknown_of_run hworkers hrun with
                  ⟨a, rfl, hreport⟩ | ⟨rfl, hunknown⟩
                · exact allOrNothing_printReport ⟨⟨settings, hload, hreport⟩, hreport.sorted⟩
                · exact allOrNothing_of_unknown hunknown
      · exact allOrNothing_of_failure (.inl rfl)

/-- A command line that is accepted as a run prints the whole sorted report on its path
or nothing, and it prints nothing unless it succeeds.  The one exception is a line of the
report that the standard output does not take: there the run breaks off, without a status.
An output that takes every line has no exception.  What a run prints and how it ends are
the same for every environment and every accepted command line that differs from it only
in options that tune the run, as long as both leave a worker or neither does. -/
theorem output_all_or_nothing (p : Platform) (files : FileTree)
    (environment : Option String) {arguments : List String} {path : String} {o : Options}
    (h : request arguments = .ok (.run path o)) :
    AllOrNothing p files (Path.ofString path) o
        (run p files environment arguments).stdout
        (run p files environment arguments).ending ∧
      ((∀ before line, p.takes before line = true) →
        (run p files environment arguments).ending ≠ .exit 0 →
          (run p files environment arguments).stdout = "") ∧
      ∀ environment' arguments' path' o', request arguments' = .ok (.run path' o') →
        essentialWords arguments' = essentialWords arguments →
        o'.haveWorker = o.haveWorker →
        (run p files environment' arguments').stdout =
            (run p files environment arguments).stdout ∧
          (run p files environment' arguments').ending =
            (run p files environment arguments).ending := by
  have hvisible : ∀ environment arguments path o, request arguments = .ok (.run path o) →
      (run p files environment arguments).visible = shown p files path o := by
    intro environment arguments path o hrequest
    rw [run, hrequest]
    exact visible_runPath p files environment path o
  have hall := allOrNothing_shown p files path o
  rw [← hvisible environment arguments path o h] at hall
  refine ⟨hall, hall.eq_empty_of_takes, ?_⟩
  intro environment' arguments' path' o' h' hessential hworker
  obtain ⟨rfl, huntuned⟩ := request_of_essential_eq hessential h' h
  have hsame : (run p files environment' arguments').visible =
      (run p files environment arguments).visible := by
    rw [hvisible environment' arguments' _ o' h', hvisible environment arguments _ o h]
    exact shown_congr p files _ huntuned hworker
  exact Prod.mk.inj hsame

/-- An index with one definition that nothing uses. -/
def lonelyIndex : FileTree :=
  ⟨[], [(["app.scip"], .file
    [18, 18, 10, 4, 97, 46, 114, 115, 18, 10, 10, 3, 1, 3, 7, 18, 1, 115, 24, 1])]⟩

/-- A system without an indexer, whose standard output takes every line. -/
def withoutIndexer : Platform where
  execute := fun _ _ _ => .notStarted ⟨.missing, .here⟩
  parse := Source.parser
  readers := Readers.library
  processors := none
  takes := fun _ _ => true

/-- The definition is printed by a run with eight workers, and so it is by a run that
writes a full log and the counts.  A run without a worker prints nothing. -/
theorem output_all_or_nothing_lonelyIndex :
    (run withoutIndexer lonelyIndex none ["app.scip", "-j8"]).stdout =
        "a.rs:2:4: unused <unknown> 's'\n" ∧
      (run withoutIndexer lonelyIndex (some "INFO")
          ["--summary", "app.scip", "--log-level=DEBUG"]).stdout =
        "a.rs:2:4: unused <unknown> 's'\n" ∧
      (run withoutIndexer lonelyIndex (some "INFO")
          ["--summary", "app.scip", "--log-level=DEBUG"]).ending =
        (run withoutIndexer lonelyIndex none ["app.scip", "-j8"]).ending ∧
      (run withoutIndexer lonelyIndex none ["app.scip", "-j0"]).stdout = "" := by
  have hrequest : request ["app.scip", "-j8"] =
      .ok (.run "app.scip" { Options.unset with jobs := some 8 }) := by
    decide +kernel
  have hprinted : (run withoutIndexer lonelyIndex none ["app.scip", "-j8"]).stdout =
      "a.rs:2:4: unused <unknown> 's'\n" := by
    decide +kernel
  have hidle : request ["app.scip", "-j0"] =
      .ok (.run "app.scip" { Options.unset with jobs := some 0 }) := by
    decide +kernel
  obtain ⟨_, _, hsame⟩ := output_all_or_nothing withoutIndexer lonelyIndex none hrequest
  obtain ⟨_, hnothing, _⟩ := output_all_or_nothing withoutIndexer lonelyIndex none hidle
  obtain ⟨hstdout, hending⟩ := hsame (some "INFO")
    ["--summary", "app.scip", "--log-level=DEBUG"] "app.scip"
    { Options.unset with summary := true, logLevel := "DEBUG" } (by decide +kernel)
    (by decide +kernel) (by decide)
  exact ⟨hprinted, hstdout.trans hprinted, hending,
    hnothing (fun _ _ => rfl) (by decide +kernel)⟩

end CommandLine

end DeadSymbols
