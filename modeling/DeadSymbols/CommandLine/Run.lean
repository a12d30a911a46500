import DeadSymbols.Analysis
import DeadSymbols.CommandLine.Arguments
import DeadSymbols.Settings.File

/-!
# Running a command line

A run reads the settings, analyses the path and prints the report: findings to the standard output,
line by line, and the log, errors and counts to the standard error output. It ends with a status,
unless it fails in a way that is not reported. Such is a line that the standard output does not
take: the lines before it are printed and no more.
-/

namespace DeadSymbols.CommandLine

/-- The version of the program. -/
def version : String := "0.3.0"

/-- The lines that show how the program is called. -/
def usage : String :=
  "usage: deadsym [-h] [--config CONFIG] [-j JOBS] [--source-root SOURCE_ROOT]\n" ++
  "               [--log-level LOG_LEVEL] [--summary] [--version]\n" ++
  "               path\n"

/-- The text that explains the program. -/
def help : String :=
  usage ++
  "\n" ++
  "Report unused definitions from save-analysis dumps or a SCIP index\n" ++
  "\n" ++
  "positional arguments:\n" ++
  "  path                  save-analysis .json, .scip index, or project directory\n" ++
  "\n" ++
  "options:\n" ++
  "  -h, --help            show this help message and exit\n" ++
  "  --config CONFIG       Path to config (YAML or pyproject.toml)\n" ++
  "  -j JOBS, --jobs JOBS  Worker threads (default from config)\n" ++
  "  --source-root SOURCE_ROOT\n" ++
  "                        Root for resolving source files of macro ranges\n" ++
  "  --log-level LOG_LEVEL\n" ++
  "                        DEBUG|INFO|WARNING|ERROR\n" ++
  "  --summary             Print counts to stderr after the report\n" ++
  "  --version             show program's version number and exit\n"

/-- What a run takes from around it. -/
structure Platform where
  execute : Executor
  /-- The parser of sources. -/
  parse : Source.Parser
  /-- The readers of settings. -/
  readers : Readers
  /-- The number of processors, if it is known. -/
  processors : Option Nat
  /-- Whether the standard output takes a line after the lines before it. -/
  takes : List String → String → Bool

/-- A failure that is not reported. -/
inductive Escape
  | settings (fault : SettingsFault)
  | analysis (error : Error)
  /-- The standard output does not take a line. -/
  | printing (line : String)
  deriving DecidableEq, Repr

/-- The wording of a failure. -/
def Escape.message : Escape → String
  | .settings fault => fault.message
  | .analysis error => error.message
  | .printing line => "cannot print " ++ Text.quoted line

/-- How a run ends. -/
inductive Ending
  | exit (status : Nat)
  | escape (failure : Escape)
  deriving DecidableEq, Repr

/-- What a run leaves behind. -/
structure Outcome where
  ending : Ending
  stdout : String
  stderr : String
  files : FileTree
  deriving DecidableEq, Repr

/-- The line about an error. -/
def errorLine (message : String) : String := "error: " ++ message ++ "\n"

/-- The settings with the options of the command line, which win. -/
def adjust (s : Settings) (o : Options) (workers : Nat) : Settings :=
  { s with
    workers
    sourceRoot := if o.sourceRoot.isEmpty then s.sourceRoot else some o.sourceRoot }

/-- The number of workers that is asked for, which has to be one at least. -/
def workersFor (s : Settings) : Option Int → Option Nat
  | none => some s.workers
  | some n => if n < 1 then none else some n.toNat

/-- The line with the counts of an analysis. -/
def summaryLine (a : Analysis) : String :=
  String.intercalate ", " ((a.counts ++ [("unused", a.findings.length)]).map
    fun (name, n) => name ++ "=" ++ toString n) ++ "\n"

/-- The text of lines. -/
def textOf (lines : List String) : String := String.join (lines.map (· ++ "\n"))

/-- Prints lines after the lines before them, up to the first that is not taken: the lines that are
printed, and that one. -/
def print (takes : List String → String → Bool) (before : List String) :
    List String → List String × Option String
  | [] => (before, none)
  | line :: rest =>
    if takes before line then print takes (before ++ [line]) rest else (before, some line)

/-- The lines of a report. -/
def reportLines (found : List Finding) : List String := found.map Finding.display

/-- Prints a report: the text that is printed, and how the run ends. -/
def printReport (takes : List String → String → Bool) (found : List Finding) : String × Ending :=
  match print takes [] (reportLines found) with
  | (lines, none) => (textOf lines, .exit 0)
  | (lines, some line) => (textOf lines, .escape (.printing line))

section

variable (p : Platform)

/-- Analyses a path and prints the report. -/
def analyse (files : FileTree) (threshold : Log.Level) (settings : Settings) (path : Path)
    (summary : Bool) : Outcome :=
  let (result, world) := (Analysis.ofPath p.execute p.parse settings path).run.run ⟨files, []⟩
  let log := Log.text threshold world.log
  match result with
  | .error e =>
    if e.isReported then ⟨.exit 1, "", log ++ errorLine e.message, world.files⟩
    else ⟨.escape (.analysis e), "", log, world.files⟩
  | .ok none =>
    ⟨.exit 0, "", log ++ "Path '" ++ path.toString ++
      "' doesn't exist or has unknown extension\n", world.files⟩
  | .ok (some a) =>
    let (stdout, ending) := printReport p.takes a.findings
    let counts := if summary ∧ ending = .exit 0 then summaryLine a else ""
    ⟨ending, stdout, log ++ counts, world.files⟩

/-- Runs a request to analyse a path; `environment` is the log level that the environment asks
for. -/
def runPath (files : FileTree) (environment : Option String) (path : String) (o : Options) :
    Outcome :=
  let named := if o.config.isEmpty then none else some (Path.ofString o.config)
  match Settings.load p.readers p.processors files named ⟨1, files.cwd⟩ with
  | .error fault =>
    if fault.isReported then ⟨.exit 1, "", errorLine fault.message, files⟩
    else ⟨.escape (.settings fault), "", "", files⟩
  | .ok settings =>
    match workersFor settings o.jobs with
    | none => ⟨.exit 1, "", errorLine "--jobs must be >= 1", files⟩
    | some workers =>
      let threshold := Log.Level.threshold
        (Log.thresholdName (some o.logLevel) environment settings.logLevel)
      analyse p files threshold (adjust settings o workers) (Path.ofString path) o.summary

/-- Runs a command line. -/
def run (files : FileTree) (environment : Option String) (arguments : List String) : Outcome :=
  match request arguments with
  | .error misuse => ⟨.exit 2, "", usage ++ "deadsym: error: " ++ misuse.message ++ "\n", files⟩
  | .ok .help => ⟨.exit 0, help, "", files⟩
  | .ok .version => ⟨.exit 0, "deadsym " ++ version ++ "\n", "", files⟩
  | .ok (.run path options) => runPath p files environment path options

end

end DeadSymbols.CommandLine
