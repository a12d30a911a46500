import DeadSymbols.Index.Analysis
import DeadSymbols.Index.Decode
import DeadSymbols.Region.Cache
import DeadSymbols.Settings.Basic

/-!
# Analysing a path

What a path is decides how it is analysed: the dump of a leaf unit stands for its whole build, an
index for itself, and a directory for the index that the indexer makes of it. Any other path is not
analysed. The parser of sources and what executes the indexer are given by the caller.
-/

namespace DeadSymbols

/-- What an analysis was made from. -/
inductive Evidence
  | dumps
  | index
  deriving DecidableEq, Repr

/-- What an analysis comes to. -/
structure Analysis where
  evidence : Evidence
  findings : List Finding
  counts : Counts
  deriving DecidableEq, Repr

namespace Analysis

/-- The name under which analyses are logged. -/
def origin : String := "deadsym.api"

/-- The name under which indexes are logged. -/
def indexOrigin : String := "deadsym.scip_analysis"

/-- The ending of the names of indexes. -/
def indexSuffix : String := ".scip"

/-- How many directories lie between a project and the dumps of its build. -/
def dumpDepth : Nat := 5

/-- The directory of the sources behind a dump: the project, if the dump lies as deep as a build
puts it, or the directory of the dump. -/
def sourceRoot (cwd : Location) (dump : Path) : Except FileError Path :=
  if dump.holdsNul then .error ⟨.nul, dump⟩
  else
    let place := dump.resolve cwd
    .ok ((place.ancestor? dumpDepth).getD place.parent)

/-- The record about an assembled build. -/
def assembledRecord (b : Build) (g : SymbolGraph) : Log.Record :=
  ⟨.info, origin, "assembled " ++ toString g.definitions.size ++ " definitions, " ++
    toString g.references.size ++ " referenced ids from " ++ toString g.covered.length ++
    " units (" ++ toString b.vendored.length ++ " vendored, " ++ toString b.stale.length ++
    " stale)"⟩

/-- The source for settings without macro suppression: it is never asked for a file. -/
def blindSource : Detector.Source Session :=
  ⟨fun _ _ => pure false, fun d r => Session.notes [RegionCache.suppressedRecord d r]⟩

/-- The findings on a graph. -/
def findingsOf (parse : Source.Parser) (settings : Settings) (dump : Path) (g : SymbolGraph) :
    Session (List Finding) := do
  let workers := some (settings.workers : Int)
  if settings.macroSuppression then
    let root ← match settings.sourceRoot with
      | some text => pure (Path.ofString text)
      | none => Session.ofExcept .refused (sourceRoot (← Session.files).cwd dump)
    let report := Detector.report g settings.policy (RegionCache.source parse) workers
    return (← report.run (.fresh root)).1
  else Detector.report g settings.policy blindSource workers

/-- The analysis of the build of a leaf unit. -/
def ofDump (parse : Source.Parser) (settings : Settings) (dump : Path) : Session Analysis := do
  let build ← Build.load dump (some (settings.workers : Int)) settings.vendorMarkers
  let g ← Session.ofExcept .schema (SymbolGraph.assemble build.units)
  Session.notes [assembledRecord build g]
  return ⟨.dumps, ← findingsOf parse settings dump g, Detector.counts g⟩

/-- The analysis of an index. -/
def ofIndexFile (path : Path) : Session Analysis := do
  match Index.ofBytes? (← Session.readFile path) with
  | none => throw (.invalidIndex path.toString)
  | some index =>
    Session.note .info indexOrigin ("parsed scip file " ++ path.toString ++ ": " ++
      toString index.documents.length ++ " documents")
    let a ← Session.ofExcept .occurrenceRange (IndexAnalysis.ofIndex index)
    return ⟨.index, a.report, a.counts⟩

/-- The analysis of a project, which is indexed first. The indexer works in the project, so it is
given absolute paths. -/
def ofProject (execute : Executor) (settings : Settings) (directory : Path) : Session Analysis := do
  let project := directory.resolve (← Session.files).cwd
  let output ←
    Indexer.indexPath project settings.indexer.outputDirectory settings.indexer.indexName
  let _ ← Indexer.run execute settings.indexer.command project output
  ofIndexFile output

/-- Whether a name has an ending, in upper or lower case. -/
def hasSuffix (path : Path) (suffix : String) : Bool :=
  suffix.toList.isSuffixOf (Text.lowerCase path.name).toList

/-- The analysis of a path; nothing for a path that is not analysed. -/
def ofPath (execute : Executor) (parse : Source.Parser) (settings : Settings) (path : Path) :
    Session (Option Analysis) := do
  if hasSuffix path indexSuffix then return some (← ofIndexFile path)
  if hasSuffix path Dump.suffix then return some (← ofDump parse settings path)
  if ← Session.ofExcept .refused ((← Session.files).hasDirectory path) then
    return some (← ofProject execute settings path)
  return none

end Analysis

end DeadSymbols
