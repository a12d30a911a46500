import DeadSymbols.Detector
import DeadSymbols.Region.Collect
import DeadSymbols.Region.Set
import DeadSymbols.Session

/-!
# Remembered regions

The regions of a file are found when the file is first asked about for a unit and remembered from
then on, so later changes of the file do not matter to that unit. A file that cannot be read has no
regions, which is remembered too. A path that cannot even be handed to the system is another matter:
the question fails and nothing is remembered. Names are sequences of characters, so that such a path
is one with the character zero; half a surrogate pair, which no system takes either, is in no name.

The parser that makes the trees of sources is given by the caller.
-/

namespace DeadSymbols

/-- The regions known so far, by unit and file, and the directory that file names start from. -/
structure RegionCache where
  root : Path
  sets : Ledger (UnitId × String) RegionSet
  deriving DecidableEq, Repr

namespace RegionCache

/-- The name under which regions are logged. -/
def origin : String := "deadsym.macro_spans"

/-- The cache that knows nothing yet. -/
def fresh (root : Path) : RegionCache := ⟨root, .empty⟩

/-- Where the file of a key is looked for. -/
def pathOf (root : Path) (key : UnitId × String) : Path := root.join (Path.ofString key.2)

/-- The record about a function that is a macro. -/
def entryPointRecord (name : String) : Log.Record :=
  ⟨.info, origin, "found proc macro " ++ name⟩

/-- The record about a file without readable regions. -/
def unreadableRecord (path : Path) (cause : FileError) : Log.Record :=
  ⟨.warning, origin, "cannot read " ++ path.toString ++ " for macro ranges: " ++ cause.message⟩

/-- The record about a span in a region. -/
def mutedRecord (span : Span) (r : Region) : Log.Record :=
  ⟨.info, origin, span.display ++ ": unused ignored because of macro: " ++ r.start.display ++
    " till " ++ r.stop.display⟩

section

variable (parse : Source.Parser)

/-- The regions of the file at a path, with what is to be logged about them. -/
def find (files : FileTree) (path : Path) : Except Error (RegionSet × List Log.Record) :=
  match files.read path with
  | .error e =>
    if e.isSystem then .ok (.empty, [unreadableRecord path e]) else .error (.refused e)
  | .ok content =>
    let found := Region.search content (parse content)
    match RegionSet.ofList? (Region.inOrder found) with
    | none => .error .invertedRegion
    | some set => .ok (set, (found.filterMap (·.entryPoint)).map entryPointRecord)

/-- The regions of a file for a unit, the cache that knows them, and what is to be logged. -/
def regions (files : FileTree) (c : RegionCache) (unit : UnitId) (file : String) :
    Except Error (RegionSet × RegionCache × List Log.Record) :=
  match c.sets.get? (unit, file) with
  | some set => .ok (set, c, [])
  | none =>
    (find parse files (pathOf c.root (unit, file))).map fun (set, records) =>
      (set, { c with sets := c.sets.put (unit, file) set }, records)

/-- A session with a cache. -/
abbrev Lookup := StateT RegionCache Session

/-- The regions of a file for a unit, looked up in the cache. -/
def lookup (unit : UnitId) (file : String) : Lookup RegionSet := do
  match regions parse (← Session.files) (← get) unit file with
  | .error e => throw e
  | .ok (set, c, records) =>
    Session.notes records
    StateT.set c
    return set

/-- Whether a span of a unit lies in a region. -/
def inRegion (unit : UnitId) (span : Span) : Lookup Bool := do
  match (← lookup parse unit span.file).containing span with
  | none => return false
  | some r =>
    Session.notes [mutedRecord span r]
    return true

/-- The record about a definition that is not reported. -/
def suppressedRecord (d : Definition) (r : Reason) : Log.Record :=
  ⟨.debug, "deadsym.detector", d.span.display ++ ": '" ++ d.name ++ "' suppressed (" ++ r.name ++
    ")"⟩

/-- What the detector asks, answered from the cache. -/
def source : Detector.Source Lookup :=
  ⟨inRegion parse, fun d r => Session.notes [suppressedRecord d r]⟩

end

end RegionCache

end DeadSymbols
