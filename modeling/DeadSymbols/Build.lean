import DeadSymbols.Session

/-!
# Loading a build

A build is found from one of its dumps, the leaf. The dumps in the same directory belong to the
build if their units are the leaf's unit or listed in its dependency table; others are stale, left
over from another compilation. A unit that was compiled in a place where vendored sources live is
part of the build but not of the analysis. The first dump that cannot be read ends the loading, and
so does an entry that the system refuses to describe.
-/

namespace DeadSymbols

/-- Where vendored sources live, unless the settings say otherwise. -/
def defaultVendorMarkers : List String :=
  [".cargo/registry/src/github.com", ".cargo/git/"]

/-- Whether a compilation directory is in a place where vendored sources live: one of the markers
occurs in it. An empty marker marks nothing. -/
def isVendored (markers : List String) (directory : String) : Bool :=
  markers.any fun marker => !marker.isEmpty && Text.occursIn marker directory

/-- The units that can belong to the build of a leaf. -/
def DependencyTable.admissible (leaf : DependencyTable) : List UnitId :=
  leaf.own :: leaf.externals.map (·.unit)

/-- How a dump next to a leaf relates to the leaf's build. -/
inductive Verdict
  | admitted
  | stale
  | vendored
  deriving DecidableEq, Repr

/-- The name of a verdict. -/
def Verdict.name : Verdict → String
  | .admitted => "admitted"
  | .stale => "stale"
  | .vendored => "vendored"

/-- The verdict on a unit compiled in a directory. -/
def Verdict.of (allowed : List UnitId) (markers : List String) (unit : UnitId)
    (directory : String) : Verdict :=
  if !allowed.contains unit then .stale
  else if isVendored markers directory then .vendored
  else .admitted

/-- A dump that was read, with its verdict. -/
structure Candidate where
  path : Path
  dump : Dump
  verdict : Verdict
  deriving DecidableEq, Repr

/-- A loaded build. -/
structure Build where
  leaf : Metadata
  units : List Dump
  vendored : List Path
  stale : List Path
  deriving DecidableEq, Repr

/-- The build of dumps with verdicts. -/
def Build.ofCandidates (leaf : Metadata) (cs : List Candidate) : Build :=
  { leaf
    units := (cs.filter fun c => c.verdict = .admitted).map (·.dump)
    vendored := (cs.filter fun c => c.verdict = .vendored).map (·.path)
    stale := (cs.filter fun c => c.verdict = .stale).map (·.path) }

namespace Dump

/-- The ending of the names of dumps. -/
def suffix : String := ".json"

/-- The dump with a file's content. -/
def ofBytes (path : Path) (content : Text.Bytes) : Except Error Dump :=
  match Text.strictText content with
  | .error e => .error (.notUtf8 e)
  | .ok text =>
    match Json.read text with
    | .error .malformed => .error (.invalidJson path)
    | .error (.integer fault) => .error (.integer fault)
    | .ok v =>
      match Dump.ofValue path.toString v with
      | .error fault => .error (Error.ofDumpFault path.toString fault)
      | .ok d => .ok d

/-- The dump in a file. -/
def readFrom (path : Path) : Session Dump := do
  Session.ofExcept id (ofBytes path (← Session.readFile path))

/-- The name of an entry of a directory that can be a dump. -/
def candidateName? (directory : Path) : String × Entry → Option String
  | (name, .file _) => if (directory.child name).suffix = suffix then some name else none
  | (_, .directory) => none

/-- The names among the entries of a directory that can be dumps, in order. -/
def candidateNames (directory : Path) (entries : List (String × Entry)) : List String :=
  (entries.filterMap (candidateName? directory)).mergeSort fun a b => (compare a b).isLE

/-- The files of a directory that can be dumps, in the order of their names. -/
def filesIn (files : FileTree) (directory : Path) : Except FileError (List Path) :=
  (files.list directory).map fun entries => (candidateNames directory entries).map directory.child

/-- The first refusal of the system among questions about the entries of a directory, each by its
path. -/
def refusalIn? (files : FileTree) (directory : Path) : Option FileError :=
  match files.list directory with
  | .error _ => none
  | .ok entries => entries.findSome? fun e =>
    match files.has (directory.child e.1) with
    | .error refusal => some refusal
    | .ok _ => none

/-- The files of a directory that can be dumps, in the order of their names. What an entry is has to
be asked by its path, so a path that the system refuses, of whatever entry, ends the search. -/
def candidatesIn (files : FileTree) (directory : Path) : Except Error (List Path) :=
  match filesIn files directory with
  | .error e => .error (Error.ofFileError (.unlistable directory) e)
  | .ok paths =>
    match refusalIn? files directory with
    | some refusal => .error (.refused refusal)
    | none => .ok paths

end Dump

namespace Build

/-- The name under which loading is logged. -/
def origin : String := "deadsym.loader"

/-- The record about a dump with a verdict. -/
def record (c : Candidate) : Log.Record :=
  match c.verdict with
  | .stale =>
    ⟨.debug, origin, "skipping " ++ c.path.toString ++ ": unit " ++ c.dump.unit.display ++
      " is not part of this build"⟩
  | .vendored => ⟨.info, origin, "ignoring vendored unit " ++ c.path.toString⟩
  | .admitted => ⟨.info, origin, "processing " ++ c.path.toString⟩

/-- Reads a dump and judges it. -/
def examine (allowed : List UnitId) (markers : List String) (path : Path) : Session Candidate := do
  let dump ← Dump.readFrom path
  let c : Candidate := ⟨path, dump, Verdict.of allowed markers dump.unit dump.metadata.directory⟩
  Session.notes [record c]
  return c

/-- Loads the build of the leaf in a file. If a number of workers is given there has to be one. -/
def load (leafPath : Path) (workers : Option Int) (markers : List String) : Session Build := do
  let leaf := (← Dump.readFrom leafPath).metadata
  let allowed := leaf.table.admissible
  let directory := leafPath.parent
  let paths ← Session.ofExcept id (Dump.candidatesIn (← Session.files) directory)
  if workers.any (· ≤ 0) then throw .noWorkers
  let candidates ← paths.mapM (examine allowed markers)
  return ofCandidates leaf candidates

end Build

end DeadSymbols
