import DeadSymbols.Command.Execute
import DeadSymbols.Session

/-!
# The indexer

An indexer is a command that reads a project and writes an index. Its words are templates in which
the project and the place for the index are filled in. It succeeds if it ends with status zero and
something stands at that place afterwards.
-/

namespace DeadSymbols

/-- How a project is indexed. -/
structure Indexer where
  command : List String
  /-- The directory for the index, seen from the project. -/
  outputDirectory : String
  indexName : String
  deriving DecidableEq, Repr

namespace Indexer

/-- The indexer to use unless the settings name another. -/
def default : Indexer :=
  ⟨["rust-analyzer", "scip", "\x7bproject\x7d", "--output", "\x7boutput\x7d"], "target",
    "index.scip"⟩

/-- The name under which the indexer is logged. -/
def origin : String := "deadsym.indexer"

/-- The place for the index of a project. Its directory is made if it is not there. -/
def indexPath (project : Path) (outputDirectory indexName : String) : Session Path := do
  let target := project.join (Path.ofString outputDirectory)
  let files ← Session.ofExcept (Error.ofFileError (.uncreatable target))
    ((← Session.files).makeDirectories target)
  Session.setFiles files
  return target.join (Path.ofString indexName)

/-- What is filled in for a name in a template. -/
def given (project output : Path) (name : String) : Option String :=
  if name = "project" then some project.toString
  else if name = "output" then some output.toString
  else none

/-- The words of the command for a project and a place for the index. -/
def words (template : List String) (project output : Path) : Except TemplateFault (List String) :=
  template.mapM (Template.fill (given project output))

/-- How many of the last lines that an indexer prints are shown when it fails. -/
def shownLines : Nat := 5

/-- The text that a command printed, with one way of ending lines. -/
def printed (bytes : Text.Bytes) : Except Text.Utf8Error String :=
  (Text.strictText bytes).map fun s => String.ofList (Text.withLineFeeds true s.toList)

/-- The last lines that a command printed: its errors or, if there are none, its output. -/
def lastWords (output errors : String) : List String :=
  let lines := Text.lines (Text.trim (if errors.isEmpty then output else errors))
  lines.drop (lines.length - shownLines)

/-- Runs an indexer on a project and gives the place of the index. -/
def run (execute : Executor) (template : List String) (project output : Path) : Session Path := do
  let args ← Session.ofExcept .template (words template project output)
  Session.note .info origin ("running " ++ String.intercalate " " args)
  match args with
  | [] => throw .emptyCommand
  | tool :: _ =>
    if args.any fun a => a.toList.contains (Char.ofNat 0) then
      throw (.refused ⟨.nul, Path.ofString tool⟩)
    match execute args project (← Session.files) with
    | .notStarted cause => throw (.toolNotStarted tool cause)
    | .finished status out err files =>
      Session.setFiles files
      let out ← Session.ofExcept .notUtf8 (printed out)
      let err ← Session.ofExcept .notUtf8 (printed err)
      if status ≠ 0 then throw (.toolFailed tool status (lastWords out err))
      if ← Session.ofExcept .refused (files.has output) then return output
      throw (.toolWithoutOutput tool output)

end Indexer

end DeadSymbols
