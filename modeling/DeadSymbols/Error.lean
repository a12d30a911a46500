import DeadSymbols.Command.Template
import DeadSymbols.Dump.Decode
import DeadSymbols.File.Tree
import DeadSymbols.Index.Basic
import DeadSymbols.Json
import DeadSymbols.Resolve

/-!
# Why an analysis fails

Every failure is a cause. Most causes are foreseen: a file that cannot be read, a dump or index that
is not one, an indexer that fails. These are reported to the user in words. The others end a run
without a report.
-/

namespace DeadSymbols

/-- The cause of a failure. -/
inductive Error
  /-- A file cannot be read. -/
  | unreadable (path : Path) (cause : FileError)
  /-- A directory cannot be listed. -/
  | unlistable (path : Path) (cause : FileError)
  /-- A directory cannot be made. -/
  | uncreatable (path : Path) (cause : FileError)
  /-- A file is not JSON. -/
  | invalidJson (path : Path)
  /-- A document is not a dump. -/
  | malformedDump (source : String) (cause : DumpFault)
  /-- A file is not an index. -/
  | invalidIndex (source : String)
  /-- An occurrence in an index has a range of the wrong length. -/
  | occurrenceRange (cause : RangeFault)
  /-- A record of a unit contradicts the unit's dependency table. -/
  | schema (cause : SchemaFault)
  /-- The indexer cannot be started. -/
  | toolNotStarted (tool : String) (cause : FileError)
  /-- The indexer gives up. -/
  | toolFailed (tool : String) (status : Int) (lastWords : List String)
  /-- The indexer succeeds but leaves no index. -/
  | toolWithoutOutput (tool : String) (output : Path)
  /-- Bytes that have to be text are not. -/
  | notUtf8 (cause : Text.Utf8Error)
  /-- A number is too long to be read. -/
  | integer (cause : IntegerFault)
  /-- A number that has to be an integer is infinite. -/
  | infinite
  /-- The system refuses a question about a path. -/
  | refused (cause : FileError)
  /-- A region ends before it starts. -/
  | invertedRegion
  /-- There are no workers to do the work. -/
  | noWorkers
  /-- The template of the indexer's command cannot be filled in. -/
  | template (cause : TemplateFault)
  /-- The indexer's command has no words. -/
  | emptyCommand
  deriving DecidableEq, Repr

namespace Error

/-- The error of a dump that could not be decoded. An infinite number is not foreseen. -/
def ofDumpFault (source : String) : DumpFault → Error
  | .infinite => .infinite
  | fault => .malformedDump source fault

/-- The error of an operation on a file, given what the operation was: a refusal of the system is
foreseen, a path that is none is not. -/
def ofFileError (foreseen : FileError → Error) (e : FileError) : Error :=
  if e.isSystem then foreseen e else .refused e

/-- Whether the user is told about the failure in words. -/
def isReported : Error → Bool
  | unreadable _ _ | unlistable _ _ | uncreatable _ _ | invalidJson _ | malformedDump _ _
  | invalidIndex _ | occurrenceRange _ | schema _ | toolNotStarted _ _ | toolFailed _ _ _
  | toolWithoutOutput _ _ => true
  | _ => false

/-- The wording of a failure. -/
def message : Error → String
  | unreadable path cause => "cannot read " ++ path.toString ++ ": " ++ cause.message
  | unlistable path cause => "cannot list " ++ path.toString ++ ": " ++ cause.message
  | uncreatable path cause => "cannot create " ++ path.toString ++ ": " ++ cause.message
  | invalidJson path => path.toString ++ ": invalid JSON"
  | malformedDump source cause =>
    source ++ ": malformed save-analysis data (" ++ cause.message ++ ")"
  | invalidIndex source => source ++ ": invalid SCIP index"
  | occurrenceRange cause => cause.message
  | schema cause => cause.message
  | toolNotStarted tool cause => "failed to start " ++ tool ++ ": " ++ cause.message
  | toolFailed tool status lastWords =>
    tool ++ " exited with status " ++ toString status ++
      (if lastWords.isEmpty then "" else ": " ++ String.intercalate " | " lastWords)
  | toolWithoutOutput tool output => tool ++ " did not produce " ++ output.toString
  | notUtf8 cause => cause.message
  | integer cause => Integer.faultMessage cause
  | infinite => "cannot convert float infinity to integer"
  | refused cause => cause.message
  | invertedRegion => "a region ends before it starts"
  | noWorkers => "max_workers must be greater than 0"
  | template _ => "the command template cannot be filled in"
  | emptyCommand => "the command is empty"

end Error

end DeadSymbols
