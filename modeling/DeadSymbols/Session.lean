import DeadSymbols.Error
import DeadSymbols.Log

/-!
# Sessions

A session is a computation that reads and changes a file tree, writes to a log and may fail. What it
wrote before it failed stays written.
-/

namespace DeadSymbols

/-- What a session works on: the files it sees and the log it has written, oldest record first. -/
structure World where
  files : FileTree
  log : List Log.Record
  deriving DecidableEq, Repr

/-- A computation on a world that may fail. -/
abbrev Session := ExceptT Error (StateM World)

namespace Session

/-- The files as they are now. -/
def files : Session FileTree := return (← get).files

/-- Replaces the files. -/
def setFiles (files : FileTree) : Session Unit := modify fun w => { w with files := files }

/-- Writes to the log. -/
def note (level : Log.Level) (origin message : String) : Session Unit :=
  modify fun w => { w with log := w.log ++ [⟨level, origin, message⟩] }

/-- Writes several records to the log. -/
def notes (records : List Log.Record) : Session Unit :=
  modify fun w => { w with log := w.log ++ records }

/-- The value, or a failure with the error that the cause becomes. -/
def ofExcept {ε α : Type} (error : ε → Error) : Except ε α → Session α
  | .ok a => pure a
  | .error e => throw (error e)

/-- The content of a file that has to be readable. -/
def readFile (path : Path) : Session Text.Bytes := do
  ofExcept (Error.ofFileError (.unreadable path)) ((← files).read path)

end Session

end DeadSymbols
