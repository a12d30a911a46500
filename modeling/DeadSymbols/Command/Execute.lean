import DeadSymbols.File.Tree

/-!
# Running commands

What a command does is a function of its words, of the directory it is started in and of the files
it finds. It cannot be started, or it ends with a status, what it printed and the files it leaves.
-/

namespace DeadSymbols

/-- What becomes of a command. A status below zero is the number of the signal that ended it. -/
inductive ToolOutcome
  | notStarted (cause : FileError)
  | finished (status : Int) (output errors : Text.Bytes) (files : FileTree)

/-- A way to run commands, given by their words and the directory they are started in. -/
abbrev Executor := List String → Path → FileTree → ToolOutcome

end DeadSymbols
