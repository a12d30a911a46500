import DeadSymbols.Command.Builtin
import DeadSymbols.CommandLine.Run
import DeadSymbols.Settings.Format
import DeadSymbols.Source.Outline

/-!
# The program

The program takes a picture of the files around it, runs the command line on the picture, and
carries out what has changed in it. The picture shows what lies below the working directory and
below the directories that the arguments name or lie in.
-/

namespace DeadSymbols.Main

/-- The written form of a location. -/
def written (place : Location) : String := "/" ++ String.intercalate "/" place

/-- The tree with an entry more at a location. -/
def withEntry (tree : FileTree) (place : Location) (entry : Entry) : FileTree :=
  { tree with entries := (place, entry) :: tree.entries }

/-- The tree with what lies below a directory. What cannot be read is left out. -/
partial def withBelow (tree : FileTree) (place : Location) : IO FileTree := do
  let directory := (← IO.currentDir) / written place
  let mut tree := withEntry tree place .directory
  for item in ← directory.readDir do
    let inner := place ++ [item.fileName]
    if ← item.path.isDir then
      tree ← withBelow tree inner
    else
      try
        let content ← IO.FS.readBinFile item.path
        tree := withEntry tree inner (.file content.toList)
      catch _ => pure ()
  return tree

/-- The tree with what lies below the directory that an argument names or lies in, unless the tree
shows it already. -/
def withArgument (tree : FileTree) (argument : String) : IO FileTree := do
  let path := (Path.ofString argument).resolve tree.cwd
  let base ← IO.currentDir
  let place := if ← (base / written path.parts).isDir then path.parts else path.parent.parts
  if (tree.entry? place).isSome then return tree
  if ← (base / written place).isDir then
    withBelow { tree with entries := (FileTree.bare place).entries ++ tree.entries } place
  else return tree

/-- Removes the files and directories that a run has removed, and makes those that it has made or
changed. The picture shows what lies in a directory before the directory itself, and a run adds what
it makes at the end, so that what is removed is empty and what is made has a place. -/
def carryOut (before after : FileTree) : IO Unit := do
  for (place, entry) in before.entries.filter fun e => (after.entry? e.1).isNone do
    match entry with
    | .directory => IO.FS.removeDir (written place)
    | .file _ => IO.FS.removeFile (written place)
  for (place, entry) in after.entries.filter fun e => before.entry? e.1 ≠ some e.2 do
    match entry with
    | .directory => IO.FS.createDirAll (written place)
    | .file content => IO.FS.writeBinFile (written place) (ByteArray.mk content.toArray)

/-- The number of processors that the system shows, if it shows them. -/
def processors : IO (Option Nat) := do
  try
    let lines := (← IO.FS.readFile "/proc/cpuinfo").splitOn "\n"
    return some (lines.countP (·.startsWith "processor"))
  catch _ => return none

/-- What the program runs with. Its standard output takes every text. -/
def platform : IO CommandLine.Platform := do
  return {
    execute := Builtin.execute
    parse := Source.parser
    readers := Readers.library
    processors := ← processors
    takes := fun _ _ => true }

end DeadSymbols.Main

open DeadSymbols

/-- Runs the command line of the program. -/
def main (arguments : List String) : IO UInt32 := do
  let cwd := (Path.ofString (← IO.currentDir).toString).parts
  let mut files ← Main.withBelow (FileTree.bare cwd) cwd
  for argument in arguments do
    files ← Main.withArgument files argument
  let environment ← IO.getEnv "DEADSYM_LOG_LEVEL"
  let outcome := CommandLine.run (← Main.platform) files environment arguments
  Main.carryOut files outcome.files
  IO.print outcome.stdout
  IO.eprint outcome.stderr
  match outcome.ending with
  | .exit status => return status.toUInt32
  | .escape failure =>
    IO.eprintln failure.message
    return 1
