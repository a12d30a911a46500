import DeadSymbols.Command.Shell

/-!
# The commands that can be run

The commands an indexer may be made of: the shell, copying a file, and the two that only succeed or
fail. Any other command is one that does not exist.
-/

namespace DeadSymbols.Builtin

open Text (Bytes toBytes)

/-- The outcome of a script. -/
def ofScript (script : String) (arguments : List String) (files : FileTree) : ToolOutcome :=
  let s := Shell.runScript script arguments files
  .finished (s.ended.getD s.status) s.output s.errors s.files

/-- The outcome of the shell with its arguments. -/
def shell (files : FileTree) (args : List String) : ToolOutcome :=
  match args with
  | "-c" :: script :: rest => ofScript script (if rest.isEmpty then ["sh"] else rest) files
  | ["-c"] => .finished 2 [] (toBytes "sh: 0: -c requires an argument\n") files
  | [] => .finished 0 [] [] files
  | name :: rest =>
    match files.read (Path.ofString name) with
    | .ok content => ofScript (Text.lossyText content) (name :: rest) files
    | .error _ =>
      .finished 2 [] (toBytes ("sh: 0: cannot open " ++ name ++ ": No such file\n")) files

/-- The outcome of a utility. -/
def ofUtility (r : Utility.Result) : ToolOutcome :=
  .finished r.status r.output r.errors r.files

/-- The outcome of a program, started where the files are seen from. -/
def program (name : String) (args : List String) (files : FileTree) : ToolOutcome :=
  match name with
  | "sh" => shell files args
  | "cp" => ofUtility (Utility.cp files args)
  | "true" => .finished 0 [] [] files
  | "false" => .finished 1 [] [] files
  | _ => .notStarted ⟨.missing, ⟨0, [name]⟩⟩

/-- The outcome seen from another place. -/
def seenFrom (cwd : Location) : ToolOutcome → ToolOutcome
  | .finished status output errors files =>
    .finished status output errors { files with cwd := cwd }
  | outcome => outcome

/-- Runs a command in a directory. -/
def execute : Executor := fun words directory files =>
  match words with
  | [] => .notStarted ⟨.missing, .here⟩
  | name :: args =>
    match files.locate directory with
    | .error fault => .notStarted ⟨fault, directory⟩
    | .ok place =>
      match files.entry? place with
      | none => .notStarted ⟨.missing, directory⟩
      | some (.file _) => .notStarted ⟨.notDirectory, directory⟩
      | some .directory => seenFrom files.cwd (program name args { files with cwd := place })

end DeadSymbols.Builtin
