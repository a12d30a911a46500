import DeadSymbols.Command.Script
import DeadSymbols.Command.Utility

/-!
# A small shell

Runs short scripts such as indexers are wrapped in. Commands are the utilities and the few that
concern the shell itself. What runs in a pipe or between parentheses has a state of its own: only
files, output and status come back from it.
-/

namespace DeadSymbols.Shell

open Text (Bytes toBytes)

/-- Where the output of a command goes. -/
inductive Sink
  | output
  | errors
  | file (path : Path)
  | pipe
  | nowhere
  deriving DecidableEq, Repr

/-- The streams of a command. -/
structure Streams where
  input : Bytes
  output : Sink
  errors : Sink

/-- The state of a shell. -/
structure State where
  files : FileTree
  output : Bytes
  errors : Bytes
  status : Nat
  /-- The variables and their values, those set last first. -/
  bindings : List (String × String)
  /-- The name the shell goes by and the arguments of the script. -/
  arguments : List String
  /-- What was sent through the pipe that is being written. -/
  passed : Bytes
  /-- Whether a command that fails ends the shell. -/
  strict : Bool
  /-- How the shell ended, once it has. -/
  ended : Option Int

/-- The number the shell knows itself by. -/
def ownNumber : String := "4242"

namespace State

/-- The value of a variable. -/
def value (s : State) (name : String) : String :=
  if name = "$" then ownNumber
  else if name = "?" then toString s.status
  else if name = "#" then toString (s.arguments.length - 1)
  else if name = "@" || name = "*" then String.intercalate " " s.arguments.tail
  else if name = "PWD" then (Path.mk 1 s.files.cwd).toString
  else
    match name.toNat? with
    | some n => s.arguments.getD n ""
    | none => (s.bindings.lookup name).getD ""

/-- The characters of a word, those at which it is divided marked. -/
def marked (s : State) (w : Word) : List (Char × Bool) :=
  w.parts.flatMap fun
    | .text cs => cs.map (·, false)
    | .parameter name quoted =>
      (s.value name).toList.map fun c => (c, !quoted && (c == ' ' || c == '\t' || c == '\n'))

/-- The words that a word becomes. -/
def expand (s : State) (w : Word) : List String :=
  let pieces := (s.marked w).splitBy fun a b => !a.2 && !b.2
  let fields := (pieces.filter fun p => p.any fun c => !c.2).map fun p =>
    String.ofList (p.map (·.1))
  if fields.isEmpty && w.quoted then [""] else fields

/-- The one word that a word becomes where it is not divided. -/
def expandOne (s : State) (w : Word) : String :=
  String.ofList ((s.marked w).map (·.1))

/-- The state with bytes sent to a sink. -/
def send (s : State) (bytes : Bytes) : Sink → State
  | .output => { s with output := s.output ++ bytes }
  | .errors => { s with errors := s.errors ++ bytes }
  | .pipe => { s with passed := s.passed ++ bytes }
  | .nowhere => s
  | .file path =>
    match s.files.read path with
    | .error _ => s
    | .ok content =>
      match s.files.write path (content ++ bytes) with
      | .ok files => { s with files := files }
      | .error _ => s

/-- What the shell says about a line of the script. -/
def remark (s : State) (line : Nat) (message : String) : Bytes :=
  toBytes (s.arguments.headD "sh" ++ ": " ++ toString line ++ ": " ++ message ++ "\n")

/-- The state with a complaint about a line of the script, and a status. -/
def complain (s : State) (t : Streams) (line status : Nat) (message : String) : State :=
  { s.send (s.remark line message) t.errors with status := status }

/-! ## Redirections -/

/-- The streams with one of them leading to a sink. -/
def lead (t : Streams) (stream : Nat) (sink : Sink) : Streams :=
  if stream = 2 then { t with errors := sink } else { t with output := sink }

/-- The streams after one redirection, and the state in which the file is open; or the complaint. -/
def redirect (s : State) (t : Streams) (r : Redirection) : Except String (State × Streams) :=
  let name := s.expandOne r.target
  let path := Path.ofString name
  match r.direction with
  | .read =>
    match Utility.contentOf s.files name with
    | .ok content => .ok (s, { t with input := content })
    | .error e =>
      .error ("cannot open " ++ name ++ ": " ++
        (if e.fault = .missing then "No such file" else Utility.reason e))
  | .same => .ok (s, lead t r.stream (if name = "2" then t.errors else t.output))
  | direction =>
    if name = Utility.nullDevice then .ok (s, lead t r.stream .nowhere)
    else
      let kept := if direction = .append then (s.files.read path).toOption.getD [] else []
      match s.files.write path kept with
      | .error e =>
        .error ("cannot create " ++ name ++ ": " ++
          (if e.fault = .missing then "Directory nonexistent" else Utility.reason e))
      | .ok files => .ok ({ s with files := files }, lead t r.stream (.file path))

/-- The streams after several redirections. -/
def redirectAll (s : State) (t : Streams) : List Redirection → Except String (State × Streams)
  | [] => .ok (s, t)
  | r :: rest =>
    match s.redirect t r with
    | .error message => .error message
    | .ok (s', t') => s'.redirectAll t' rest

/-! ## Simple commands -/

/-- The numbers of signals by name. -/
def signals : List (String × Nat) :=
  [("HUP", 1), ("INT", 2), ("QUIT", 3), ("ILL", 4), ("TRAP", 5), ("ABRT", 6), ("BUS", 7),
   ("FPE", 8), ("KILL", 9), ("USR1", 10), ("SEGV", 11), ("USR2", 12), ("PIPE", 13), ("ALRM", 14),
   ("TERM", 15)]

/-- The number of a signal. -/
def signalNumber? (name : String) : Option Nat :=
  (name.toNat?).or (signals.lookup (if "SIG".toList.isPrefixOf name.toList then
    String.ofList (name.toList.drop 3) else name))

/-- The signal that a list of arguments sends to the shell itself. -/
def ownSignal? (arguments : List String) : Option Nat :=
  let toSelf (target : String) (n : Option Nat) := if target = ownNumber then n else none
  match arguments with
  | [target] => toSelf target (some 15)
  | ["-s", name, target] => toSelf target (signalNumber? name)
  | [option, target] =>
    match option.toList with
    | '-' :: name => toSelf target (signalNumber? (String.ofList name))
    | _ => none
  | _ => none

/-- The variable and value of a word that sets a variable. -/
def assignment? (word : String) : Option (String × String) :=
  let cs := word.toList
  let name := String.ofList (cs.takeWhile isNameChar)
  match cs.drop name.length with
  | '=' :: value => if isName name then some (name, String.ofList value) else none
  | _ => none

/-- The state with variables set. -/
def assign (s : State) (settings : List (String × String)) : State :=
  { s with bindings := settings.reverse ++ s.bindings }

/-- The state with a status, as the end of the shell. -/
def finish (s : State) (status : Int) : State := { s with ended := some status }

/-- The state after the shell is told to end. -/
def exit (s : State) (t : Streams) (line : Nat) (name : String) : List String → State
  | [] => s.finish s.status
  | arg :: _ =>
    match arg.toNat? with
    | some n => s.finish (n % 256 : Nat)
    | none => (s.complain t line 2 (name ++ ": Illegal number: " ++ arg)).finish 2

/-- The state after a utility, or nothing if there is no utility of that name. -/
def utility? (s : State) (t : Streams) (line : Nat) (name : String) (args : List String) :
    Option State :=
  (Utility.run? name s.files t.input args).map fun r =>
    let s := { s with files := r.files, status := r.status }
    let s := r.complaints.foldl (fun s message => s.send (s.remark line message) t.errors) s
    (s.send r.output t.output).send r.errors t.errors

/-- The state after a command with its words and streams. -/
def run (s : State) (line : Nat) (words : List String) (t : Streams) : State :=
  match words with
  | [] => { s with status := 0 }
  | name :: args =>
    match name with
    | "exit" => s.exit t line name args
    | "return" => s.exit t line name args
    | "kill" =>
      match ownSignal? args with
      | some 0 => { s with status := 0 }
      | some n => s.finish (-(n : Int))
      | none => s.complain t line 1 "kill: No such process\n"
    | "cd" =>
      let target := args.headD "/"
      match s.files.locate (Path.ofString target), s.files.hasDirectory (Path.ofString target) with
      | .ok place, .ok true => { s with files := { s.files with cwd := place }, status := 0 }
      | _, _ => s.complain t line 2 ("cd: can't cd to " ++ target)
    | "export" => { s.assign (args.filterMap assignment?) with status := 0 }
    | "unset" =>
      { s with bindings := s.bindings.filter fun v => !args.contains v.1, status := 0 }
    | "set" =>
      let strict := if args.contains "-e" then true else if args.contains "+e" then false
        else s.strict
      { s with strict := strict, status := 0 }
    | "exec" =>
      match args with
      | [] => { s with status := 0 }
      | name :: args =>
        match s.utility? t line name args with
        | some s => s.finish s.status
        | none => (s.complain t line 127 ("exec: " ++ name ++ ": not found")).finish 127
    | _ =>
      (s.utility? t line name args).getD (s.complain t line 127 (name ++ ": not found"))

/-- The state after a simple command. Settings of variables before a command hold for that command
only, and none of the commands looks at them. -/
def simple (s : State) (t : Streams) (line : Nat) (words : List Word)
    (redirections : List Redirection) : State :=
  match s.redirectAll t redirections with
  | .error message => s.complain t line 2 message
  | .ok (s', t') =>
    let sets := words.takeWhile fun w => (assignment? (s'.expandOne w)).isSome
    let rest := words.drop sets.length
    if rest.isEmpty then
      { s'.assign (sets.filterMap fun w => assignment? (s'.expandOne w)) with status := 0 }
    else s'.run line (rest.flatMap s'.expand) t'

/-- The state after a command that may end a strict shell. -/
def settle (tested : Bool) (s : State) : State :=
  if s.strict && !tested && s.status ≠ 0 && s.ended.isNone then s.finish s.status else s

/-- The state after commands with a state of their own. A signal that ends them is one to the shell
itself. -/
def rejoin (s inner : State) : State :=
  let back := { s with
    files := { inner.files with cwd := s.files.cwd }
    output := inner.output
    errors := inner.errors
    passed := inner.passed }
  match inner.ended with
  | none => { back with status := inner.status }
  | some n => if n < 0 then back.finish n else { back with status := n.toNat }

/-! ## Scripts -/

/-- Repeats a body as long as a test says so; `fuel` bounds the rounds. -/
def loop (negate : Bool) (test body : State → State) : Nat → State → State
  | 0, s => s
  | fuel + 1, s =>
    let tested := test s
    if tested.ended.isSome then tested
    else if (tested.status == 0) == negate then { tested with status := 0 }
    else
      let s := body tested
      if s.ended.isSome then s else loop negate test body fuel s

/-- The number of rounds after which a loop is given up. -/
def maxRounds : Nat := 100000

/-- The state after a script. `tested` says that someone looks at how it ends, so that a failure is
no reason for a strict shell to end. -/
def eval : Script → Bool → Streams → State → State
  | .nothing, _, _, s => s
  | .simple line words redirections, tested, t, s =>
    if s.ended.isSome then s else settle tested (s.simple t line words redirections)
  | .pipe first second, tested, t, s =>
    if s.ended.isSome then s
    else
      let left := eval first tested { t with output := .pipe } { s with passed := [] }
      let middle := s.rejoin left
      let right := eval second tested { t with input := left.passed }
        { middle with passed := s.passed }
      if middle.ended.isSome then middle else settle tested (middle.rejoin right)
  | .both first second, tested, t, s =>
    let s := eval first true t s
    if s.status = 0 then eval second tested t s else s
  | .either first second, tested, t, s =>
    let s := eval first true t s
    if s.status = 0 then s else eval second tested t s
  | .sequence first second, tested, t, s => eval second tested t (eval first tested t s)
  | .negated body, _, t, s =>
    let s := eval body true t s
    if s.ended.isSome then s else { s with status := if s.status = 0 then 1 else 0 }
  | .group own body line redirections, tested, t, s =>
    if s.ended.isSome then s
    else
      match s.redirectAll t redirections with
      | .error message => settle tested (s.complain t line 2 message)
      | .ok (s, t) =>
        if own then settle tested (s.rejoin (eval body tested t s)) else eval body tested t s
  | .conditional test yes no, tested, t, s =>
    let s := eval test true t s
    if s.ended.isSome then s
    else if s.status = 0 then eval yes tested t s
    else eval no tested t { s with status := 0 }
  | .loop negate test body, tested, t, s =>
    loop negate (eval test true t) (eval body tested t) maxRounds s
  | .forEach name words body, tested, t, s =>
    (words.flatMap s.expand).foldl
      (fun s word => if s.ended.isSome then s else eval body tested t (s.assign [(name, word)]))
      { s with status := 0 }

end State

/-- How a script ends, started with files and arguments. -/
def runScript (script : String) (arguments : List String) (files : FileTree) : State :=
  let (parts, mistake) := scriptLines script
  let streams : Streams := ⟨[], .output, .errors⟩
  let s := parts.foldl (fun s part => State.eval part false streams s)
    ⟨files, [], [], 0, [], arguments, [], false, none⟩
  match mistake with
  | some (line, message) =>
    if s.ended.isSome then s
    else (s.complain streams line 2 ("Syntax error: " ++ message)).finish 2
  | none => s

end DeadSymbols.Shell
