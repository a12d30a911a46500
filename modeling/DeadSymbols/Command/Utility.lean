import DeadSymbols.Command.Execute

/-!
# Utilities

The small programs that commands are made of: printing, copying, making and removing files. Each is
a function from its arguments, its input and the files to its status, its output and the files it
leaves.
-/

namespace DeadSymbols.Utility

open Text (Bytes toBytes)

/-- What a utility leaves behind. -/
structure Result where
  status : Nat
  output : Bytes
  errors : Bytes
  files : FileTree
  /-- Messages that the shell prints in its own name. -/
  complaints : List String := []

/-- Success with some output. -/
def success (files : FileTree) (output : Bytes) : Result := ⟨0, output, [], files, []⟩

/-- Failure with a message. -/
def failure (files : FileTree) (message : String) : Result :=
  ⟨1, [], toBytes (message ++ "\n"), files, []⟩

/-- The file that is always empty. -/
def nullDevice : String := "/dev/null"

/-- The content of a file. -/
def contentOf (files : FileTree) (name : String) : Except FileError Bytes :=
  if name = nullDevice then .ok [] else files.read (Path.ofString name)

/-- The system's wording of a fault, without its number. -/
def reason (e : FileError) : String :=
  match e.fault with
  | .missing => "No such file or directory"
  | .present => "File exists"
  | .notDirectory => "Not a directory"
  | .isDirectory => "Is a directory"
  | .nameTooLong => "File name too long"
  | .nul => "No such file or directory"

/-- The character after a backslash and what it stands for, where that is one character. -/
def plainEscapes : List (Char × Nat) :=
  [('a', 7), ('b', 8), ('f', 12), ('n', 10), ('r', 13), ('t', 9), ('v', 11), ('\\', 92)]

/-- The bytes of a text in which backslashes are escapes, and whether an escape says to print no
more. An escape of digits is one byte, written in base eight; `leadingZero` says whether such an
escape begins with a zero that does not count. -/
def unescape (leadingZero : Bool) : Nat → List Char → Bytes × Bool
  | 0, _ => ([], false)
  | _ + 1, [] => ([], false)
  | fuel + 1, '\\' :: c :: rest =>
    if leadingZero && c = 'c' then ([], true)
    else
      let start := if leadingZero then rest else c :: rest
      let digits := (start.take 3).takeWhile fun d => '0' ≤ d && d ≤ '7'
      let (byte, after) : UInt8 × List Char :=
        match plainEscapes.lookup c with
        | some n => (UInt8.ofNat n, rest)
        | none =>
          if (leadingZero && c = '0') || (!leadingZero && !digits.isEmpty) then
            (UInt8.ofNat (Text.spelled 8 digits), start.drop digits.length)
          else (92, c :: rest)
      let (more, stopped) := unescape leadingZero fuel after
      (byte :: more, stopped)
  | fuel + 1, c :: rest =>
    let (more, stopped) := unescape leadingZero fuel rest
    (toBytes (String.singleton c) ++ more, stopped)

/-- Prints its arguments on one line. A first argument `-n` leaves the end of the line out. -/
def echo (files : FileTree) (args : List String) : Result :=
  let (ending, args) : Bytes × List String :=
    match args with
    | "-n" :: rest => ([], rest)
    | _ => ([10], args)
  let cs := (String.intercalate " " args).toList
  let (shown, stopped) := unescape true (cs.length + 1) cs
  success files (if stopped then shown else shown ++ ending)

/-- How an argument is printed: from the left or with zeros, and how wide at least. -/
structure Field where
  left : Bool
  zeros : Bool
  width : Nat
  precision : Option Nat

/-- The flags, width and precision after a percent sign, and what follows. -/
def fieldAt (cs : List Char) : Field × List Char :=
  let flags := cs.takeWhile fun c => "-+ 0#".toList.contains c
  let cs := cs.drop flags.length
  let width := cs.takeWhile Text.isAsciiDigit
  let cs := cs.drop width.length
  let (precision, cs) : Option Nat × List Char :=
    match cs with
    | '.' :: rest =>
      let digits := rest.takeWhile Text.isAsciiDigit
      (some (Text.spelled 10 digits), rest.drop digits.length)
    | _ => (none, cs)
  (⟨flags.contains '-', flags.contains '0', Text.spelled 10 width, precision⟩, cs)

/-- A text printed in a field. -/
def Field.fill (f : Field) (number : Bool) (cs : List Char) : List Char :=
  let pad := f.width - cs.length
  if f.left then cs ++ List.replicate pad ' '
  else if number && f.zeros then
    match cs with
    | '-' :: digits => '-' :: (List.replicate pad '0' ++ digits)
    | _ => List.replicate pad '0' ++ cs
  else List.replicate pad ' ' ++ cs

/-- A number as it is printed under a letter. -/
def numeral (letter : Char) (n : Int) : List Char :=
  let size := n.toNat
  if letter = 'x' then Nat.toDigits 16 size
  else if letter = 'X' then (Nat.toDigits 16 size).map Char.toUpper
  else if letter = 'o' then Nat.toDigits 8 size
  else (toString n).toList

/-- What printing comes to so far: bytes, arguments that are left, complaints. -/
structure Printing where
  shown : Bytes
  left : List String
  complaints : List String
  stopped : Bool

/-- One argument printed in a field, under a letter. -/
def Printing.argument (p : Printing) (f : Field) (letter : Char) : Printing :=
  let arg := p.left.headD ""
  let p := { p with left := p.left.tail }
  let shown (number : Bool) (cs : List Char) : Printing :=
    { p with shown := p.shown ++ toBytes (String.ofList (f.fill number cs)) }
  if letter = 's' then
    shown false (match f.precision with
      | some n => arg.toList.take n
      | none => arg.toList)
  else if letter = 'c' then shown false (arg.toList.take 1)
  else if letter = 'b' then
    let (bytes, stopped) := unescape true (arg.length + 1) arg.toList
    { p with shown := p.shown ++ bytes, stopped := stopped }
  else if arg.isEmpty then shown true (numeral letter 0)
  else
    match arg.toInt? with
    | some n => shown true (numeral letter n)
    | none =>
      { shown true (numeral letter 0) with
        complaints := p.complaints ++ ["printf: " ++ arg ++ ": expected numeric value"] }

/-- One pass over a format. -/
def formatPass : Nat → List Char → Printing → Printing
  | 0, _, p => p
  | _ + 1, [], p => p
  | fuel + 1, '%' :: '%' :: rest, p => formatPass fuel rest { p with shown := p.shown ++ [37] }
  | fuel + 1, '%' :: rest, p =>
    match fieldAt rest with
    | (_, []) => p
    | (f, letter :: rest') =>
      let p := p.argument f letter
      if p.stopped then p else formatPass fuel rest' p
  | fuel + 1, '\\' :: c :: rest, p =>
    let digits := ((c :: rest).take 3).takeWhile fun d => '0' ≤ d && d ≤ '7'
    let size := max 1 digits.length
    let (bytes, _) := unescape false (size + 2) ('\\' :: (c :: rest).take size)
    formatPass fuel ((c :: rest).drop size) { p with shown := p.shown ++ bytes }
  | fuel + 1, c :: rest, p =>
    formatPass fuel rest { p with shown := p.shown ++ toBytes (String.singleton c) }

/-- Passes over a format until no argument is left; a pass that takes none is the last. -/
def formatPasses : Nat → List Char → Printing → Printing
  | 0, _, p => p
  | fuel + 1, format, p =>
    let p' := formatPass (format.length + 1) format p
    if p'.stopped || p'.left.isEmpty || p'.left.length = p.left.length then p'
    else formatPasses fuel format p'

/-- Prints its arguments by a format. -/
def printf (files : FileTree) : List String → Result
  | [] => ⟨2, [], [], files, ["printf: usage: printf format [arg ...]"]⟩
  | format :: args =>
    let p := formatPasses (args.length + 1) format.toList ⟨[], args, [], false⟩
    ⟨if p.complaints.isEmpty then 0 else 1, p.shown, [], files, p.complaints⟩

/-- Prints the content of files, or its input. -/
def cat (files : FileTree) (input : Bytes) (args : List String) : Result :=
  if args.isEmpty then success files input
  else
    args.foldl (fun (r : Result) arg =>
      if arg = "-" then { r with output := r.output ++ input }
      else
        match contentOf files arg with
        | .ok content => { r with output := r.output ++ content }
        | .error e =>
          { r with
            status := 1
            errors := r.errors ++ toBytes ("cat: " ++ arg ++ ": " ++ reason e ++ "\n") })
      (success files [])

/-- The path that a file goes to: into the target if that is a directory, else the target itself. -/
def destination (files : FileTree) (source target : String) : Path :=
  let p := Path.ofString target
  match files.hasDirectory p with
  | .ok true => p.child (Path.ofString source).name
  | _ => p

/-- What is said about too few operands. -/
def missingOperand (files : FileTree) (tool : String) (operands : List String) : Result :=
  let hint := "\nTry '" ++ tool ++ " --help' for more information."
  match operands with
  | [a] => failure files (tool ++ ": missing destination file operand after '" ++ a ++ "'" ++ hint)
  | _ => failure files (tool ++ ": missing file operand" ++ hint)

/-- The options and the operands among arguments. -/
def splitOptions : List String → List String × List String
  | [] => ([], [])
  | "--" :: rest => ([], rest)
  | arg :: rest =>
    let (options, operands) := splitOptions rest
    if "-".toList.isPrefixOf arg.toList && arg ≠ "-" then (arg :: options, operands)
    else (options, arg :: operands)

/-- What lies in a directory: the names from there and what stands there. -/
def below (files : FileTree) (directory : Location) : List (Location × Entry) :=
  files.entries.filterMap fun (place, entry) =>
    if directory.isPrefixOf place && place.length ≠ directory.length then
      some (place.drop directory.length, entry)
    else none

/-- Copies a directory with what lies in it. -/
def copyTree (files : FileTree) (source target : Path) : Except FileError FileTree := do
  let start ← (files.locate source).mapError fun fault => ⟨fault, source⟩
  let files ← files.makeDirectories target
  (below files start).foldlM (fun files (names, entry) =>
    files.create ⟨target.slashes, target.parts ++ names⟩ entry) files

/-- Copies one file or, if asked to, one directory. -/
def copyOne (files : FileTree) (recursive : Bool) (source target : String) :
    Except String FileTree :=
  let p := destination files source target
  let shown := if p = Path.ofString target then target else p.toString
  match files.stat (Path.ofString source) with
  | .error e => .error ("cannot stat '" ++ source ++ "': " ++ reason e)
  | .ok .directory =>
    if recursive then
      (copyTree files (Path.ofString source) p).mapError fun e =>
        "cannot create directory '" ++ shown ++ "': " ++ reason e
    else .error ("-r not specified; omitting directory '" ++ source ++ "'")
  | .ok (.file content) =>
    if (files.locate (Path.ofString source)).toOption = (files.locate p).toOption then
      .error ("'" ++ source ++ "' and '" ++ shown ++ "' are the same file")
    else
      (files.write p content).mapError fun e =>
        "cannot create regular file '" ++ shown ++ "': " ++ reason e

/-- Copies files. Several go into a directory. -/
def cp (files : FileTree) (args : List String) : Result :=
  let (options, operands) := splitOptions args
  let recursive := options.any fun o => o.toList.any fun c => c == 'r' || c == 'R' || c == 'a'
  match operands with
  | source :: second :: more =>
    let target := (second :: more).getLast?.getD second
    let isDirectory := (files.hasDirectory (Path.ofString target)).toOption.getD false
    if !more.isEmpty && !isDirectory then
      let fault := if (files.stat (Path.ofString target)).toOption.isSome then "Not a directory"
        else "No such file or directory"
      failure files ("cp: target '" ++ target ++ "': " ++ fault)
    else
      (source :: (second :: more).dropLast).foldl (fun (r : Result) source =>
        match copyOne r.files recursive source target with
        | .ok files => { r with files := files }
        | .error message =>
          { r with status := 1, errors := r.errors ++ toBytes ("cp: " ++ message ++ "\n") })
        (success files [])
  | _ => missingOperand files "cp" operands

/-- Moves a file. -/
def mv (files : FileTree) (args : List String) : Result :=
  match args with
  | [source, target] =>
    match files.read (Path.ofString source) with
    | .error e => failure files ("mv: cannot stat '" ++ source ++ "': " ++ reason e)
    | .ok content =>
      match files.write (destination files source target) content with
      | .error e => failure files ("mv: cannot move '" ++ source ++ "' to '" ++ target ++ "': " ++
          reason e)
      | .ok files' =>
        match files'.remove (Path.ofString source) with
        | .ok files'' => success files'' []
        | .error _ => success files' []
  | _ => missingOperand files "mv" args

/-- Does something to each argument, of which those that start with a dash are options. -/
def each (files : FileTree) (args : List String)
    (act : FileTree → List String → String → Except String FileTree) : Result :=
  let (options, names) := args.partition fun a => "-".toList.isPrefixOf a.toList
  names.foldl (fun (r : Result) name =>
    match act r.files options name with
    | .ok files' => { r with files := files' }
    | .error message =>
      { r with status := 1, errors := r.errors ++ toBytes (message ++ "\n") })
    (success files [])

/-- Removes files. -/
def rm (files : FileTree) (args : List String) : Result :=
  each files args fun files options name =>
    match files.remove (Path.ofString name) with
    | .ok files' => .ok files'
    | .error e =>
      if options.any (·.toList.contains 'f') && e.fault = .missing then .ok files
      else .error ("rm: cannot remove '" ++ name ++ "': " ++ reason e)

/-- Makes directories. -/
def mkdir (files : FileTree) (args : List String) : Result :=
  each files args fun files options name =>
    let p := Path.ofString name
    match if options.contains "-p" then files.makeDirectories p else files.makeDirectory p with
    | .ok files' => .ok files'
    | .error e => .error ("mkdir: cannot create directory '" ++ name ++ "': " ++ reason e)

/-- Makes empty files where there are none. -/
def touch (files : FileTree) (args : List String) : Result :=
  each files args fun files _ name =>
    let p := Path.ofString name
    match files.stat p with
    | .ok _ => .ok files
    | .error _ =>
      match files.write p [] with
      | .ok files' => .ok files'
      | .error e => .error ("touch: cannot touch '" ++ name ++ "': " ++ reason e)

/-- Answers a question about files and texts by its status. -/
def test (files : FileTree) (args : List String) : Result :=
  let stat (name : String) := (files.stat (Path.ofString name)).toOption
  let holds : List String → Bool
    | ["-e", name] => (stat name).isSome
    | ["-f", name] => match stat name with | some (.file _) => true | _ => false
    | ["-d", name] => stat name == some .directory
    | ["-s", name] => match stat name with | some (.file content) => content != [] | _ => false
    | ["-n", s] => !s.isEmpty
    | ["-z", s] => s.isEmpty
    | [a, "=", b] => a == b
    | [a, "!=", b] => a != b
    | [s] => !s.isEmpty
    | _ => false
  let answer := match args with
    | "!" :: rest => !holds rest
    | _ => holds args
  ⟨if answer then 0 else 1, [], [], files, []⟩

/-- The question of a test between brackets. -/
def bracketTest (files : FileTree) (args : List String) : Result :=
  if args.getLast? = some "]" then test files args.dropLast
  else ⟨2, [], [], files, ["[: missing ]"]⟩

/-- The utility of a name. -/
def run? (name : String) (files : FileTree) (input : Bytes) (args : List String) :
    Option Result :=
  match name with
  | "true" | ":" => some (success files [])
  | "sleep" => some (success files [])
  | "false" => some ⟨1, [], [], files, []⟩
  | "echo" => some (echo files args)
  | "printf" => some (printf files args)
  | "cat" => some (cat files input args)
  | "cp" => some (cp files args)
  | "mv" => some (mv files args)
  | "rm" => some (rm files args)
  | "mkdir" => some (mkdir files args)
  | "touch" => some (touch files args)
  | "test" => some (test files args)
  | "[" => some (bracketTest files args)
  | "pwd" => some (success files (toBytes ((Path.mk 1 files.cwd).toString ++ "\n")))
  | _ => none

end DeadSymbols.Utility
