import DeadSymbols.Number.Integer

/-!
# Arguments

The command line names one path and may set options. An option may be written with any beginning of
its long name that no other option shares, its value may follow it as an argument or stand behind an
equals sign, and a short option may have its value or other short options attached. Two dashes alone
end the options.

An argument that starts with a dash is an operand all the same if it is a negative number or has a
space in it.
-/

namespace DeadSymbols.CommandLine

/-- An option. -/
inductive Flag
  | help
  | config
  | jobs
  | sourceRoot
  | logLevel
  | summary
  | version
  deriving DecidableEq, Repr

/-- The spellings of the options, in the order in which messages list them. -/
def spellings : List (String × Flag) :=
  [("-h", .help), ("--help", .help), ("--config", .config), ("-j", .jobs), ("--jobs", .jobs),
   ("--source-root", .sourceRoot), ("--log-level", .logLevel), ("--summary", .summary),
   ("--version", .version)]

/-- Whether an option has a value. -/
def Flag.takesValue : Flag → Bool
  | .config | .jobs | .sourceRoot | .logLevel => true
  | .help | .summary | .version => false

/-- All spellings of an option. -/
def Flag.title (f : Flag) : String :=
  String.intercalate "/" ((spellings.filter fun (_, g) => g = f).map (·.1))

/-- Why arguments are refused. -/
inductive Misuse
  | ambiguous (argument : String) (candidates : List String)
  | expectedValue (flag : Flag)
  | ignoredValue (flag : Flag) (value : String)
  | invalidInteger (flag : Flag) (value : String)
  | pathRequired
  | unrecognized (arguments : List String)
  deriving DecidableEq, Repr

/-- The wording of a refusal. -/
def Misuse.message : Misuse → String
  | .ambiguous argument candidates =>
    "ambiguous option: " ++ argument ++ " could match " ++ String.intercalate ", " candidates
  | .expectedValue flag => "argument " ++ flag.title ++ ": expected one argument"
  | .ignoredValue flag value =>
    "argument " ++ flag.title ++ ": ignored explicit argument " ++ Text.quoted value
  | .invalidInteger flag value =>
    "argument " ++ flag.title ++ ": invalid int value: " ++ Text.quoted value
  | .pathRequired => "the following arguments are required: path"
  | .unrecognized arguments => "unrecognized arguments: " ++ String.intercalate " " arguments

/-! ## What each argument is -/

/-- What an argument is. -/
inductive Word
  | operand (text : String)
  /-- The first pair of dashes, after which all are operands. -/
  | separator
  /-- An option under its long name, with the value behind the equals sign. -/
  | long (flag : Flag) (value : Option String)
  /-- An option under its short name, with what is attached to it. -/
  | short (flag : Flag) (attached : List Char)
  /-- It has the form of an option that there is not. -/
  | unknown (text : String)
  deriving DecidableEq, Repr

/-- The text before the first equals sign, and the text after it. -/
def splitEquals (cs : List Char) : String × Option String :=
  match cs.dropWhile (· != '=') with
  | [] => (String.ofList cs, none)
  | _ :: value => (String.ofList (cs.takeWhile (· != '=')), some (String.ofList value))

/-- The spellings that begin with a text. -/
def candidates (start : String) : List (String × Flag) :=
  spellings.filter fun (s, _) => start.toList.isPrefixOf s.toList

/-- The option whose short name is a letter. -/
def shortFlag? (letter : Char) : Option Flag := spellings.lookup (String.ofList ['-', letter])

/-- Whether an argument is a negative number, with or without a point. -/
def isNegativeNumber (argument : String) : Bool :=
  let isDigit (c : Char) := (Text.digitValue? c).isSome
  match argument.toList with
  | '-' :: cs =>
    let cs := if cs.getLast? = some '\n' then cs.dropLast else cs
    let part := match cs.dropWhile isDigit with
      | '.' :: part => part
      | rest => if rest.isEmpty then cs else []
    !part.isEmpty && part.all isDigit
  | _ => false

/-- What an argument is that starts with a dash but names no option. -/
def withoutOption (argument : String) : Word :=
  if isNegativeNumber argument || argument.toList.contains ' ' then .operand argument
  else .unknown argument

/-- What an argument before the separator is. -/
def classify (argument : String) : Except Misuse Word :=
  match argument.toList with
  | '-' :: '-' :: _ =>
    let (start, value) := splitEquals argument.toList
    match spellings.lookup start, candidates start with
    | some f, _ => .ok (.long f value)
    | none, [] => .ok (withoutOption argument)
    | none, [(_, f)] => .ok (.long f value)
    | none, several => .error (.ambiguous argument (several.map (·.1)))
  | '-' :: c :: attached =>
    match shortFlag? c with
    | some f => .ok (.short f attached)
    | none => .ok (withoutOption argument)
  | _ => .ok (.operand argument)

/-- What the arguments are. -/
def wordsOf : List String → Except Misuse (List Word)
  | [] => .ok []
  | "--" :: rest => .ok (.separator :: rest.map .operand)
  | argument :: rest => do
    let w ← classify argument
    return w :: (← wordsOf rest)

/-! ## What they ask for -/

/-- The options of a run. A text that is empty asks for nothing. -/
structure Options where
  config : String
  jobs : Option Int
  sourceRoot : String
  logLevel : String
  summary : Bool
  deriving DecidableEq, Repr

/-- No options. -/
def Options.unset : Options := ⟨"", none, "", "", false⟩

/-- What the command line asks for. -/
inductive Request
  | help
  | version
  | run (path : String) (options : Options)
  deriving DecidableEq, Repr

/-- The options after one is set. The options that ask for information end the reading. -/
def apply (o : Options) (flag : Flag) (value : String) : Except Misuse (Request ⊕ Options) :=
  match flag with
  | .help => .ok (.inl .help)
  | .version => .ok (.inl .version)
  | .summary => .ok (.inr { o with summary := true })
  | .config => .ok (.inr { o with config := value })
  | .sourceRoot => .ok (.inr { o with sourceRoot := value })
  | .logLevel => .ok (.inr { o with logLevel := value })
  | .jobs =>
    match Integer.read value with
    | .ok n => .ok (.inr { o with jobs := some n })
    | .error _ => .error (.invalidInteger .jobs value)

/-- Sets options one after the other. -/
def applyAll (o : Options) : List (Flag × String) → Except Misuse (Request ⊕ Options)
  | [] => .ok (.inr o)
  | (flag, value) :: rest => do
    match ← apply o flag value with
    | .inl request => return .inl request
    | .inr o => applyAll o rest

/-- The options that an argument sets, the number of arguments after it that it takes as a value,
and what of it means nothing. -/
structure Effect where
  sets : List (Flag × String)
  taken : Nat
  extra : Option String
  deriving DecidableEq, Repr

/-- An option to which nothing is attached: its value is the operand that follows. -/
def alone (flag : Flag) (following : List Word) : Except Misuse Effect :=
  if flag.takesValue then
    match following with
    | .operand value :: _ => .ok ⟨[(flag, value)], 1, none⟩
    | _ => .error (.expectedValue flag)
  else .ok ⟨[(flag, "")], 0, none⟩

/-- An option with a value behind an equals sign. -/
def assigned (flag : Flag) (value : String) : Except Misuse Effect :=
  if flag.takesValue then .ok ⟨[(flag, value)], 0, none⟩ else .error (.ignoredValue flag value)

/-- A short option with what is attached to it: its value or, if it has none, further short
options. -/
def cluster (following : List Word) (flag : Flag) : List Char → Except Misuse Effect
  | [] => alone flag following
  | '=' :: value => assigned flag (String.ofList value)
  | c :: rest =>
    let text := String.ofList (c :: rest)
    if flag.takesValue then .ok ⟨[(flag, text)], 0, none⟩
    else if c = '-' then .error (.ignoredValue flag text)
    else
      match shortFlag? c with
      | none => .ok ⟨[(flag, "")], 0, some ("-" ++ text)⟩
      | some next => do
        let e ← cluster following next rest
        return { e with sets := (flag, "") :: e.sets }

/-- The words after a separator that stands first. -/
def afterSeparator : List Word → List Word
  | .separator :: rest => rest
  | words => words

theorem afterSeparator_length_le (words : List Word) :
    (afterSeparator words).length ≤ words.length := by
  unfold afterSeparator
  split <;> simp

/-- Reads the words of a command line. The first operand is the path, and the separator next to it
says nothing. What is left over is refused at the end, but a missing path is refused before that. -/
def readWords (path : Option String) (extras : List String) (o : Options) (words : List Word) :
    Except Misuse Request :=
  match words with
  | [] =>
    match path with
    | none => .error .pathRequired
    | some p => if extras.isEmpty then .ok (.run p o) else .error (.unrecognized extras)
  | .long flag value :: rest => do
    let e ← match value with
      | some value => assigned flag value
      | none => alone flag rest
    match ← applyAll o e.sets with
    | .inl request => return request
    | .inr o => readWords path extras o (rest.drop e.taken)
  | .short flag attached :: rest => do
    let e ← cluster rest flag attached
    match ← applyAll o e.sets with
    | .inl request => return request
    | .inr o => readWords path (extras ++ e.extra.toList) o (rest.drop e.taken)
  | .unknown text :: rest => readWords path (extras ++ [text]) o rest
  | .operand text :: rest =>
    if path.isSome then readWords path (extras ++ [text]) o rest
    else readWords (some text) extras o (afterSeparator rest)
  | .separator :: .operand text :: rest =>
    if path.isSome then readWords path (extras ++ ["--"]) o (.operand text :: rest)
    else readWords (some text) extras o rest
  | .separator :: rest => readWords path (extras ++ ["--"]) o rest
termination_by words.length
decreasing_by
  all_goals simp only [List.length_cons, List.length_drop]
  all_goals first
    | omega
    | exact Nat.lt_succ_of_le (afterSeparator_length_le _)

/-- What a command line asks for. -/
def request (arguments : List String) : Except Misuse Request := do
  readWords none [] .unset (← wordsOf arguments)

end DeadSymbols.CommandLine
