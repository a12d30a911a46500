import DeadSymbols.Text.Quoted

/-!
# Shell scripts

The structure of short scripts: words with quotes and variables, redirections, pipes, lists,
conditions and loops. A script is read line by line, so what comes before a mistake can still be
run.
-/

namespace DeadSymbols.Shell

/-- A part of a word. -/
inductive Part
  | text (cs : List Char)
  | parameter (name : String) (quoted : Bool)
  deriving DecidableEq, Repr

/-- The text of a part that is no variable. -/
def Part.plain? : Part → Option (List Char)
  | .text cs => some cs
  | .parameter _ _ => none

/-- A word before its variables are put in. A word with quotes is there even if it is empty. -/
structure Word where
  parts : List Part
  quoted : Bool
  deriving DecidableEq, Repr

/-- The text of a word without quotes and variables. -/
def Word.plain? (w : Word) : Option String :=
  if w.quoted then none
  else
    (w.parts.mapM Part.plain?).map fun parts => String.ofList parts.flatten

/-- Where a redirection leads a stream. -/
inductive Direction
  | write
  | append
  | read
  /-- To where another stream goes. -/
  | same
  deriving DecidableEq, Repr

/-- How a stream of a command is redirected. -/
structure Redirection where
  stream : Nat
  direction : Direction
  target : Word
  deriving DecidableEq, Repr

/-- A script, or a part of one. -/
inductive Script
  | nothing
  | simple (line : Nat) (words : List Word) (redirections : List Redirection)
  | pipe (first second : Script)
  | both (first second : Script)
  | either (first second : Script)
  | sequence (first second : Script)
  | negated (body : Script)
  /-- Commands between brackets. Those between parentheses have a state of their own. -/
  | group (own : Bool) (body : Script) (line : Nat) (redirections : List Redirection)
  | conditional (test yes no : Script)
  /-- Repeats the body as long as the test succeeds or, if `negate` is set, fails. -/
  | loop (negate : Bool) (test body : Script)
  /-- Runs the body with a variable set to one word after the other. -/
  | forEach (name : String) (words : List Word) (body : Script)
  deriving Repr

/-! ## Lexemes -/

/-- A lexeme of a script. -/
inductive Lexeme
  | word (w : Word)
  | redirect (stream : Nat) (direction : Direction)
  | sign (text : String)
  | newline
  /-- The end of the script. -/
  | finish
  /-- A mistake that keeps the script from being read further. -/
  | mistake (message : String)
  deriving DecidableEq, Repr

/-- A character of a variable's name. -/
def isNameChar (c : Char) : Bool := c.isAlphanum || c == '_'

/-- Whether a text is the name of a variable. -/
def isName (name : String) : Bool :=
  !name.isEmpty && name.toList.all isNameChar && !name.toList.head?.any Char.isDigit

/-- The variable after a dollar sign, and the text after it. -/
def variableAt (cs : List Char) : Option (String × List Char) :=
  match cs with
  | [] => none
  | c :: rest =>
    if c = '$' || c = '?' || c = '#' || c = '@' || c = '*' || c.isDigit then
      some (String.singleton c, rest)
    else if c = Char.ofNat 123 then
      let name := rest.takeWhile (· != Char.ofNat 125)
      some (String.ofList name, rest.drop (name.length + 1))
    else
      let name := cs.takeWhile isNameChar
      if name.isEmpty then none else some (String.ofList name, cs.drop name.length)

/-- Whether the character ends a word that is not quoted. -/
def endsWord (c : Char) : Bool := " \t\n;&|<>()".toList.contains c

/-- The text up to a double quote, in parts, and what follows; nothing if no quote closes it. -/
def doubleQuoted : Nat → List Char → Option (List Part × List Char)
  | 0, _ => none
  | _ + 1, [] => none
  | fuel + 1, c :: rest =>
    if c = '"' then some ([], rest)
    else
      let (part, after) : Part × List Char :=
        if c = '$' then
          match variableAt rest with
          | some (name, after) => (.parameter name true, after)
          | none => (.text ['$'], rest)
        else
          match c, rest with
          | '\\', d :: rest' =>
            if d = '\n' then (.text [], rest')
            else if d = '"' || d = '\\' || d = '$' || d = Char.ofNat 96 then (.text [d], rest')
            else (.text [c], rest)
          | _, _ => (.text [c], rest)
      (doubleQuoted fuel after).map fun (more, left) => (part :: more, left)

/-- The word at the front, and what follows; nothing if a quote is not closed. -/
def wordAt : Nat → List Char → Option (Word × List Char)
  | 0, cs => some (⟨[], false⟩, cs)
  | _ + 1, [] => some (⟨[], false⟩, [])
  | fuel + 1, c :: rest =>
    if endsWord c then some (⟨[], false⟩, c :: rest)
    else do
      let (parts, quoted, after) : List Part × Bool × List Char ←
        if c = Text.singleQuote then
          let text := rest.takeWhile (· != Text.singleQuote)
          if text.length < rest.length then
            some ([.text text], true, rest.drop (text.length + 1))
          else none
        else if c = '"' then (doubleQuoted fuel rest).map fun (parts, after) => (parts, true, after)
        else if c = '\\' then
          match rest with
          | d :: rest' => some (if d = '\n' then ([], false, rest') else ([.text [d]], true, rest'))
          | [] => some ([.text [c]], false, [])
        else if c = '$' then
          match variableAt rest with
          | some (name, after) => some ([.parameter name false], false, after)
          | none => some ([.text [c]], false, rest)
        else some ([.text [c]], false, rest)
      let (word, left) ← wordAt fuel after
      some (⟨parts ++ word.parts, quoted || word.quoted⟩, left)

/-- A redirection of a stream, from its sign on, and what follows. -/
def redirectAt (stream : Option Nat) (cs : List Char) : Option (Lexeme × List Char) :=
  match cs with
  | '<' :: rest => some (.redirect (stream.getD 0) .read, rest)
  | '>' :: '>' :: rest => some (.redirect (stream.getD 1) .append, rest)
  | '>' :: '&' :: rest => some (.redirect (stream.getD 1) .same, rest)
  | '>' :: rest => some (.redirect (stream.getD 1) .write, rest)
  | _ => none

/-- A sign, and what follows. -/
def signAt (cs : List Char) : Option (Lexeme × List Char) :=
  match cs with
  | '\n' :: rest => some (.newline, rest)
  | '&' :: '&' :: rest => some (.sign "&&", rest)
  | '|' :: '|' :: rest => some (.sign "||", rest)
  | ';' :: ';' :: rest => some (.sign ";;", rest)
  | c :: rest =>
    if ";&|()".toList.contains c then some (.sign (String.singleton c), rest) else none
  | [] => none

/-- The lexemes of a script that starts on a line, each with its line. Every round takes a character
at least. -/
def lexemesAux : Nat → Nat → List Char → List (Lexeme × Nat)
  | 0, line, _ => [(.finish, line)]
  | _ + 1, line, [] => [(.finish, line)]
  | fuel + 1, line, c :: rest =>
    if c = ' ' || c = '\t' then lexemesAux fuel line rest
    else if c = '#' then lexemesAux fuel line (rest.dropWhile (· != '\n'))
    else
      let numbered := if c.isDigit then redirectAt (some (c.toNat - 48)) rest else none
      match numbered.or ((redirectAt none (c :: rest)).or (signAt (c :: rest))) with
      | some (lexeme, after) =>
        (lexeme, line) :: lexemesAux fuel (if lexeme = .newline then line + 1 else line) after
      | none =>
        match wordAt (fuel + 1) (c :: rest) with
        | none =>
          [(.mistake "Unterminated quoted string", line + (c :: rest).count '\n')]
        | some (word, after) =>
          let line' := line + ((c :: rest).count '\n' - after.count '\n')
          let more := lexemesAux fuel line' after
          if word.parts.isEmpty && !word.quoted then more else (.word word, line) :: more

/-- The lexemes of a script. -/
def lexemes (script : String) : List (Lexeme × Nat) :=
  let cs := script.toList
  lexemesAux (cs.length + 1) 1 cs

/-! ## Structure -/

/-- A step of the reading; a mistake has its line. -/
abbrev Reader := StateT (List (Lexeme × Nat)) (Except (Nat × String))

namespace Reader

/-- The next lexeme and its line. -/
def peek : Reader (Lexeme × Nat) := return (← get).headD (.finish, 1)

/-- Leaves a lexeme out. -/
def skip : Reader Unit := modify List.tail

/-- The words that begin or end a part of a script. -/
def reservedWords : List String :=
  ["if", "then", "else", "elif", "fi", "while", "until", "for", "do", "done", "case", "esac", "in",
   "!", "\x7b", "\x7d"]

/-- The reserved word that a lexeme is. -/
def reserved? : Lexeme → Option String
  | .word w => w.plain?.filter reservedWords.contains
  | _ => none

/-- How a mistake names a lexeme. -/
def nameOf (l : Lexeme) : String :=
  match l with
  | .finish => "end of file"
  | .newline => "newline"
  | .sign text => "\"" ++ text ++ "\""
  | .redirect _ _ => "redirection"
  | l => ((reserved? l).map fun text => "\"" ++ text ++ "\"").getD "word"

/-- Gives up at the next lexeme; `expected` is what should stand there, if only one thing can. -/
def unexpected {α : Type} (expected : Option String) : Reader α := do
  let (l, line) ← peek
  match l with
  | .mistake message => throw (line, message)
  | _ =>
    throw (line, nameOf l ++ " unexpected" ++
      ((expected.map fun text => " (expecting \"" ++ text ++ "\")").getD ""))

/-- Whether the next lexeme is a sign. -/
def nextSign (text : String) : Reader Bool := return (← peek).1 = .sign text

/-- Whether the next lexeme is a reserved word. -/
def nextReserved (text : String) : Reader Bool := return reserved? (← peek).1 = some text

/-- Takes a reserved word that has to stand here. -/
def expectReserved (text : String) : Reader Unit := do
  if ← nextReserved text then skip else unexpected (some text)

/-- Leaves out the ends of lines. -/
def skipNewlines : Reader Unit := modify fun ls => ls.dropWhile fun l => l.1 = .newline

/-- Whether a list ends here. -/
def atListEnd : Reader Bool := do
  let (l, _) ← peek
  let closing := ["then", "else", "elif", "fi", "do", "done", "esac", "\x7d"]
  return l = .finish || l = .newline || l = .sign ")" || (reserved? l).any closing.contains

/-- The words and redirections at the front, in the order in which they stand. -/
def wordsAndRedirections : Nat → Bool → Reader (List Word × List Redirection)
  | 0, _ => pure ([], [])
  | fuel + 1, withWords => do
    match (← peek).1 with
    | .redirect stream direction =>
      skip
      match (← peek).1 with
      | .word target =>
        skip
        let (words, redirections) ← wordsAndRedirections fuel withWords
        return (words, ⟨stream, direction, target⟩ :: redirections)
      | _ => unexpected none
    | .word w =>
      if !withWords then return ([], [])
      skip
      let (words, redirections) ← wordsAndRedirections fuel withWords
      return (w :: words, redirections)
    | _ => return ([], [])

/-- The words at the front. -/
def words : Nat → Reader (List Word)
  | 0 => pure []
  | fuel + 1 => do
    match (← peek).1 with
    | .word w =>
      skip
      return w :: (← words fuel)
    | _ => return []

/-- The variable of a loop and the words it goes through; without words these are the arguments of
the script. -/
def loopHead (fuel : Nat) : Reader (String × List Word) := do
  let (l, line) ← peek
  let name ←
    match l with
    | .word w => pure ((w.plain?.filter isName).getD "")
    | _ => pure ""
  if name.isEmpty then throw (line, "Bad for loop variable")
  skip
  let items ←
    if ← nextReserved "in" then do
      skip
      words fuel
    else pure [⟨[.parameter "@" false], false⟩]
  if ← nextSign ";" then skip
  skipNewlines
  return (name, items)

mutual

/-- A list of commands. Inside of brackets and of reserved words (`inner`), the end of a line
separates commands like a semicolon does. -/
def list : Nat → Bool → Reader Script
  | 0, _ => unexpected none
  | fuel + 1, inner => do
    if inner then skipNewlines
    if (← peek).1 = .finish then return .nothing
    let first ← chain fuel
    let separated := (← nextSign ";") || (← nextSign "&")
    if separated then skip
    else if !(inner && (← peek).1 = .newline) then return first
    if inner then skipNewlines
    if ← atListEnd then return first
    return .sequence first (← list fuel inner)

/-- Commands joined by conditions. -/
def chain : Nat → Reader Script
  | 0 => unexpected none
  | fuel + 1 => do chainRest fuel (← pipeline fuel)

/-- What is joined to a command by conditions. -/
def chainRest : Nat → Script → Reader Script
  | 0, _ => unexpected none
  | fuel + 1, first => do
    let isBoth ← nextSign "&&"
    if isBoth || (← nextSign "||") then
      skip
      skipNewlines
      let second ← pipeline fuel
      chainRest fuel (if isBoth then .both first second else .either first second)
    else return first

/-- Commands joined by pipes. -/
def pipeline : Nat → Reader Script
  | 0 => unexpected none
  | fuel + 1 => do
    if ← nextReserved "!" then
      skip
      return .negated (← pipes fuel)
    pipes fuel

/-- A command and what follows it through pipes. -/
def pipes : Nat → Reader Script
  | 0 => unexpected none
  | fuel + 1 => do
    let first ← command fuel
    if ← nextSign "|" then
      skip
      skipNewlines
      return .pipe first (← pipes fuel)
    return first

/-- A command. -/
def command : Nat → Reader Script
  | 0 => unexpected none
  | fuel + 1 => do
    let (l, line) ← peek
    if l = .sign "(" then
      skip
      let body ← list fuel true
      if !(← nextSign ")") then unexpected (some ")")
      skip
      return .group true body line (← wordsAndRedirections fuel false).2
    match reserved? l with
    | some "\x7b" =>
      skip
      let body ← list fuel true
      expectReserved "\x7d"
      return .group false body line (← wordsAndRedirections fuel false).2
    | some "if" =>
      skip
      let body ← conditional fuel
      return .group false body line (← wordsAndRedirections fuel false).2
    | some "while" => repetition fuel false line
    | some "until" => repetition fuel true line
    | some "for" =>
      skip
      let (name, items) ← loopHead fuel
      let body ← loopBody fuel
      return .group false (.forEach name items body) line (← wordsAndRedirections fuel false).2
    | some _ => unexpected none
    | none =>
      let (words, redirections) ← wordsAndRedirections (fuel + 1) true
      if words.isEmpty && redirections.isEmpty then unexpected none
      return .simple line words redirections

/-- A condition after the word that begins it. -/
def conditional : Nat → Reader Script
  | 0 => unexpected none
  | fuel + 1 => do
    let test ← list fuel true
    expectReserved "then"
    let yes ← list fuel true
    if ← nextReserved "elif" then
      skip
      return .conditional test yes (← conditional fuel)
    if ← nextReserved "else" then
      skip
      let no ← list fuel true
      expectReserved "fi"
      return .conditional test yes no
    expectReserved "fi"
    return .conditional test yes .nothing

/-- A loop with a test. -/
def repetition : Nat → Bool → Nat → Reader Script
  | 0, _, _ => unexpected none
  | fuel + 1, negate, line => do
    skip
    let test ← list fuel true
    let body ← loopBody fuel
    return .group false (.loop negate test body) line (← wordsAndRedirections fuel false).2

/-- The body of a loop. -/
def loopBody : Nat → Reader Script
  | 0 => unexpected none
  | fuel + 1 => do
    expectReserved "do"
    let body ← list fuel true
    expectReserved "done"
    return body

end

end Reader

/-- The lines of a script as far as they can be read, and the mistake that ends them. -/
def linesAux : Nat → List (Lexeme × Nat) → List Script × Option (Nat × String)
  | 0, _ => ([], none)
  | fuel + 1, ls =>
    let ls := ls.dropWhile fun l => l.1 = .newline
    match ls with
    | [] => ([], none)
    | [(.finish, _)] => ([], none)
    | _ =>
      let line : Reader Script := do
        let s ← Reader.list (20 * ls.length + 20) false
        let (l, _) ← Reader.peek
        if l = .newline || l = .finish then return s else Reader.unexpected none
      match line.run ls with
      | .error mistake => ([], some mistake)
      | .ok (s, rest) =>
        let (more, mistake) := linesAux fuel rest
        (s :: more, mistake)

/-- The lines of a script, and the mistake that ends them. -/
def scriptLines (script : String) : List Script × Option (Nat × String) :=
  let ls := lexemes script
  linesAux (ls.length + 1) ls

end DeadSymbols.Shell
