import DeadSymbols.Yaml.Token

/-!
# Scanning YAML: place, indentation and possible keys

A scan goes through the text once. It knows its place, the indentation of the block collections that
are open, and where a key may turn out to have started.
-/

namespace DeadSymbols

namespace Yaml

/-! ## The state of the scan -/

/-- A place where a key may turn out to start. -/
structure PossibleKey where
  /-- The number of tokens before it. -/
  tokens : Nat
  /-- Whether it has to be a key, since a block mapping goes on there. -/
  required : Bool
  index : Nat
  line : Nat
  column : Nat

/-- How far a text was scanned. -/
structure Scanner where
  rest : List Char
  index : Nat
  line : Nat
  column : Nat
  /-- The number of flow collections that are open. -/
  flow : Nat
  /-- The column of the innermost block collection, `-1` outside of all. -/
  indent : Int
  /-- The columns of the block collections around it. -/
  indents : List Int
  /-- Whether a key may start here. -/
  keyAllowed : Bool
  /-- By level of flow collections, where a key may have started. -/
  keys : List (Nat × PossibleKey)
  tokens : Array Token

/-- The scanner at the start of a text. -/
def Scanner.start (cs : List Char) : Scanner := ⟨cs, 0, 0, 0, 0, -1, [], true, [], #[]⟩

/-- A step of the scan. -/
abbrev Scan := StateT Scanner (Except YamlFault)

/-- Gives up. -/
def fail {α : Type} : Scan α := throw .malformed

/-- The character so many places ahead. -/
def peekAt (n : Nat) : Scan Char := return (← get).rest.getD n nul

/-- The next character. -/
def peek : Scan Char := peekAt 0

/-- The scanner behind one character. -/
def Scanner.advance (s : Scanner) : Scanner :=
  match s.rest with
  | [] => s
  | c :: rest =>
    let s := { s with rest := rest, index := s.index + 1 }
    if isBreak c then { s with line := s.line + 1, column := 0 }
    else if c.toNat = 0xfeff then s
    else { s with column := s.column + 1 }

/-- The scanner behind some characters. -/
def Scanner.advanceBy : Nat → Scanner → Scanner
  | 0, s => s
  | n + 1, s => advanceBy n s.advance

/-- Leaves characters out. -/
def skip (n : Nat) : Scan Unit := modify (Scanner.advanceBy n)

/-- Takes the characters of a class at the front. -/
def takeWhile (inClass : Char → Bool) : Scan (List Char) := do
  let cs := (← get).rest.takeWhile inClass
  skip cs.length
  return cs

/-- Leaves out the characters of a class at the front. -/
def skipWhile (inClass : Char → Bool) : Scan Unit := do
  let _ ← takeWhile inClass

/-- Takes the end of a line, if there is one, in the form it has in a scalar. -/
def lineBreak : Scan (List Char) := do
  let c ← peek
  if !isBreak c then return []
  skip 1
  return if c.toNat = 0x2028 || c.toNat = 0x2029 then [c] else ['\n']

/-- Whether a document separator stands here. -/
def atSeparator : Scan Bool := do
  let cs := (← get).rest
  let three := cs.take 3
  return (three == ['-', '-', '-'] || three == ['.', '.', '.']) && isBlankOrEnd (cs.getD 3 nul)

/-- Adds a token. -/
def emit (t : Token) : Scan Unit := modify fun s => { s with tokens := s.tokens.push t }

/-- Allows or forbids a key. -/
def allowKey (allowed : Bool) : Scan Unit := modify fun s => { s with keyAllowed := allowed }

/-! ## Possible keys and indentation -/

/-- Gives up the places at which no key can start any more; one that has to be a key is an error. -/
def dropStaleKeys : Scan Unit := do
  let s ← get
  let (stale, kept) := s.keys.partition fun (_, k) => k.line != s.line || 1024 < s.index - k.index
  if stale.any (·.2.required) then fail
  set { s with keys := kept }

/-- Gives up the place at the present level. -/
def dropKey : Scan Unit := do
  let s ← get
  let (here, kept) := s.keys.partition fun (level, _) => level == s.flow
  if here.any (·.2.required) then fail
  set { s with keys := kept }

/-- Remembers that a key may start here. -/
def saveKey : Scan Unit := do
  if (← get).keyAllowed then
    dropKey
    modify fun s =>
      { s with
        keys := s.keys ++ [(s.flow, ⟨s.tokens.size, s.flow == 0 && s.indent == s.column, s.index,
          s.line, s.column⟩)] }

/-- Ends the block collections that start right of a column; their number bounds `fuel`. -/
def unwindAux : Nat → Int → Scan Unit
  | 0, _ => pure ()
  | fuel + 1, column => do
    let s ← get
    if column < s.indent then
      set { s with indent := s.indents.headD (-1), indents := s.indents.tail }
      emit .blockEnd
      unwindAux fuel column

/-- Ends the block collections that start right of a column. Inside flow collections indentation
does not count. -/
def unwind (column : Int) : Scan Unit := do
  let s ← get
  if s.flow = 0 then unwindAux (s.indents.length + 1) column

/-- Starts a block collection at a column, unless one was started there already. -/
def addIndent (column : Nat) : Scan Bool := do
  let s ← get
  if s.indent < column then
    set { s with indent := column, indents := s.indent :: s.indents }
    return true
  return false

/-- Puts a token before those that came after a number of tokens. -/
def insertToken (place : Nat) (t : Token) : Scan Unit :=
  modify fun s =>
    { s with tokens := (s.tokens.extract 0 place).push t ++ s.tokens.extract place s.tokens.size }

end Yaml

end DeadSymbols
