import DeadSymbols.Yaml.Property

/-!
# Scanning YAML: scalars

A scalar is written in one of four ways: as a block below its header, between double quotes with
escapes, between single quotes, or plain. Where a scalar other than a literal block goes over
several lines, a single line break is a space and the breaks of empty lines are kept.
-/

namespace DeadSymbols

namespace Yaml

/-! ## Scalars -/

/-- How the end of a block scalar is treated: its last line break is dropped, kept, or kept with
the empty lines after it. -/
inductive Chomping
  | strip
  | clip
  | keep
  deriving DecidableEq, Repr

/-- The chomping sign. -/
def chomping? : Scan (Option Chomping) := do
  let c ← peek
  if c = '+' then
    skip 1
    return some .keep
  if c = '-' then
    skip 1
    return some .strip
  return none

/-- The sign of the indentation, which is not zero. -/
def increment? : Scan (Option Nat) := do
  let c ← peek
  if Text.isAsciiDigit c then
    if c = '0' then fail
    skip 1
    return some (c.toNat - 48)
  return none

/-- The signs behind the sign of a block scalar, in either order. -/
def blockHeader : Scan (Chomping × Option Nat) := do
  let (chomping, increment) ←
    match ← chomping? with
    | some c => pure (c, ← increment?)
    | none =>
      match ← increment? with
      | some n => pure ((← chomping?).getD .clip, some n)
      | none => pure (.clip, none)
  if !isSpaceOrEnd (← peek) then fail
  skipRestOfLine
  return (chomping, increment)

/-- The empty lines at the front of a block scalar whose indentation is still open, and the widest
indentation met. -/
def openIndentation : Nat → Nat → Scan (List Char × Nat)
  | 0, widest => pure ([], widest)
  | fuel + 1, widest => do
    let c ← peek
    if c = ' ' then
      skip 1
      openIndentation fuel (max widest (← get).column)
    else if isBreak c then
      let b ← lineBreak
      let (more, widest) ← openIndentation fuel widest
      return (b ++ more, widest)
    else return ([], widest)

/-- Leaves out spaces up to a column. -/
def skipIndentation (indent : Nat) : Scan Unit := do
  let s ← get
  let spaces := (s.rest.takeWhile (· == ' ')).length
  skip (min spaces (indent - s.column))

/-- The empty lines before the next line of a block scalar. -/
def emptyLines (indent : Nat) : Nat → Scan (List Char)
  | 0 => pure []
  | fuel + 1 => do
    skipIndentation indent
    if isBreak (← peek) then
      let b ← lineBreak
      return b ++ (← emptyLines indent fuel)
    return []

/-- The lines of a block scalar, given the empty lines before the first: their text, the break after
the last and the empty lines after that. -/
def blockLines (folded : Bool) (indent : Nat) :
    Nat → List Char → Scan (List Char × List Char × List Char)
  | 0, breaks => pure ([], [], breaks)
  | fuel + 1, breaks => do
    if (← get).column ≠ indent || (← peek) = nul then return ([], [], breaks)
    let startsFlush := (← peek) != ' ' && (← peek) != '\t'
    let line ← takeWhile fun c => !isBreakOrEnd c
    let b ← lineBreak
    let breaks' ← emptyLines indent fuel
    let c ← peek
    if (← get).column = indent && c ≠ nul then
      let joint :=
        if folded && b == ['\n'] && startsFlush && c != ' ' && c != '\t' then
          if breaks'.isEmpty then [' '] else []
        else b
      let (text, last, after) ← blockLines folded indent fuel breaks'
      return (breaks ++ line ++ joint ++ text, last, after)
    return (breaks ++ line, b, breaks')

/-- A block scalar. -/
def blockScalar (folded : Bool) : Scan Token := do
  skip 1
  let (chomping, increment) ← blockHeader
  let s ← get
  let least := max 1 (s.indent + 1).toNat
  let fuel := s.rest.length + 1
  let (breaks, indent) ←
    match increment with
    | none => do
      let (breaks, widest) ← openIndentation fuel 0
      pure (breaks, max least widest)
    | some n => do
      let indent := least + n - 1
      let breaks ← emptyLines indent fuel
      pure (breaks, indent)
  let (text, last, after) ← blockLines folded indent fuel breaks
  let ending := match chomping with
    | .strip => []
    | .clip => last
    | .keep => last ++ after
  return .scalar (String.ofList (text ++ ending)) false

/-- The characters that one letter after a backslash stands for. -/
def escapes : List (Char × Nat) :=
  [('0', 0), ('a', 7), ('b', 8), ('t', 9), ('\t', 9), ('n', 10), ('v', 11), ('f', 12), ('r', 13),
   ('e', 27), (' ', 32), ('"', 34), ('\\', 92), ('/', 47), ('N', 0x85), ('_', 0xa0),
   ('L', 0x2028), ('P', 0x2029)]

/-- The character whose number is written with some hexadecimal digits. The number of a half of a
pair is no character's; the replacement character stands in its place, so texts that differ only in
such halves are not told apart. -/
def hexChar (size : Nat) : Scan (List Char) := do
  let ds := (← get).rest.take size
  if ds.length ≠ size || !ds.all Text.isHexDigit then fail
  let n := Text.spelled 16 ds
  if 1 <<< 31 ≤ n then throw .characterNumber
  if 0x110000 ≤ n then throw .character
  skip size
  return [if n.isValidChar then Char.ofNat n else Text.replacement]

/-- The breaks after the first in a quoted scalar; no document may be separated in it. -/
def quotedBreaks : Nat → Scan (List Char)
  | 0 => pure []
  | fuel + 1 => do
    if ← atSeparator then fail
    skipWhile fun c => c == ' ' || c == '\t'
    if isBreak (← peek) then
      let b ← lineBreak
      return b ++ (← quotedBreaks fuel)
    return []

/-- What an escape stands for; its backslash was just read. -/
def escape (fuel : Nat) : Scan (List Char) := do
  let c ← peek
  match escapes.lookup c with
  | some n =>
    if c = nul then fail
    skip 1
    return [Char.ofNat n]
  | none =>
    if c = 'x' || c = 'u' || c = 'U' then
      skip 1
      hexChar (if c = 'x' then 2 else if c = 'u' then 4 else 8)
    else if isBreak c then
      let _ ← lineBreak
      quotedBreaks fuel
    else fail

/-- The part of a quoted scalar up to a blank or the closing quote. -/
def quotedWord (double : Bool) : Nat → Scan (List Char)
  | 0 => pure []
  | fuel + 1 => do
    let text ← takeWhile fun c =>
      !(isBlankOrEnd c || c == Text.singleQuote || c == '"' || c == '\\')
    let c ← peek
    if !double && c = Text.singleQuote && (← peekAt 1) = Text.singleQuote then
      skip 2
      return text ++ Text.singleQuote :: (← quotedWord double fuel)
    else if (double && c = Text.singleQuote) || (!double && (c = '"' || c = '\\')) then
      skip 1
      return text ++ c :: (← quotedWord double fuel)
    else if double && c = '\\' then
      skip 1
      let shown ← escape fuel
      return text ++ shown ++ (← quotedWord double fuel)
    else return text

/-- The blanks between two words of a quoted scalar. A break is a space, unless empty lines follow
it. -/
def quotedBlanks (fuel : Nat) : Scan (List Char) := do
  let blanks ← takeWhile fun c => c == ' ' || c == '\t'
  let c ← peek
  if c = nul then fail
  if isBreak c then
    let b ← lineBreak
    let breaks ← quotedBreaks fuel
    return (if b ≠ ['\n'] then b else if breaks.isEmpty then [' '] else []) ++ breaks
  return blanks

/-- The rest of a quoted scalar from the end of a word on. -/
def quotedRest (double : Bool) : Nat → Scan (List Char)
  | 0 => fail
  | fuel + 1 => do
    if (← peek) = (if double then '"' else Text.singleQuote) then
      skip 1
      return []
    let blanks ← quotedBlanks fuel
    let word ← quotedWord double fuel
    return blanks ++ word ++ (← quotedRest double fuel)

/-- A quoted scalar. -/
def quotedScalar (double : Bool) : Scan Token := do
  let fuel := (← get).rest.length + 1
  skip 1
  let word ← quotedWord double fuel
  return .scalar (String.ofList (word ++ (← quotedRest double fuel))) false

/-- The number of characters of a plain scalar up to a blank or a sign that ends it. -/
def plainSize (inFlow : Bool) : List Char → Nat
  | [] => 0
  | c :: rest =>
    if isBlankOrEnd c then 0
    else
      let next := rest.headD nul
      if c = ':' && (isBlankOrEnd next || (inFlow && isFlowSign next)) then 0
      else if inFlow && (isFlowSign c || c == '?') then 0
      else plainSize inFlow rest + 1

/-- The breaks after the first between two lines of a plain scalar; nothing, if a document separator
follows one. -/
def plainBreaks : Nat → Scan (Option (List Char))
  | 0 => pure (some [])
  | fuel + 1 => do
    skipWhile (· == ' ')
    if isBreak (← peek) then
      let b ← lineBreak
      if ← atSeparator then return none
      return (← plainBreaks fuel).map (b ++ ·)
    return some []

/-- The blanks after a word of a plain scalar. -/
def plainBlanks (fuel : Nat) : Scan (List Char) := do
  let spaces ← takeWhile (· == ' ')
  if isBreak (← peek) then
    let b ← lineBreak
    allowKey true
    if ← atSeparator then return []
    match ← plainBreaks fuel with
    | none => return []
    | some breaks =>
      return (if b ≠ ['\n'] then b else if breaks.isEmpty then [' '] else []) ++ breaks
  return spaces

/-- The words of a plain scalar, given the blanks before the first. -/
def plainWords (indent : Int) : Nat → List Char → Scan (List Char)
  | 0, _ => pure []
  | fuel + 1, blanks => do
    if (← peek) = '#' then return []
    let s ← get
    let size := plainSize (s.flow != 0) s.rest
    if size = 0 then return []
    allowKey false
    skip size
    let blanks' ← plainBlanks fuel
    let text := blanks ++ s.rest.take size
    let s' ← get
    if blanks'.isEmpty || (← peek) = '#' || (s'.flow = 0 && s'.column < indent) then return text
    return text ++ (← plainWords indent fuel blanks')

/-- A plain scalar. -/
def plainScalar : Scan Token := do
  let s ← get
  return .scalar (String.ofList (← plainWords (s.indent + 1) (s.rest.length + 1) [])) true

end Yaml

end DeadSymbols
