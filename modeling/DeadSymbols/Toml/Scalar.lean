import DeadSymbols.Value

/-!
# TOML: keys and simple values

Readers for the parts of a TOML document that hold no other parts: keys, texts, numbers, dates and
times. A reader takes the text it is tried on and gives what it read with the text after it.
-/

namespace DeadSymbols

/-- Why a text is not a TOML document. -/
inductive TomlFault
  | malformed
  /-- An integer has too many digits. -/
  | integer (fault : IntegerFault)
  deriving DecidableEq, Repr

namespace Toml

/-- A reader. -/
abbrev Reader := StateT (List Char) (Except TomlFault)

/-- The next character, which is left where it is. -/
def peek : Reader (Option Char) := return (← get).head?

/-- Leaves characters out. -/
def skip (count : Nat) : Reader Unit := modify (·.drop count)

/-- Leaves out the characters of a class at the front. -/
def skipWhile (inClass : Char → Bool) : Reader Unit := modify (·.dropWhile inClass)

/-- Takes the characters of a class at the front. -/
def takeWhile (inClass : Char → Bool) : Reader (List Char) := do
  let cs ← get
  set (cs.dropWhile inClass)
  return cs.takeWhile inClass

/-- Whether the text goes on with a word. -/
def startsWith (word : String) : Reader Bool := return word.toList.isPrefixOf (← get)

/-- Gives up. -/
def fail {α : Type} : Reader α := throw .malformed

/-- A blank inside a line. -/
def isSpace (c : Char) : Bool := c == ' ' || c == '\t'

/-- A blank or the end of a line. -/
def isSpaceOrLineEnd (c : Char) : Bool := isSpace c || c == '\n'

/-- A control character, which may stand nowhere but for the tab. -/
def isIllegal (c : Char) : Bool := (c.toNat < 32 || c.toNat == 127) && c != '\t'

/-- A character that may not stand in a text of several lines. -/
def isIllegalInLines (c : Char) : Bool := isIllegal c && c != '\n'

/-- A character of a key without quotes. -/
def isBareKeyChar (c : Char) : Bool := c.isAlphanum || c == '-' || c == '_'

/-! ## Texts -/

/-- The characters that one letter after a backslash stands for. -/
def escapes : List (Char × Nat) :=
  [('b', 8), ('t', 9), ('n', 10), ('f', 12), ('r', 13), ('"', 34), ('\\', 92)]

/-- The character whose number is written with some hexadecimal digits. -/
def hexChar (size : Nat) : Reader (List Char) := do
  let digits := (← get).take size
  if digits.length ≠ size || !digits.all Text.isHexDigit then fail
  skip size
  let n := Text.spelled 16 digits
  if n.isValidChar then return [Char.ofNat n] else fail

/-- What an escape stands for; its backslash was just read. -/
def escape (inLines : Bool) : Reader (List Char) := do
  match ← get with
  | [] => fail
  | c :: rest =>
    set rest
    if inLines && isSpaceOrLineEnd c then
      if c ≠ '\n' then
        skipWhile isSpace
        match ← peek with
        | none => return []
        | some d => if d ≠ '\n' then fail
      skipWhile isSpaceOrLineEnd
      return []
    else if c = 'u' then hexChar 4
    else if c = 'U' then hexChar 8
    else
      match escapes.lookup c with
      | some n => return [Char.ofNat n]
      | none => fail

/-- The rest of a text in double quotes. Every round takes a character, so their number bounds
`fuel`. -/
def basicText (inLines : Bool) : Nat → Reader (List Char)
  | 0 => fail
  | fuel + 1 => do
    match ← get with
    | [] => fail
    | c :: rest =>
      if c = '"' then
        if !inLines then
          set rest
          return []
        else if ← startsWith "\"\"\"" then
          skip 3
          return []
        else
          set rest
          return c :: (← basicText inLines fuel)
      else if c = '\\' then
        set rest
        let shown ← escape inLines
        return shown ++ (← basicText inLines fuel)
      else if (if inLines then isIllegalInLines c else isIllegal c) then fail
      else
        set rest
        return c :: (← basicText inLines fuel)

/-- The characters up to a word, which is left out too. -/
def literalText (illegal : Char → Bool) (word : List Char) : List Char → Reader (List Char)
  | [] => fail
  | c :: rest => do
    if word.isPrefixOf (c :: rest) then
      set ((c :: rest).drop word.length)
      return []
    else if illegal c then fail
    else return c :: (← literalText illegal word rest)

/-- At most two quotes right behind the end of a text of several lines belong to it. -/
def extraQuotes (quote : Char) : Reader (List Char) := do
  let quotes := ((← get).take 2).takeWhile (· == quote)
  skip quotes.length
  return quotes

/-- A text in quotes of a kind, of one line or of several. -/
def quotedText (quote : Char) (allowLines : Bool) : Reader String := do
  let cs ← get
  let three := [quote, quote, quote]
  if allowLines && three.isPrefixOf cs then
    skip 3
    if ← startsWith "\n" then skip 1
    let cs ← get
    let shown ←
      if quote = '"' then basicText true (cs.length + 1)
      else literalText isIllegalInLines three cs
    return String.ofList (shown ++ (← extraQuotes quote))
  else
    skip 1
    let cs ← get
    String.ofList <$>
      (if quote = '"' then basicText false (cs.length + 1) else literalText isIllegal [quote] cs)

/-! ## Keys -/

/-- One part of a key. -/
def keyPart : Reader String := do
  match ← peek with
  | none => fail
  | some c =>
    if isBareKeyChar c then return String.ofList (← takeWhile isBareKeyChar)
    else if c = '"' || c = Text.singleQuote then quotedText c false
    else fail

/-- The parts of a key after the first. -/
def keyRest : Nat → Reader (List String)
  | 0 => fail
  | fuel + 1 => do
    skipWhile isSpace
    if ← startsWith "." then
      skip 1
      skipWhile isSpace
      let part ← keyPart
      return part :: (← keyRest fuel)
    else return []

/-- A key: parts with dots between them. -/
def key : Reader (List String) := do
  let part ← keyPart
  return part :: (← keyRest ((← get).length + 1))

/-! ## Numbers -/

/-- Digits of a class with single underscores between them, starting with a digit. -/
def digitRun (isDigit : Char → Bool) : List Char → List Char × List Char
  | [] => ([], [])
  | c :: rest =>
    if isDigit c then
      let (more, after) := digitRun isDigit rest
      (c :: more, after)
    else if c = '_' then
      match rest with
      | d :: _ =>
        if isDigit d then digitRun isDigit rest else ([], c :: rest)
      | [] => ([], c :: rest)
    else ([], c :: rest)

/-- The digits of a class at the front, unless an underscore comes first. -/
def digits (isDigit : Char → Bool) (cs : List Char) : List Char × List Char :=
  if cs.head?.any isDigit then digitRun isDigit cs else ([], cs)

/-- An integer with a mark for its base, if there is one. -/
def basedInteger? (cs : List Char) : Option (Nat × List Char) :=
  let ofBase (base : Nat) (rest : List Char) : Option (Nat × List Char) :=
    match digits (fun c => (Text.baseDigit? base c).isSome) rest with
    | ([], _) => none
    | (ds, after) => some (Text.spelled base ds, after)
  match cs with
  | '0' :: 'x' :: rest => ofBase 16 rest
  | '0' :: 'b' :: rest => ofBase 2 rest
  | '0' :: 'o' :: rest => ofBase 8 rest
  | _ => none

/-- The digits of a fraction, if there is one. -/
def fraction (cs : List Char) : List Char × List Char :=
  match cs with
  | '.' :: rest =>
    match digits Text.isAsciiDigit rest with
    | ([], _) => ([], cs)
    | found => found
  | _ => ([], cs)

/-- The exponent, if there is one. -/
def exponent? (cs : List Char) : Option (Int × List Char) :=
  match cs with
  | e :: rest =>
    if e = 'e' || e = 'E' then
      let (negative, rest) := Integer.splitSign rest
      match digits Text.isAsciiDigit rest with
      | ([], _) => none
      | (ds, after) => some (Integer.signed negative (Text.spelled 10 ds), after)
    else none
  | [] => none

/-- A number in base ten, if there is one. -/
def decimal? (cs : List Char) : Option (Except TomlFault Value × List Char) :=
  let (negative, body) := Integer.splitSign cs
  let (whole, rest) :=
    match body with
    | '0' :: rest => (['0'], rest)
    | _ => digits Text.isAsciiDigit body
  if whole.isEmpty then none
  else
    let (part, afterPart) := fraction rest
    match exponent? afterPart, part with
    | none, [] =>
      let value : Except TomlFault Value :=
        if Integer.maxDigits < whole.length then .error (.integer (.tooLong whole.length))
        else .ok (.int (Integer.signed negative (Text.spelled 10 whole)))
      some (value, rest)
    | found, _ =>
      let (power, after) := found.getD (0, afterPart)
      some (.ok (.real (Double.ofDecimal negative (Text.spelled 10 (whole ++ part))
        (power - part.length))), after)

/-- A number that is not finite, if there is one. -/
def special? (cs : List Char) : Option (Value × List Char) :=
  let (negative, body) := Integer.splitSign cs
  if "inf".toList.isPrefixOf body then some (.real (.infinite negative), body.drop 3)
  else if "nan".toList.isPrefixOf body then some (.real .nan, body.drop 3)
  else none

/-! ## Dates and times -/

/-- A number of so many digits within bounds. -/
def bounded? (size low high : Nat) (cs : List Char) : Option (Nat × List Char) :=
  let ds := cs.take size
  if ds.length = size && ds.all Text.isAsciiDigit then
    let n := Text.spelled 10 ds
    if low ≤ n && n ≤ high then some (n, cs.drop size) else none
  else none

/-- The text after a character it starts with. -/
def after? (c : Char) (cs : List Char) : Option (List Char) :=
  match cs with
  | d :: rest => if d = c then some rest else none
  | [] => none

/-- A time of day. Of a fraction six digits count. -/
def clock? (cs : List Char) : Option (Clock × List Char) := do
  let (hour, cs) ← bounded? 2 0 23 cs
  let (minute, cs) ← bounded? 2 0 59 (← after? ':' cs)
  let (second, cs) ← bounded? 2 0 59 (← after? ':' cs)
  match cs with
  | '.' :: rest =>
    let ds := rest.takeWhile Text.isAsciiDigit
    if ds.isEmpty then return (⟨hour, minute, second, 0⟩, cs)
    let micro := Text.spelled 10 ((ds ++ List.replicate 6 '0').take 6)
    return (⟨hour, minute, second, micro⟩, rest.drop ds.length)
  | _ => return (⟨hour, minute, second, 0⟩, cs)

/-- The minutes that a place is ahead of universal time. -/
def offset? (cs : List Char) : Option (Int × List Char) :=
  match cs with
  | [] => none
  | c :: rest =>
    if c = 'Z' || c = 'z' then some (0, rest)
    else if c = '+' || c = '-' then do
      let (hours, rest) ← bounded? 2 0 23 rest
      let (minutes, rest) ← bounded? 2 0 59 (← after? ':' rest)
      return (Integer.signed (c == '-') (hours * 60 + minutes), rest)
    else none

/-- The numbers of a date. -/
def dateNumbers? (cs : List Char) : Option ((Nat × Nat × Nat) × List Char) := do
  let (year, cs) ← bounded? 4 0 9999 cs
  let (month, cs) ← bounded? 2 1 12 (← after? '-' cs)
  let (day, cs) ← bounded? 2 1 31 (← after? '-' cs)
  return ((year, month, day), cs)

/-- The time that follows a date, with the text after it. -/
def timeAfterDate? (cs : List Char) : Option (Clock × Option Int × List Char) := do
  match cs with
  | c :: rest =>
    if c = 'T' || c = 't' || c = ' ' then
      let (clock, rest) ← clock? rest
      match offset? rest with
      | some (minutes, rest') => return (clock, some minutes, rest')
      | none => return (clock, none, rest)
    else none
  | [] => none

/-- A date, with or without a time, if the text has the form of one. -/
def moment? (cs : List Char) : Option (Except TomlFault Value × List Char) :=
  match dateNumbers? cs with
  | none => none
  | some ((year, month, day), rest) =>
    match Calendar.date year month day, timeAfterDate? rest with
    | .error _, _ => some (.error .malformed, rest)
    | .ok date, none => some (.ok (.date date), rest)
    | .ok date, some (clock, offset, rest') => some (.ok (.moment ⟨date, clock, offset⟩), rest')

/-- A value that is neither a text nor a collection. -/
def plainValue : Reader Value := do
  let cs ← get
  if "true".toList.isPrefixOf cs then
    skip 4
    return .bool true
  else if "false".toList.isPrefixOf cs then
    skip 5
    return .bool false
  else
    match moment? cs with
    | some (.ok v, rest) =>
      set rest
      return v
    | some (.error e, _) => throw e
    | none =>
      match clock? cs with
      | some (clock, rest) =>
        set rest
        return .clock clock
      | none =>
        match basedInteger? cs with
        | some (n, rest) =>
          set rest
          return .int n
        | none =>
          match decimal? cs with
          | some (.ok v, rest) =>
            set rest
            return v
          | some (.error e, _) => throw e
          | none =>
            match special? cs with
            | some (v, rest) =>
              set rest
              return v
            | none => fail

end Toml

end DeadSymbols
