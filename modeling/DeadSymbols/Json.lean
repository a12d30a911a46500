import DeadSymbols.Value

/-!
# Reading JSON

The reader accepts the standard grammar and the three words `NaN`, `Infinity` and `-Infinity`. A
number without fraction and exponent is an integer of any size up to the digit limit; a key that
comes twice has the value of its last entry at the place of its first.

Every call of a reading function comes after at least one character was taken, so the length of
the text is a bound on the nesting of calls.
-/

namespace DeadSymbols

/-- Why a text is not read as JSON. -/
inductive JsonFault
  /-- It is not in the grammar. -/
  | malformed
  /-- An integer has too many digits. -/
  | integer (fault : IntegerFault)
  deriving DecidableEq, Repr

namespace Json

/-- A blank between the parts of a value. -/
def isSpace (c : Char) : Bool :=
  c == ' ' || c == '\t' || c == '\n' || c == '\r'

/-- The text from its first character that is not a blank. -/
def skip (cs : List Char) : List Char :=
  cs.dropWhile isSpace

/-- The rest of the text after a word it starts with. -/
def after? (word : String) (cs : List Char) : Option (List Char) :=
  let w := word.toList
  if w.isPrefixOf cs then some (cs.drop w.length) else none

/-! ## Strings -/

/-- Four hexadecimal digits and the rest. -/
def fourHex : List Char → Option (Nat × List Char)
  | a :: b :: c :: d :: rest =>
    if [a, b, c, d].all Text.isHexDigit then some (Text.spelled 16 [a, b, c, d], rest) else none
  | _ => none

/-- The character of a `\u` escape and the rest. Two halves of a pair are one character. A half
without its partner is no character, and a text here is a sequence of characters: the replacement
character stands in its place, so texts that differ only in such halves are not told apart. -/
def unicodeEscape (cs : List Char) : Option (Char × List Char) :=
  match fourHex cs with
  | none => none
  | some (high, rest) =>
    if 0xd800 ≤ high ∧ high < 0xdc00 then
      match rest with
      | '\\' :: 'u' :: more =>
        match fourHex more with
        | none => none
        | some (low, rest') =>
          if 0xdc00 ≤ low ∧ low < 0xe000 then
            some (Char.ofNat (0x10000 + (high - 0xd800) * 1024 + (low - 0xdc00)), rest')
          else some (Text.replacement, rest)
      | _ => some (Text.replacement, rest)
    else if 0xdc00 ≤ high ∧ high < 0xe000 then some (Text.replacement, rest)
    else some (Char.ofNat high, rest)

/-- The character that a letter after a backslash stands for. -/
def escapeLetter? (c : Char) : Option Char :=
  if c = '"' ∨ c = '\\' ∨ c = '/' then some c
  else if c = 'b' then some (Char.ofNat 8)
  else if c = 'f' then some (Char.ofNat 12)
  else if c = 'n' then some '\n'
  else if c = 'r' then some '\r'
  else if c = 't' then some '\t'
  else none

/-- The characters of a string whose opening quote was taken, reversed onto `taken`, and the rest
after the closing quote. -/
def string : Nat → List Char → List Char → Except JsonFault (String × List Char)
  | 0, _, _ => .error .malformed
  | fuel + 1, taken, cs =>
    match cs with
    | [] => .error .malformed
    | '"' :: rest => .ok (String.ofList taken.reverse, rest)
    | '\\' :: 'u' :: rest =>
      match unicodeEscape rest with
      | none => .error .malformed
      | some (c, rest') => string fuel (c :: taken) rest'
    | '\\' :: letter :: rest =>
      match escapeLetter? letter with
      | none => .error .malformed
      | some c => string fuel (c :: taken) rest
    | c :: rest =>
      if c = '\\' ∨ c.toNat < 0x20 then .error .malformed else string fuel (c :: taken) rest

/-! ## Numbers -/

/-- The digits at the front and the rest. -/
def digits (cs : List Char) : List Char × List Char :=
  cs.span Text.isAsciiDigit

/-- The digits after a point, if the text goes on with a point and a digit. -/
def fraction (cs : List Char) : List Char × List Char :=
  match cs with
  | '.' :: rest =>
    let (ds, rest') := digits rest
    if ds.isEmpty then ([], cs) else (ds, rest')
  | _ => ([], cs)

/-- The exponent, if the text goes on with one. -/
def exponent (cs : List Char) : Option Int × List Char :=
  match cs with
  | e :: rest =>
    if e = 'e' ∨ e = 'E' then
      let (negative, body) := Integer.splitSign rest
      let (ds, rest') := digits body
      if ds.isEmpty then (none, cs)
      else (some (Integer.signed negative (Text.spelled 10 ds)), rest')
    else (none, cs)
  | [] => (none, cs)

/-- The digits before the point: a zero stands alone. -/
def wholePart (cs : List Char) : List Char × List Char :=
  match cs with
  | '0' :: rest => (['0'], rest)
  | _ => digits cs

/-- A number and the rest of the text. -/
def number (cs : List Char) : Except JsonFault (Value × List Char) :=
  let (negative, body) :=
    match cs with
    | '-' :: rest => (true, rest)
    | _ => (false, cs)
  let (whole, rest) := wholePart body
  if whole.isEmpty then .error .malformed
  else
    let (frac, rest') := fraction rest
    let (exp, rest'') := exponent rest'
    if frac.isEmpty ∧ exp.isNone then
      if Integer.maxDigits < whole.length then .error (.integer (.tooLong whole.length))
      else .ok (.int (Integer.signed negative (Text.spelled 10 whole)), rest'')
    else
      let mantissa := Text.spelled 10 (whole ++ frac)
      .ok (.real (Double.ofDecimal negative mantissa (exp.getD 0 - frac.length)), rest'')

/-- The words that stand for values. -/
def wordValues : List (String × Value) :=
  [("null", .null), ("true", .bool true), ("false", .bool false), ("NaN", .real .nan),
   ("Infinity", .real (.infinite false)), ("-Infinity", .real (.infinite true))]

/-- The value of the word the text starts with, and the rest. -/
def word? (cs : List Char) : Option (Value × List Char) :=
  wordValues.findSome? fun (w, v) => (after? w cs).map fun rest => (v, rest)

/-! ## Values -/

mutual

/-- The value the text starts with and the rest after it. -/
def value : Nat → List Char → Except JsonFault (Value × List Char)
  | 0, _ => .error .malformed
  | fuel + 1, cs =>
    match cs with
    | '"' :: rest => (string fuel [] rest).map fun (s, rest') => (.text s, rest')
    | '[' :: rest =>
      match skip rest with
      | ']' :: rest' => .ok (.list [], rest')
      | rest' => (items fuel rest').map fun (vs, rest'') => (.list vs, rest'')
    | '\x7b' :: rest =>
      match skip rest with
      | '\x7d' :: rest' => .ok (.map [], rest')
      | rest' => members fuel [] rest'
    | _ =>
      match word? cs with
      | some found => .ok found
      | none => number cs

/-- The items of an array up to its closing bracket, at least one. -/
def items : Nat → List Char → Except JsonFault (List Value × List Char)
  | 0, _ => .error .malformed
  | fuel + 1, cs =>
    match value fuel cs with
    | .error e => .error e
    | .ok (v, rest) =>
      match skip rest with
      | ',' :: rest' =>
        match items fuel (skip rest') with
        | .error e => .error e
        | .ok (vs, rest'') => .ok (v :: vs, rest'')
      | ']' :: rest' => .ok ([v], rest')
      | _ => .error .malformed

/-- The members of an object up to its closing brace, at least one, after those already read. -/
def members : Nat → List (Value × Value) → List Char → Except JsonFault (Value × List Char)
  | 0, _, _ => .error .malformed
  | fuel + 1, entries, cs =>
    match cs with
    | '"' :: rest =>
      match string fuel [] rest with
      | .error e => .error e
      | .ok (key, rest') =>
        match skip rest' with
        | ':' :: rest'' =>
          match value fuel (skip rest'') with
          | .error e => .error e
          | .ok (v, after) =>
            let entries := Value.putEntry entries (.text key) v
            match skip after with
            | ',' :: more => members fuel entries (skip more)
            | '\x7d' :: more => .ok (.map entries, more)
            | _ => .error .malformed
        | _ => .error .malformed
    | _ => .error .malformed

end

/-- The value a whole text holds. -/
def read (s : String) : Except JsonFault Value :=
  let cs := s.toList
  match value (2 * cs.length + 1) (skip cs) with
  | .error e => .error e
  | .ok (v, rest) => if (skip rest).isEmpty then .ok v else .error .malformed

end Json

end DeadSymbols
