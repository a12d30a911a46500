import DeadSymbols.Number.Decimal
import DeadSymbols.Text.Letter
import DeadSymbols.Value
import DeadSymbols.Yaml.Token

/-!
# YAML scalars

A scalar has a tag that says what kind of value its text stands for. A plain scalar without a tag
gets one from the form of its text: `implicitTag`. The forms are narrow, but a tag that is written
out may stand before any text, so each kind of value is read with faults of its own: `scalarValue`.
-/

namespace DeadSymbols.Yaml

/-- The kind of a node. -/
inductive Tag
  | null
  | bool
  | int
  | float
  | binary
  | timestamp
  | str
  | seq
  | map
  | set
  | omap
  | pairs
  | merge
  | value
  | unknown
  deriving DecidableEq, Repr

/-- The tags that are known, by the last part of their names. -/
def Tag.names : List (String × Tag) :=
  [("null", .null), ("bool", .bool), ("int", .int), ("float", .float), ("binary", .binary),
   ("timestamp", .timestamp), ("str", .str), ("seq", .seq), ("map", .map), ("set", .set),
   ("omap", .omap), ("pairs", .pairs), ("merge", .merge), ("value", .value)]

/-- What the names of the known tags start with. -/
def Tag.family : String := "tag:yaml.org,2002:"

/-- The tag with a full name. -/
def Tag.ofName (name : String) : Tag :=
  ((names.find? fun (short, _) => name = family ++ short).map (·.2)).getD .unknown

/-- Whether nodes of this tag are collections, whose content is looked at later than they are. -/
def Tag.isCollection : Tag → Bool
  | .seq | .map | .set | .omap | .pairs => true
  | _ => false

/-! ## The forms of plain scalars -/

/-- The words for truth values, in lower case. -/
def truthWords : List (String × Bool) :=
  [("yes", true), ("no", false), ("true", true), ("false", false), ("on", true), ("off", false)]

/-- A word in lower case, capitalised and in upper case. -/
def casings (word : String) : List String := [word, word.capitalize, Text.upperCase word]

/-- A digit, or an underscore between digits. -/
def isDigitMark (c : Char) : Bool := Text.isAsciiDigit c || c == '_'

/-- A digit and more digits with underscores. -/
def isDigits (cs : List Char) : Bool := cs.head?.any Text.isAsciiDigit && cs.all isDigitMark

/-- An exponent, whose sign is written, or nothing. -/
def isExponent : List Char → Bool
  | [] => true
  | e :: sign :: ds =>
    (e == 'e' || e == 'E') && (sign == '+' || sign == '-') && !ds.isEmpty &&
      ds.all Text.isAsciiDigit
  | _ => false

/-- What may follow the point of a number. -/
def isFraction (cs : List Char) : Bool := isExponent (cs.dropWhile isDigitMark)

/-- A number below sixty. -/
def isSixtieth : List Char → Bool
  | [d] => Text.isAsciiDigit d
  | [t, d] => '0' ≤ t && t ≤ '5' && Text.isAsciiDigit d
  | _ => false

/-- A number in groups of base sixty, of which there are two at least. -/
def isGrouped (cs : List Char) : Bool :=
  match Text.splitAt ':' cs with
  | first :: second :: more => isDigits first && (second :: more).all isSixtieth
  | _ => false

/-- The form of a floating point number. -/
def isFloat (cs : List Char) : Bool :=
  let body := (Integer.splitSign cs).2
  let whole := body.takeWhile (· != '.')
  (match body.dropWhile (· != '.') with
   | _ :: fraction =>
     (isDigits whole && isFraction fraction) || (isGrouped whole && fraction.all isDigitMark)
   | [] => false) ||
  (match cs with
   | '.' :: fraction => fraction.head?.any Text.isAsciiDigit && isFraction fraction
   | _ => false) ||
  [".inf", ".Inf", ".INF"].contains (String.ofList body) ||
  [".nan", ".NaN", ".NAN"].contains (String.ofList cs)

/-- The form of an integer. -/
def isInt (cs : List Char) : Bool :=
  let marked (inClass : Char → Bool) (ds : List Char) :=
    !ds.isEmpty && ds.all fun c => inClass c || c == '_'
  match (Integer.splitSign cs).2 with
  | ['0'] => true
  | '0' :: rest =>
    marked (fun c => '0' ≤ c && c ≤ '7') rest ||
      (match rest with
       | 'b' :: ds => marked (fun c => c == '0' || c == '1') ds
       | 'x' :: ds => marked Text.isHexDigit ds
       | _ => false)
  | body => isDigits body || isGrouped body

/-- The numbers of a timestamp, as they are written. -/
structure Stamp where
  year : List Char
  month : List Char
  day : List Char
  /-- Hour, minute, second and the digits of the fraction. -/
  clock : Option (List Char × List Char × List Char × List Char)
  /-- The minutes ahead of universal time. -/
  offset : Option Int

/-- A number of one or two digits at the front, and the text after it. -/
def oneOrTwo (cs : List Char) : Option (List Char × List Char) :=
  match cs.take 2 |>.takeWhile Text.isAsciiDigit with
  | [] => none
  | ds => some (ds, cs.drop ds.length)

/-- Some digits at the front, and the text after them. -/
def exactly (size : Nat) (cs : List Char) : Option (List Char × List Char) :=
  let ds := cs.take size
  if ds.length = size && ds.all Text.isAsciiDigit then some (ds, cs.drop size) else none

/-- The text after a character. -/
def after (c : Char) : List Char → Option (List Char)
  | d :: rest => if c = d then some rest else none
  | [] => none

/-- The offset that ends a timestamp, or nothing at all. -/
def stampOffset (cs : List Char) : Option (Option Int) :=
  match cs with
  | [] => some none
  | _ =>
    match cs.dropWhile fun c => c == ' ' || c == '\t' with
    | ['Z'] => some (some 0)
    | sign :: rest =>
      if sign = '+' || sign = '-' then do
        let (hours, rest) ← oneOrTwo rest
        let minutes ←
          match rest with
          | [] => some []
          | _ => do
            let (minutes, rest) ← exactly 2 (← after ':' rest)
            if rest.isEmpty then some minutes else none
        let ahead : Nat := Text.spelled 10 hours * 60 + Text.spelled 10 minutes
        some (some (if sign = '-' then -(ahead : Int) else ahead))
      else none
    | [] => none

/-- The time that follows the date of a timestamp. -/
def stampClock (cs : List Char) :
    Option ((List Char × List Char × List Char × List Char) × Option Int) := do
  let rest ←
    match cs with
    | 'T' :: rest => some rest
    | 't' :: rest => some rest
    | _ =>
      let rest := cs.dropWhile fun c => c == ' ' || c == '\t'
      if rest.length < cs.length then some rest else none
  let (hour, rest) ← oneOrTwo rest
  let (minute, rest) ← exactly 2 (← after ':' rest)
  let (second, rest) ← exactly 2 (← after ':' rest)
  let (fraction, rest) :=
    match rest with
    | '.' :: rest' => (rest'.takeWhile Text.isAsciiDigit, rest'.dropWhile Text.isAsciiDigit)
    | _ => ([], rest)
  let offset ← stampOffset rest
  some ((hour, minute, second, fraction), offset)

/-- The numbers of a timestamp. -/
def stamp? (cs : List Char) : Option Stamp := do
  let (year, rest) ← exactly 4 cs
  let (month, rest) ← oneOrTwo (← after '-' rest)
  let (day, rest) ← oneOrTwo (← after '-' rest)
  if rest.isEmpty then return ⟨year, month, day, none, none⟩
  let (clock, offset) ← stampClock rest
  return ⟨year, month, day, some clock, offset⟩

/-- The form of a timestamp. A date alone has two digits for month and day. -/
def isTimestamp (cs : List Char) : Bool :=
  match stamp? cs with
  | none => false
  | some s => s.clock.isSome || (s.month.length == 2 && s.day.length == 2)

/-- The text without a line break at its end, which the forms overlook. -/
def withoutLastBreak (cs : List Char) : List Char :=
  if cs.getLast? = some '\n' then cs.dropLast else cs

/-- The tag that the form of a text gives it. -/
def implicitTag (text : String) : Tag :=
  let cs := withoutLastBreak text.toList
  let word := String.ofList cs
  if (truthWords.flatMap fun (w, _) => casings w).contains word then .bool
  else if isFloat cs then .float
  else if isInt cs then .int
  else if word = "<<" then .merge
  else if text.isEmpty || ["~", "null", "Null", "NULL"].contains word then .null
  else if isTimestamp cs then .timestamp
  else if word = "=" then .value
  else .str

/-! ## Values -/

/-- The integer that the groups of a number spell in base sixty, the last group first. -/
def groupedInt : List (List Char) → Except IntegerFault Int
  | [] => .ok 0
  | cs :: rest => do
    let n ← Integer.read (String.ofList cs)
    return n + 60 * (← groupedInt rest)

/-- Without the underscores. -/
def withoutMarks (cs : List Char) : List Char := cs.filter (· != '_')

/-- The integer of a scalar: binary, octal and hexadecimal numbers start with a zero, and colons
separate groups of base sixty. -/
def intValue (text : String) : Except YamlFault Int := do
  let (negative, body) := Integer.splitSign (withoutMarks text.toList)
  let size ←
    match body with
    | [] => throw .emptyNumber
    | '0' :: 'b' :: ds => (Integer.readBased 2 (String.ofList ds)).mapError .integer
    | '0' :: 'x' :: ds => (Integer.readBased 16 (String.ofList ds)).mapError .integer
    | '0' :: _ => (Integer.readBased 8 (String.ofList body)).mapError .integer
    | _ =>
      if body.contains ':' then do
        let parts := Text.splitAt ':' body
        let _ ← (parts.mapM fun p => Integer.read (String.ofList p)).mapError YamlFault.integer
        (groupedInt parts.reverse).mapError .integer
      else (Integer.read (String.ofList body)).mapError .integer
  return if negative then -size else size

/-- The floating point number that a text spells. -/
def floatPart (cs : List Char) : Except YamlFault Double :=
  match Double.ofString? (String.ofList cs) with
  | some x => .ok x
  | none => .error (.number (String.ofList cs))

/-- The sum of groups of base sixty, the last group first. The weight of each group has to be a
floating point number itself, also where the group is zero. -/
def groupedFloat (sum : Double) (base : Nat) : List Double → Except YamlFault Double
  | [] => .ok sum
  | x :: rest =>
    match Double.ofRatio false base 1 with
    | .infinite _ => .error .tooManyGroups
    | weight => groupedFloat (sum.add (x.mul weight)) (base * 60) rest

/-- The floating point number of a scalar. -/
def floatValue (text : String) : Except YamlFault Double := do
  let cs := (Text.lowerCase (String.ofList (withoutMarks text.toList))).toList
  if cs.isEmpty then throw .emptyNumber
  let (negative, body) := Integer.splitSign cs
  let word := String.ofList body
  let size ←
    if word = ".inf" then pure (Double.infinite false)
    else if word = ".nan" then pure Double.nan
    else if body.contains ':' then do
      let groups ← (Text.splitAt ':' body).mapM floatPart
      groupedFloat (Double.ofRatio false 0 1) 1 groups.reverse
    else floatPart body
  return if negative then size.negate else size

/-- The bytes that a base-64 text stands for. Other characters are passed over; the text has to end
with a group of four, which padding may complete. The arguments are the number of characters of the
group so far, the bits that are left of the last, and the padding met in a row. -/
def base64 (place bits pads : Nat) : List Char → Option Text.Bytes
  | [] => if place = 0 then some [] else none
  | c :: rest =>
    if c = '=' then
      if 2 ≤ place then
        if 4 ≤ place + pads + 1 then some [] else base64 place bits (pads + 1) rest
      else base64 place bits pads rest
    else
      let digit? : Option Nat :=
        if c.isUpper then some (c.toNat - 65)
        else if c.isLower then some (c.toNat - 71)
        else if Text.isAsciiDigit c then some (c.toNat + 4)
        else if c = '+' then some 62
        else if c = '/' then some 63
        else none
      match digit? with
      | none => base64 place bits pads rest
      | some d =>
        match place with
        | 0 => base64 1 d 0 rest
        | 1 => (base64 2 (d % 16) 0 rest).map (UInt8.ofNat (bits * 4 + d / 16) :: ·)
        | 2 => (base64 3 (d % 4) 0 rest).map (UInt8.ofNat (bits * 16 + d / 4) :: ·)
        | _ => (base64 0 0 0 rest).map (UInt8.ofNat (bits * 64 + d) :: ·)

/-- The date or moment of a timestamp. An offset is checked before the rest. -/
def stampValue (s : Stamp) : Except CalendarFault Value := do
  let number := Text.spelled 10
  match s.clock with
  | none => return .date (← Calendar.date (number s.year) (number s.month) (number s.day))
  | some (hour, minute, second, fraction) =>
    let offset ← s.offset.mapM Calendar.offset
    let date ← Calendar.date (number s.year) (number s.month) (number s.day)
    let micro := number ((fraction ++ List.replicate 6 '0').take 6)
    let clock ← Calendar.clock (number hour) (number minute) (number second) micro
    return .moment ⟨date, clock, offset⟩

/-- The value that a text stands for under a tag. -/
def scalarValue (tag : Tag) (text : String) : Except YamlFault Value :=
  match tag with
  | .null => .ok .null
  | .bool =>
    match truthWords.lookup (Text.lowerCase text) with
    | some b => .ok (.bool b)
    | none => .error .truth
  | .int => (intValue text).map .int
  | .float => (floatValue text).map .real
  | .binary =>
    if text.toList.any fun c => 0x80 ≤ c.toNat then .error .malformed
    else
      match base64 0 0 0 text.toList with
      | some content => .ok (.bytes content)
      | none => .error .malformed
  | .timestamp =>
    match stamp? (withoutLastBreak text.toList) with
    | none => .error .timestamp
    | some s => (stampValue s).mapError .calendar
  | .str => .ok (.text text)
  | _ => .error .malformed

end DeadSymbols.Yaml
