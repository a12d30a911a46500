import DeadSymbols.Text.Blank
import DeadSymbols.Text.Digit
import DeadSymbols.Text.Quoted

/-!
# Integers in text

A written integer may have blanks around it, a sign, and single underscores between its digits, and
its digits may be the decimal digits of any script. More than `maxDigits` digits are refused, and so
it is when an integer is to be written.
-/

namespace DeadSymbols

/-- Why a text is not an integer. -/
inductive IntegerFault
  /-- It is not spelled like one; the text and the base are kept for the message. -/
  | malformed (literal : String) (base : Nat)
  /-- It has too many digits. -/
  | tooLong (digits : Nat)
  deriving DecidableEq, Repr

namespace Integer

/-- The number of digits up to which a text is converted. -/
def maxDigits : Nat := 4300

/-- The wording of a fault. -/
def faultMessage : IntegerFault → String
  | .malformed literal base =>
    "invalid literal for int() with base " ++ toString base ++ ": " ++ literal
  | .tooLong digits =>
    "Exceeds the limit (" ++ toString maxDigits ++
      " digits) for integer string conversion: value has " ++ toString digits ++
      " digits; use sys.set_int_max_str_digits() to increase the limit"

/-- The wording about an integer that has too many digits to be written. -/
def unwritableMessage : String :=
  "Exceeds the limit (" ++ toString maxDigits ++
    " digits) for integer string conversion; use sys.set_int_max_str_digits() to increase the limit"

/-- Whether an integer is written out: it has no more digits than a text that is converted. -/
def isWritable (n : Int) : Bool :=
  (Nat.toDigits 10 n.natAbs).length ≤ maxDigits

/-- A blank that may stand around an integer: of the characters up to the space only the six that
typewriters knew. -/
def isPadding (c : Char) : Bool :=
  Text.isBlank c && !(0x1c ≤ c.toNat && c.toNat ≤ 0x1f)

/-- Digits with single underscores between them; `digit?` gives the value of a digit. The flag says
whether an underscore may come next. -/
def digitsOf? (digit? : Char → Option Nat) (afterDigit : Bool) : List Char → Option (List Nat)
  | [] => if afterDigit then some [] else none
  | c :: rest =>
    if c = '_' then
      if afterDigit then digitsOf? digit? false rest else none
    else
      match digit? c with
      | none => none
      | some d => (digitsOf? digit? true rest).map (d :: ·)

/-- The sign at the front of a text and what follows it. -/
def splitSign : List Char → Bool × List Char
  | '-' :: rest => (true, rest)
  | '+' :: rest => (false, rest)
  | rest => (false, rest)

/-- The integer with the given sign and size. -/
def signed (negative : Bool) (n : Nat) : Int :=
  if negative then -(n : Int) else n

/-- The integer a text spells in base ten. -/
def read (s : String) : Except IntegerFault Int :=
  let (negative, body) := splitSign (Text.trimBy isPadding s.toList)
  match digitsOf? Text.digitValue? false body with
  | none => .error (.malformed (Text.quoted s) 10)
  | some digits =>
    if maxDigits < digits.length then .error (.tooLong digits.length)
    else .ok (signed negative (Text.ofDigits 10 digits))

/-- The text after the mark of a base, which may be left out. -/
def afterMark (base : Nat) (cs : List Char) : List Char :=
  match cs with
  | '0' :: c :: rest =>
    let c := c.toLower
    if (base = 2 && c == 'b') || (base = 8 && c == 'o') || (base = 16 && c == 'x') then
      (match rest with
       | '_' :: rest' => rest'
       | _ => rest)
    else cs
  | _ => cs

/-- The integer a text spells in a base of two, eight or sixteen. Its length does not matter. -/
def readBased (base : Nat) (s : String) : Except IntegerFault Int :=
  let (negative, body) := splitSign (Text.trimBy isPadding s.toList)
  let digit? (c : Char) := (Text.digitValue? c).or (Text.alphanumericValue? c) |>.filter (· < base)
  match digitsOf? digit? false (afterMark base body) with
  | none => .error (.malformed (Text.quoted s) base)
  | some digits => .ok (signed negative (Text.ofDigits base digits))

/-- The integer a byte string spells in base ten. -/
def readBytes (bytes : Text.Bytes) : Except IntegerFault Int :=
  let cs := bytes.map fun b => Char.ofNat b.toNat
  let padding := fun (c : Char) => c.toNat < 0x80 && isPadding c
  let (negative, body) := splitSign (Text.trimBy padding cs)
  match digitsOf? (Text.baseDigit? 10) false body with
  | none => .error (.malformed (Text.quotedBytes bytes) 10)
  | some digits =>
    if maxDigits < digits.length then .error (.tooLong digits.length)
    else .ok (signed negative (Text.ofDigits 10 digits))

end Integer

end DeadSymbols
