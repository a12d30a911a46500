/-!
# Decimal digits

Every script's decimal digits stand in ten consecutive code points, so a table of zeros is enough.
-/

namespace DeadSymbols.Text

/-- The code points of the zeros of all decimal digit sets, in increasing order. -/
def zeros : List Nat :=
  [48, 1632, 1776, 1984, 2406, 2534, 2662, 2790, 2918, 3046, 3174, 3302, 3430, 3558, 3664, 3792,
   3872, 4160, 4240, 6112, 6160, 6470, 6608, 6784, 6800, 6992, 7088, 7232, 7248, 42528, 43216,
   43264, 43472, 43504, 43600, 44016, 65296, 66720, 68912, 69734, 69872, 69942, 70096, 70384,
   70736, 70864, 71248, 71360, 71472, 71904, 72016, 72784, 73040, 73120, 92768, 92864, 93008,
   120782, 120792, 120802, 120812, 120822, 123200, 123632, 125264, 130032]

/-- The value of a decimal digit of any script. -/
def digitValue? (c : Char) : Option Nat :=
  (zeros.find? fun z => z ≤ c.toNat && c.toNat ≤ z + 9).map (c.toNat - ·)

/-- The value of a digit among `0-9`, `a-z` and `A-Z`, where letters follow nine. -/
def alphanumericValue? (c : Char) : Option Nat :=
  if '0' ≤ c ∧ c ≤ '9' then some (c.toNat - '0'.toNat)
  else if 'a' ≤ c ∧ c ≤ 'z' then some (c.toNat - 'a'.toNat + 10)
  else if 'A' ≤ c ∧ c ≤ 'Z' then some (c.toNat - 'A'.toNat + 10)
  else none

/-- The value of a digit in a base of at most thirty-six. -/
def baseDigit? (base : Nat) (c : Char) : Option Nat :=
  (alphanumericValue? c).filter (· < base)

/-- Whether the character is one of `0-9`. -/
def isAsciiDigit (c : Char) : Bool :=
  '0' ≤ c && c ≤ '9'

/-- Whether the character is a hexadecimal digit. -/
def isHexDigit (c : Char) : Bool :=
  (baseDigit? 16 c).isSome

/-- The number that a list of digit values spells in a base. -/
def ofDigits (base : Nat) (digits : List Nat) : Nat :=
  digits.foldl (fun n d => n * base + d) 0

/-- The number that the digits among the characters spell; other characters are passed over. -/
def spelled (base : Nat) (cs : List Char) : Nat :=
  ofDigits base (cs.filterMap (baseDigit? base))

/-- The digits of a number in base sixteen, in lower case. -/
def hexDigits (n : Nat) : List Char :=
  Nat.toDigits 16 n

/-- The list with `fill` put before it until it has the given width. -/
def padLeft (width : Nat) (fill : Char) (cs : List Char) : List Char :=
  List.replicate (width - cs.length) fill ++ cs

/-- An integer in base sixteen with zeros up to the width; a minus sign takes one place of it. -/
def hexPadded (width : Nat) (n : Int) : List Char :=
  if n < 0 then '-' :: padLeft (width - 1) '0' (hexDigits n.natAbs)
  else padLeft width '0' (hexDigits n.natAbs)

/-- A natural number in base ten with zeros up to the width. -/
def decimalPadded (width : Nat) (n : Nat) : String :=
  String.ofList (padLeft width '0' (Nat.toDigits 10 n))

end DeadSymbols.Text
