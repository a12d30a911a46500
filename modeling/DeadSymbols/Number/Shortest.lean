import DeadSymbols.Number.Double

/-!
# The shortest decimal of a number

A floating point number is written with the fewest digits that read back as the same number, and
among those with the nearest ones. The reals that read back as a number form an interval around it,
with its ends if and only if the mantissa is even; for one digit, two digits and so on the two
neighbours of the number on that decimal grid are tried, in exact arithmetic.
-/

namespace DeadSymbols.Double

/-- The power of ten of the leading digit of a positive quotient. -/
def leadingPower (num den : Nat) : Int :=
  if den ≤ num then (digitCount (num / den) : Int) - 1
  else -(digitCount ((den + num - 1) / num - 1) : Int)

/-- `num / den / 10 ^ power` as a fraction. -/
def unscaled (num den : Nat) (power : Int) : Nat × Nat :=
  if 0 ≤ power then (num, den * Nat.pow 10 power.toNat)
  else (num * Nat.pow 10 (-power).toNat, den)

/-- The ends of the interval that reads back as `m · 2 ^ e`, in quarters of `2 ^ e`. Below a power
of two the gap is half as wide. -/
def interval (m : Nat) (e : Int) : Nat × Nat :=
  (if m = 1 <<< 52 ∧ -1074 < e then 4 * m - 1 else 4 * m - 2, 4 * m + 2)

/-- Whether `digits · 10 ^ power` reads back as `m · 2 ^ e`. -/
def readsBack (m : Nat) (e : Int) (digits : Nat) (power : Int) : Bool :=
  let (low, high) := interval m e
  -- both sides in quarters of 2 ^ e
  let (n, d) := if 0 ≤ power then (4 * digits * Nat.pow 10 power.toNat, 1)
    else (4 * digits, Nat.pow 10 (-power).toNat)
  let (n, d) := if 0 ≤ e then (n, d <<< e.toNat) else (n <<< (-e).toNat, d)
  if m % 2 = 0 then low * d ≤ n && n ≤ high * d else low * d < n && n < high * d

/-- The nearest of the two neighbours on the grid `10 ^ power` that read back. -/
def onGrid (m : Nat) (e : Int) (power : Int) : Option Nat :=
  let (num, den) := scaled m e
  let (n, d) := unscaled num den power
  let below := n / d
  let twice := 2 * (n % d)
  let nearer := if twice < d ∨ (twice = d ∧ below % 2 = 0) then below else below + 1
  let other := if nearer = below then below + 1 else below
  if readsBack m e nearer power then some nearer
  else if readsBack m e other power then some other
  else none

/-- The first grid with a hit, among those of `count`, `count + 1`, … digits. -/
def firstGrid (m : Nat) (e : Int) (top : Int) : Nat → Int → Nat × Int
  | 0, count => ((onGrid m e (top - count + 1)).getD 0, top - count + 1)
  | more + 1, count =>
    match onGrid m e (top - count + 1) with
    | some digits => (digits, top - count + 1)
    | none => firstGrid m e top more (count + 1)

/-- Digits and power of ten of the shortest decimal of `m · 2 ^ e`, for a positive mantissa. Every
number has one of at most seventeen digits. -/
def shortest (m : Nat) (e : Int) : Nat × Int :=
  let (num, den) := scaled m e
  firstGrid m e (leadingPower num den) 16 1

/-- The digits without the zeros at their end. -/
def significant (digits : Nat) : List Char :=
  ((Nat.toDigits 10 digits).reverse.dropWhile (· == '0')).reverse

/-- An exponent of ten with its sign and at least two digits. -/
def exponentText (e : Int) : List Char :=
  let digits := Nat.toDigits 10 e.natAbs
  (if e < 0 then '-' else '+') :: (List.replicate (2 - digits.length) '0' ++ digits)

/-- The digits with the point after `point` of them: positional when the point is near the digits,
with an exponent otherwise. -/
def placed (digits : List Char) (point : Int) : List Char :=
  if -4 < point ∧ point ≤ 16 then
    if point ≤ 0 then '0' :: '.' :: (List.replicate (-point).toNat '0' ++ digits)
    else if (digits.length : Int) ≤ point then
      digits ++ List.replicate (point.toNat - digits.length) '0' ++ ['.', '0']
    else digits.take point.toNat ++ '.' :: digits.drop point.toNat
  else
    match digits with
    | [d] => d :: 'e' :: exponentText (point - 1)
    | _ => digits.take 1 ++ '.' :: digits.drop 1 ++ 'e' :: exponentText (point - 1)

/-- The text of a number. -/
def text : Double → String
  | .nan => "nan"
  | .infinite negative => if negative then "-inf" else "inf"
  | .finite negative m e =>
    let body :=
      if m = 0 then ['0', '.', '0']
      else
        let (digits, power) := shortest m e
        let all := Nat.toDigits 10 digits
        placed (significant digits) (power + all.length)
    String.ofList (if negative then '-' :: body else body)

end DeadSymbols.Double
