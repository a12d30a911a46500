/-!
# Binary floating point numbers of double width

A finite number is a sign, a whole mantissa below `2^53` and a power of two of at least `-1074`, so
that reading, truncating and comparing are exact arithmetic on whole numbers. `ofRatio` rounds a
quotient to the nearest such number, a tie to the even mantissa.
-/

namespace DeadSymbols

/-- A floating point number: `finite` stands for `± mantissa · 2 ^ exponent`. -/
inductive Double
  | nan
  | infinite (negative : Bool)
  | finite (negative : Bool) (mantissa : Nat) (exponent : Int)
  deriving DecidableEq, Repr

namespace Double

/-- The number of bits of a whole number. -/
def bitLength (n : Nat) : Nat :=
  if n = 0 then 0 else n.log2 + 1

/-- `n · 2 ^ e` as a fraction of whole numbers. -/
def scaled (n : Nat) (e : Int) : Nat × Nat :=
  if 0 ≤ e then (n <<< e.toNat, 1) else (n, 1 <<< (-e).toNat)

/-- The whole number nearest to a quotient, a tie to the even one. -/
def roundDiv (num den : Nat) : Nat :=
  let q := num / den
  let twice := 2 * (num % den)
  if twice < den then q
  else if den < twice then q + 1
  else if q % 2 = 0 then q else q + 1

/-- The exponent that puts the quotient between `2^52` and `2^53`, or the least one. -/
def exponentFor (num den : Nat) : Int :=
  let guess : Int := (bitLength num : Int) - bitLength den - 53
  let (n, d) := scaled num (-guess)
  -- the quotient of `n` by `den * d` lies between 2^52 and 2^54
  let e := if (den * d) <<< 53 ≤ n then guess + 1 else guess
  max e (-1074)

/-- The number nearest to the quotient `num / den` with a sign, a tie to the even mantissa. -/
def ofRatio (negative : Bool) (num den : Nat) : Double :=
  if num = 0 then .finite negative 0 (-1074)
  else
    let e := exponentFor num den
    let (n, d) := scaled num (-e)
    let m := roundDiv n (den * d)
    let (m, e) := if m = 1 <<< 53 then (1 <<< 52, e + 1) else (m, e)
    if 971 < e then .infinite negative else .finite negative m e

/-- The number of decimal digits of a whole number; zero has none. -/
def digitCount (n : Nat) : Nat :=
  if n = 0 then 0 else (Nat.toDigits 10 n).length

/-- The number nearest to `± digits · 10 ^ exponent`. Values far outside the range are settled
without computing the power. -/
def ofDecimal (negative : Bool) (digits : Nat) (exponent : Int) : Double :=
  let size : Int := exponent + digitCount digits
  if digits = 0 ∨ size < -330 then .finite negative 0 (-1074)
  else if 320 < size then .infinite negative
  else if 0 ≤ exponent then ofRatio negative (digits * Nat.pow 10 exponent.toNat) 1
  else ofRatio negative digits (Nat.pow 10 (-exponent).toNat)

/-- Whether the number is a zero of either sign. -/
def isZero : Double → Bool
  | .finite _ 0 _ => true
  | _ => false

/-- The number with its fraction dropped; a number that is not finite has none. -/
def truncated? : Double → Option Int
  | .finite negative m e =>
    let (n, d) := scaled m e
    some (if negative then -((n / d : Nat) : Int) else ((n / d : Nat) : Int))
  | _ => none

/-- Whether the number is the given whole number. -/
def equalsInt : Double → Int → Bool
  | .finite negative m e, k =>
    let (n, d) := scaled m e
    n % d == 0 && (if negative then -((n / d : Nat) : Int) else ((n / d : Nat) : Int)) == k
  | _, _ => false

/-- The number with the other sign. -/
def negate : Double → Double
  | .nan => .nan
  | .infinite negative => .infinite !negative
  | .finite negative m e => .finite (!negative) m e

/-- The product of two numbers, rounded. -/
def mul : Double → Double → Double
  | .finite n₁ m₁ e₁, .finite n₂ m₂ e₂ =>
    let (num, den) := scaled (m₁ * m₂) (e₁ + e₂)
    ofRatio (n₁ != n₂) num den
  | .infinite n₁, .finite n₂ m _ => if m = 0 then .nan else .infinite (n₁ != n₂)
  | .finite n₁ m _, .infinite n₂ => if m = 0 then .nan else .infinite (n₁ != n₂)
  | .infinite n₁, .infinite n₂ => .infinite (n₁ != n₂)
  | _, _ => .nan

/-- The sum of two numbers, rounded. -/
def add : Double → Double → Double
  | .finite n₁ m₁ e₁, .finite n₂ m₂ e₂ =>
    let e := min e₁ e₂
    let whole (negative : Bool) (m : Nat) (power : Int) : Int :=
      let n : Int := (m <<< (power - e).toNat : Nat)
      if negative then -n else n
    let sum := whole n₁ m₁ e₁ + whole n₂ m₂ e₂
    let (num, den) := scaled sum.natAbs e
    ofRatio (if sum = 0 then n₁ && n₂ else sum < 0) num den
  | .infinite n₁, .infinite n₂ => if n₁ = n₂ then .infinite n₁ else .nan
  | .infinite n, .finite _ _ _ => .infinite n
  | .finite _ _ _, .infinite n => .infinite n
  | _, _ => .nan

/-- Whether two numbers are the same as keys: the zeros are one key and so is every not-a-number. -/
def sameKey (x y : Double) : Bool :=
  (x.isZero && y.isZero) || x == y

end Double

end DeadSymbols
