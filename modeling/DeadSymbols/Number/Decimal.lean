import DeadSymbols.Number.Integer
import DeadSymbols.Number.Double

/-!
# Floating point numbers in text

A written number has digits with at most one point among or around them, and may have a sign, an
exponent and blanks around it; the numbers that are not finite are written as words.
-/

namespace DeadSymbols.Double

/-- The digits at the front, as numbers, and the text after them. -/
def leadingDigits (cs : List Char) : List Nat × List Char :=
  let ds := cs.takeWhile fun c => (Text.digitValue? c).isSome
  (ds.filterMap Text.digitValue?, cs.drop ds.length)

/-- The exponent that is the whole of a text; no text is no exponent. -/
def wholeExponent? (cs : List Char) : Option Int :=
  match cs with
  | [] => some 0
  | e :: rest =>
    if e = 'e' || e = 'E' then
      let (negative, rest) := Integer.splitSign rest
      match leadingDigits rest with
      | (d :: ds, []) => some (Integer.signed negative (Text.ofDigits 10 (d :: ds)))
      | _ => none
    else none

/-- The number without sign that a text spells. -/
def ofUnsigned? (negative : Bool) (cs : List Char) : Option Double :=
  let word := cs.map Char.toLower
  if word = "inf".toList || word = "infinity".toList then some (.infinite negative)
  else if word = "nan".toList then some .nan
  else
    let (whole, rest) := leadingDigits cs
    let (part, rest) :=
      match rest with
      | '.' :: rest' => leadingDigits rest'
      | _ => ([], rest)
    if whole.isEmpty && part.isEmpty then none
    else
      (wholeExponent? rest).map fun power =>
        ofDecimal negative (Text.ofDigits 10 (whole ++ part)) (power - part.length)

/-- The number that a text spells. -/
def ofString? (s : String) : Option Double :=
  let (negative, body) := Integer.splitSign (Text.trimBy Integer.isPadding s.toList)
  ofUnsigned? negative body

end DeadSymbols.Double
