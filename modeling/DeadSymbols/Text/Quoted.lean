import DeadSymbols.Text.Digit
import DeadSymbols.Text.Printable
import DeadSymbols.Text.Utf8

/-!
# Quoted texts

A text in a message stands between single quotes, or between double quotes when it holds single
quotes and no double ones. The quote in use, the backslash and the characters that have no printed
form are escaped. A byte string is quoted the same way, with `b` before it.
-/

namespace DeadSymbols.Text

/-- The single quote. -/
def singleQuote : Char := Char.ofNat 39

/-- The quote around a text. -/
def chosenQuote (cs : List Char) : Char :=
  if cs.contains singleQuote && !cs.contains '"' then '"' else singleQuote

/-- A backslash, a letter for the width, and the code point in that many hexadecimal digits. -/
def escapedCode (n : Nat) : List Char :=
  if n < 0x100 then '\\' :: 'x' :: padLeft 2 '0' (hexDigits n)
  else if n < 0x10000 then '\\' :: 'u' :: padLeft 4 '0' (hexDigits n)
  else '\\' :: 'U' :: padLeft 8 '0' (hexDigits n)

/-- One character between quotes; `shown` says which ones stand for themselves. -/
def quotedChar (shown : Char → Bool) (quote c : Char) : List Char :=
  if c = quote ∨ c = '\\' then ['\\', c]
  else if c = '\n' then ['\\', 'n']
  else if c = '\r' then ['\\', 'r']
  else if c = '\t' then ['\\', 't']
  else if shown c then [c]
  else escapedCode c.toNat

/-- The characters between their quotes. -/
def quotedBy (shown : Char → Bool) (cs : List Char) : List Char :=
  let quote := chosenQuote cs
  quote :: cs.flatMap (quotedChar shown quote) ++ [quote]

/-- The text in quotes. -/
def quoted (s : String) : String :=
  String.ofList (quotedBy isPrintable s.toList)

/-- The text in quotes, with every character outside ASCII escaped. -/
def quotedAscii (s : String) : String :=
  String.ofList (quotedBy (fun c => c.toNat < 0x80 && isPrintable c) s.toList)

/-- The byte string in quotes. -/
def quotedBytes (bytes : Bytes) : String :=
  String.ofList ('b' :: quotedBy (fun c => c.toNat < 0x80 && isPrintable c)
    (bytes.map fun b => Char.ofNat b.toNat))

end DeadSymbols.Text
