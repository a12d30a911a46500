import DeadSymbols.Text.Blank

/-!
# Names of symbols

The text of a symbol ends in descriptors, each a name with marks around or after it: `a/`, `a#`,
`a.`, `a:`, `a!`, `a().`, `[a]`, `(a)`. The short name of a symbol is the name of its last
descriptor. It is found by looking, from the left, for the first place from which a name, an
optional parenthesis and an optional mark reach the end.
-/

namespace DeadSymbols.SymbolName

/-- How the texts of local symbols begin. -/
def localStart : List Char := "local ".toList

/-- Whether a symbol means something in its document only. -/
def isLocal (symbol : String) : Bool :=
  localStart.isPrefixOf symbol.toList

/-- A symbol with the document that tells it apart, which is empty for symbols of the build. -/
abbrev Key := String × String

/-- The key of a symbol that occurs in a document. -/
def key (path symbol : String) : Key :=
  (if isLocal symbol then path else "", symbol)

/-- A mark that may end a descriptor. -/
def isMark (c : Char) : Bool :=
  c == '/' || c == '#' || c == '.' || c == ':' || c == '!' || c == ']' || c == ')'

/-- The quote around a name with other characters. -/
def backquote : Char := Char.ofNat 96

/-- A character of a name without quotes. -/
def isNameChar (c : Char) : Bool :=
  !(isMark c || c == '[' || c == '(' || c == backquote)

/-- Whether nothing is left, a last line end apart. -/
def isEnd (cs : List Char) : Bool :=
  cs == [] || cs == ['\n']

/-- Whether nothing or a mark is left. -/
def isMarkEnd : List Char → Bool
  | [] => true
  | c :: rest => isEnd (c :: rest) || (isMark c && isEnd rest)

/-- What follows a parenthesis that the text starts with. -/
def afterParenthesis? : List Char → Option (List Char)
  | '(' :: rest =>
    match rest.dropWhile (· != ')') with
    | _ :: rest' => some rest'
    | [] => none
  | _ => none

/-- Whether an optional parenthesis and an optional mark reach the end. -/
def isTail (cs : List Char) : Bool :=
  (match afterParenthesis? cs with
   | some rest => isMarkEnd rest
   | none => false) || isMarkEnd cs

/-- A quoted name at the front, if what follows it is a tail. -/
def quotedName? : List Char → Option (List Char)
  | c :: rest =>
    if c = backquote then
      let name := rest.takeWhile (· != backquote)
      match rest.drop name.length with
      | _ :: after => if isTail after then some name else none
      | [] => none
    else none
  | [] => none

/-- The longest of the first `size` characters or fewer, at least one, that are followed by a
tail. -/
def longestName? (cs : List Char) : Nat → Option (List Char)
  | 0 => none
  | size + 1 =>
    if isTail (cs.drop (size + 1)) then some (cs.take (size + 1)) else longestName? cs size

/-- A name at the front that is followed by a tail. -/
def nameAt? (cs : List Char) : Option (List Char) :=
  (quotedName? cs).or (longestName? cs (cs.takeWhile isNameChar).length)

/-- The first name that is followed by a tail. -/
def firstName? : List Char → Option (List Char)
  | [] => none
  | c :: rest => (nameAt? (c :: rest)).or (firstName? rest)

/-- The descriptors of a symbol: what stands after its last space. -/
def descriptors (cs : List Char) : List Char :=
  (cs.reverse.takeWhile (· != ' ')).reverse

/-- The short name of a symbol. A local symbol is its own name, and descriptors in which no name is
found are shown as they are. -/
def display (symbol : String) : String :=
  if isLocal symbol then symbol
  else
    let cs := descriptors symbol.toList
    String.ofList ((firstName? cs).getD cs)

end DeadSymbols.SymbolName
