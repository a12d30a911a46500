/-!
# Blanks, words and lines

What separates words and what ends a line, over the whole of Unicode, and the splitting functions
that rest on it. All work on lists of characters; the `String` versions only convert.
-/

namespace DeadSymbols.Text

/-- A character that separates words. -/
def isBlank (c : Char) : Bool :=
  let n := c.toNat
  (0x9 ≤ n && n ≤ 0xd) || (0x1c ≤ n && n ≤ 0x20) || n == 0x85 || n == 0xa0 || n == 0x1680 ||
    (0x2000 ≤ n && n ≤ 0x200a) || n == 0x2028 || n == 0x2029 || n == 0x202f || n == 0x205f ||
    n == 0x3000

/-- A character that ends a line. A carriage return with a line feed after it ends one line. -/
def isLineEnd (c : Char) : Bool :=
  let n := c.toNat
  (0xa ≤ n && n ≤ 0xd) || (0x1c ≤ n && n ≤ 0x1e) || n == 0x85 || n == 0x2028 || n == 0x2029

/-- The list without the characters of a class at its two ends. -/
def trimBy (inClass : Char → Bool) (cs : List Char) : List Char :=
  ((cs.dropWhile inClass).reverse.dropWhile inClass).reverse

/-- The text without the blanks at its two ends. -/
def trim (s : String) : String :=
  String.ofList (trimBy isBlank s.toList)

/-- The words of a list, `word` being the part of the current one already read, reversed. -/
def wordsAux (word : List Char) : List Char → List (List Char)
  | [] => if word.isEmpty then [] else [word.reverse]
  | c :: rest =>
    if isBlank c then
      if word.isEmpty then wordsAux [] rest else word.reverse :: wordsAux [] rest
    else wordsAux (c :: word) rest

/-- The maximal runs of characters that are not blank. -/
def words (s : String) : List String :=
  (wordsAux [] s.toList).map String.ofList

/-- The lines of a list, `line` being the part of the current one already read, reversed. -/
def linesAux (line : List Char) : List Char → List (List Char)
  | [] => if line.isEmpty then [] else [line.reverse]
  | '\r' :: '\n' :: rest => line.reverse :: linesAux [] rest
  | c :: rest =>
    if isLineEnd c then line.reverse :: linesAux [] rest else linesAux (c :: line) rest

/-- The lines of a text without their ends. A text that ends with a line end has no empty line
after it. -/
def lines (s : String) : List String :=
  (linesAux [] s.toList).map String.ofList

/-- The list with a line feed for a carriage return that has one after it and, if `alone`, for any
other carriage return. -/
def withLineFeeds (alone : Bool) : List Char → List Char
  | [] => []
  | '\r' :: '\n' :: rest => '\n' :: withLineFeeds alone rest
  | c :: rest => (if alone && c == '\r' then '\n' else c) :: withLineFeeds alone rest

/-- The parts between the occurrences of a separator: one more part than separators. -/
def splitAt {α : Type} [BEq α] (separator : α) : List α → List (List α)
  | [] => [[]]
  | c :: rest =>
    if c == separator then [] :: splitAt separator rest
    else
      match splitAt separator rest with
      | [] => [[c]]
      | part :: parts => (c :: part) :: parts

/-- Whether `part` stands somewhere in the list. -/
def isInfix {α : Type} [BEq α] (part : List α) : List α → Bool
  | [] => part.isEmpty
  | c :: rest => part.isPrefixOf (c :: rest) || isInfix part rest

/-- Whether the second text holds the first. -/
def occursIn (part whole : String) : Bool :=
  isInfix part.toList whole.toList

end DeadSymbols.Text
