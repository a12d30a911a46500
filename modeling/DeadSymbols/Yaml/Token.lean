import DeadSymbols.Calendar
import DeadSymbols.Number.Integer
import DeadSymbols.Text.Utf8

/-!
# YAML tokens

A YAML text is cut into tokens: the scalars it holds, the signs of flow collections and, for block
collections, marks where they start and end, which are found from the indentation.

Whether a scalar is a key is known only when the colon after it is met. So the place of everything
that could be a key is remembered, one place for each level of flow collections, and the mark of the
key is put there afterwards. A remembered place is given up when the line ends.

Lines end in a line feed, a next-line character or one of the two Unicode separators. A text whose
lines end otherwise has to be brought into this form first.
-/

namespace DeadSymbols

/-- Why a text is not read as YAML. -/
inductive YamlFault
  /-- It is not in the grammar, or asks for what is not known. -/
  | malformed
  /-- An escape has a number that no character has. -/
  | character
  /-- An escape has a number past 31 bits. -/
  | characterNumber
  /-- A scalar marked as integer is none. -/
  | integer (fault : IntegerFault)
  /-- A scalar marked as number is none. -/
  | number (text : String)
  /-- A number has no digits at all. -/
  | emptyNumber
  /-- A number has more groups of base sixty than a floating point number has room for. -/
  | tooManyGroups
  /-- A scalar marked as truth value is none. -/
  | truth
  /-- A scalar marked as timestamp is none. -/
  | timestamp
  /-- What is marked as timestamp is a mapping that holds a scalar. -/
  | timestampKind
  /-- A timestamp is no date or time. -/
  | calendar (fault : CalendarFault)
  deriving DecidableEq, Repr

namespace Yaml

/-- What a directive says. -/
inductive Directive
  | version (major : Nat)
  | tag (handle expansion : String)
  | unknown
  deriving DecidableEq, Repr

/-- A token. -/
inductive Token
  | directive (d : Directive)
  | documentStart
  | documentEnd
  | blockSequenceStart
  | blockMappingStart
  | blockEnd
  | flowSequenceStart
  | flowSequenceEnd
  | flowMappingStart
  | flowMappingEnd
  | blockEntry
  | flowEntry
  | key
  | value
  | alias (name : String)
  | anchor (name : String)
  | tag (handle : Option String) (name : String)
  | scalar (text : String) (plain : Bool)
  | textEnd
  deriving DecidableEq, Repr

/-! ## Characters -/

/-- The character that stands for the end of the text. -/
def nul : Char := Char.ofNat 0

/-- A character that ends a line. -/
def isBreak (c : Char) : Bool :=
  c == '\n' || c.toNat == 0x85 || c.toNat == 0x2028 || c.toNat == 0x2029

/-- The end of a line or of the text. -/
def isBreakOrEnd (c : Char) : Bool := isBreak c || c == nul

/-- A space, or the end of a line or of the text. -/
def isSpaceOrEnd (c : Char) : Bool := c == ' ' || isBreakOrEnd c

/-- A blank, or the end of a line or of the text. -/
def isBlankOrEnd (c : Char) : Bool := c == '\t' || isSpaceOrEnd c

/-- A character of a name. -/
def isNameChar (c : Char) : Bool := c.isAlphanum || c == '-' || c == '_'

/-- A character of a tag, as it is or, for the percent sign, as the start of an escape. -/
def isTagChar (c : Char) : Bool :=
  c.isAlphanum || c == Text.singleQuote || "-;/?:@&=+$,_.!~*()[]%".toList.contains c

/-- A sign that separates the parts of flow collections. -/
def isFlowSign (c : Char) : Bool :=
  c == ',' || c == '[' || c == ']' || c == Char.ofNat 123 || c == Char.ofNat 125

/-- A sign that no plain scalar starts with, at least not by itself. -/
def isIndicator (c : Char) : Bool :=
  isFlowSign c || c == Text.singleQuote || c == Char.ofNat 96 ||
    "-?:#&*!|>\"%@".toList.contains c

/-- Whether the character may stand in a text. -/
def isAllowed (c : Char) : Bool :=
  let n := c.toNat
  n == 9 || n == 10 || n == 13 || (0x20 ≤ n && n ≤ 0x7e) || n == 0x85 ||
    (0xa0 ≤ n && n ≤ 0xd7ff) || (0xe000 ≤ n && n ≤ 0xfffd) || 0x10000 ≤ n

end Yaml

end DeadSymbols
