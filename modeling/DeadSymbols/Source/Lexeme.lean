import DeadSymbols.Source.Extent
import DeadSymbols.Text.Blank

/-!
# Lexemes of a Rust source

A source is cut into words, literals, lifetimes, comments, delimiters and marks. Only as much is
told apart as is needed to see where macro input and attributes begin and end: text in literals and
comments must not be taken for code, and a lifetime must not be taken for the start of a character.
-/

namespace DeadSymbols.Source

open Text (Bytes)

/-- The kinds of brackets. -/
inductive Delimiter
  | parenthesis
  | bracket
  | brace
  deriving DecidableEq, Repr

/-- A kind of lexeme. -/
inductive Token
  | word (text : String)
  | literal
  | lifetime
  | comment
  | opens (d : Delimiter)
  | closes (d : Delimiter)
  | mark (text : String)
  deriving DecidableEq, Repr

/-- A token with its place. -/
structure Lexeme where
  token : Token
  extent : Extent
  deriving DecidableEq, Repr

/-- Whether the byte is an ASCII digit. -/
def isDigitByte (b : UInt8) : Bool := 48 ≤ b && b ≤ 57

/-- Whether a word can start with the byte. Bytes beyond ASCII belong to words. -/
def isWordStart (b : UInt8) : Bool :=
  (65 ≤ b && b ≤ 90) || (97 ≤ b && b ≤ 122) || b == 95 || 128 ≤ b

/-- Whether a word can go on with the byte. -/
def isWordByte (b : UInt8) : Bool := isWordStart b || isDigitByte b

/-- The number of bytes beyond the first of a blank character at the front. -/
def blankExtra? (b : UInt8) (rest : Bytes) : Option Nat :=
  match Text.utf8Step b rest with
  | .char c extra => if Text.isBlank c then some extra else none
  | .fault _ _ => none

/-- The number of bytes of the word at the front. -/
def wordSize : Bytes → Nat
  | [] => 0
  | b :: rest => if isWordByte b && (blankExtra? b rest).isNone then wordSize rest + 1 else 0

/-- The number of bytes up to the quote that closes a literal, with it. A backslash takes the next
byte with it. -/
def quotedSize (quote : UInt8) : Bytes → Nat
  | [] => 0
  | [_] => 1
  | b :: c :: rest =>
    if b = 92 then quotedSize quote rest + 2
    else if b = quote then 1
    else quotedSize quote (c :: rest) + 1

/-- Whether the bytes start with a number of hash signs. -/
def startsWithHashes (count : Nat) (bytes : Bytes) : Bool :=
  bytes.take count == List.replicate count 35

/-- The number of bytes up to a double quote with its hash signs, with them. -/
def rawSize (hashes : Nat) : Bytes → Nat
  | [] => 0
  | b :: rest =>
    if b = 34 && startsWithHashes hashes rest then hashes + 1 else rawSize hashes rest + 1

/-- The number of bytes up to the end of the line, without the byte that ends it. -/
def lineSize (bytes : Bytes) : Nat :=
  (bytes.takeWhile (· != Point.lineFeed)).length

/-- The number of bytes up to the end of a block comment in which `depth` comments are open besides
it. -/
def commentSize : Nat → Bytes → Nat
  | _, [] => 0
  | _, [_] => 1
  | depth, b :: c :: rest =>
    if b = 42 && c = 47 then
      match depth with
      | 0 => 2
      | depth + 1 => commentSize depth rest + 2
    else if b = 47 && c = 42 then commentSize (depth + 1) rest + 2
    else commentSize depth (c :: rest) + 1

/-- A character literal or lifetime, after its quote. -/
def afterQuote (bytes : Bytes) : Token × Nat :=
  match bytes with
  | [] => (.mark "'", 0)
  | b :: rest =>
    if b = 92 then (.literal, quotedSize 39 bytes)
    else if b = 39 then (.literal, 1)
    else
      let extra := match Text.utf8Step b rest with
        | .char _ extra => extra
        | .fault _ extra => extra
      if rest.drop extra |>.head? |> (· == some 39) then (.literal, extra + 2)
      else (.lifetime, wordSize bytes)

/-- A raw literal after its letters, if there is one: the number of its bytes. -/
def rawLiteral? (bytes : Bytes) : Option Nat :=
  let hashes := (bytes.takeWhile (· == 35)).length
  match bytes.drop hashes with
  | 34 :: rest => some (hashes + 1 + rawSize hashes rest)
  | _ => none

/-- The lexeme that starts with a word. Some words are the beginning of a literal, and a raw word
has a hash sign in it. -/
def afterWord (text : String) (bytes : Bytes) : Token × Nat :=
  let plain : Token × Nat := (.word text, 0)
  match bytes with
  | [] => plain
  | b :: rest =>
    if (text = "b" || text = "c") && b = 34 then (.literal, quotedSize 34 rest + 1)
    else if text = "b" && b = 39 then
      let (token, extra) := afterQuote rest
      (token, extra + 1)
    else if text = "r" || text = "br" || text = "cr" then
      match rawLiteral? bytes with
      | some size => (.literal, size)
      | none =>
        let size := wordSize rest
        if text = "r" && b = 35 && (rest.head?.any isWordStart) && size != 0 then
          (.word (text ++ "#" ++ Text.lossyText (rest.take size)), size + 1)
        else plain
    else plain

/-- The marks of two bytes. -/
def doubleMarks : List String := ["::", "->", "=>", "!="]

/-- The text of ASCII bytes. -/
def ascii (bytes : Bytes) : String :=
  String.ofList (bytes.map fun b => Char.ofNat b.toNat)

/-- The token at the front and the number of its bytes beyond the first. -/
def scan (b : UInt8) (rest : Bytes) : Token × Nat :=
  if isWordStart b then
    let size := wordSize rest
    let (token, extra) := afterWord (Text.lossyText (b :: rest.take size)) (rest.drop size)
    (token, size + extra)
  else if isDigitByte b then (.literal, wordSize rest)
  else if b = 34 then (.literal, quotedSize 34 rest)
  else if b = 39 then afterQuote rest
  else if b = 40 then (.opens .parenthesis, 0)
  else if b = 41 then (.closes .parenthesis, 0)
  else if b = 91 then (.opens .bracket, 0)
  else if b = 93 then (.closes .bracket, 0)
  else if b = 123 then (.opens .brace, 0)
  else if b = 125 then (.closes .brace, 0)
  else
    match rest with
    | c :: rest' =>
      if b = 47 && c = 47 then (.comment, lineSize rest)
      else if b = 47 && c = 42 then (.comment, commentSize 0 rest' + 1)
      else if doubleMarks.contains (ascii [b, c]) then (.mark (ascii [b, c]), 1)
      else (.mark (ascii [b]), 0)
    | [] => (.mark (ascii [b]), 0)

/-- The number of bytes, beyond the first, of an interpreter line at the front: a hash sign, an
exclamation mark and the rest of a line that is not an attribute. -/
def interpreterExtra? : Bytes → Option Nat
  | 35 :: 33 :: rest =>
    let size := lineSize rest
    if rest.head? = some 91 || rest.length ≤ size then none else some (size + 1)
  | _ => none

/-- The lexemes of bytes that start at a point. `first` says that only comments came before; there
an interpreter line may stand, and it counts as a comment. Every round takes a byte at least, so
the number of bytes bounds `fuel`. -/
def lexemesAux : Nat → Bool → Point → Bytes → List Lexeme
  | 0, _, _, _ => []
  | _ + 1, _, _, [] => []
  | fuel + 1, first, p, b :: rest =>
    match blankExtra? b rest with
    | some extra =>
      lexemesAux fuel first (p.after (b :: rest.take extra)) (rest.drop extra)
    | none =>
      let (token, extra) : Token × Nat :=
        match (if first then interpreterExtra? (b :: rest) else none) with
        | some extra => (.comment, extra)
        | none => scan b rest
      let stop := p.after (b :: rest.take extra)
      ⟨token, ⟨p, stop⟩⟩ ::
        lexemesAux fuel (first && token == .comment) stop (rest.drop extra)

/-- The mark that may stand before the first line of a file. -/
def byteOrderMark : Bytes := [0xef, 0xbb, 0xbf]

/-- The lexemes of a source. -/
def lexemes (source : Bytes) : List Lexeme :=
  if byteOrderMark.isPrefixOf source then
    lexemesAux source.length true (Point.after ⟨0, 0⟩ byteOrderMark) (source.drop 3)
  else lexemesAux source.length true ⟨0, 0⟩ source

end DeadSymbols.Source
