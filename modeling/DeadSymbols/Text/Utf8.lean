/-!
# Reading UTF-8

One step of the reader takes a whole character off the front of a byte list, or the longest part
of one that cannot be completed. The strict reader stops at the first such part and says where and
why; the lossy reader puts one replacement character in its place and goes on.
-/

namespace DeadSymbols.Text

/-- The content of a file. -/
abbrev Bytes := List UInt8

/-- Why bytes are not a character. -/
inductive Utf8Fault
  /-- No character starts with this byte. -/
  | start
  /-- A byte follows that does not continue the character. -/
  | continuation
  /-- The bytes end inside the character. -/
  | ending
  deriving DecidableEq, Repr

/-- What stands at the front of a byte list: a character or a fault, each with the number of bytes
it takes beyond the first. -/
inductive Utf8Step
  | char (c : Char) (extra : Nat)
  | fault (why : Utf8Fault) (extra : Nat)
  deriving DecidableEq, Repr

/-- Whether the byte continues a character. -/
def isContinuation (b : UInt8) : Bool :=
  0x80 ≤ b && b < 0xc0

/-- The six bits a continuation byte carries. -/
def payload (b : UInt8) : Nat :=
  b.toNat % 64

/-- Whether `second` may follow the first byte of a character of three or four bytes. The bounds
leave out the longer spellings, the surrogates and what lies past the last code point. -/
def secondFits (first second : UInt8) : Bool :=
  isContinuation second &&
    (first != 0xe0 || 0xa0 ≤ second) && (first != 0xed || second < 0xa0) &&
    (first != 0xf0 || 0x90 ≤ second) && (first != 0xf4 || second < 0x90)

/-- One step of the reader at `first`, with the bytes after it. -/
def utf8Step (first : UInt8) (rest : Bytes) : Utf8Step :=
  if first < 0x80 then .char (Char.ofNat first.toNat) 0
  else if first < 0xc2 then .fault .start 0
  else if first < 0xe0 then
    match rest with
    | [] => .fault .ending 0
    | b :: _ =>
      if isContinuation b then .char (Char.ofNat (first.toNat % 32 * 64 + payload b)) 1
      else .fault .continuation 0
  else if first < 0xf0 then
    match rest with
    | [] => .fault .ending 0
    | [b] => if secondFits first b then .fault .ending 1 else .fault .continuation 0
    | b :: c :: _ =>
      if !secondFits first b then .fault .continuation 0
      else if isContinuation c then
        .char (Char.ofNat (first.toNat % 16 * 4096 + payload b * 64 + payload c)) 2
      else .fault .continuation 1
  else if first < 0xf5 then
    match rest with
    | [] => .fault .ending 0
    | [b] => if secondFits first b then .fault .ending 1 else .fault .continuation 0
    | [b, c] =>
      if !secondFits first b then .fault .continuation 0
      else if isContinuation c then .fault .ending 2
      else .fault .continuation 1
    | b :: c :: d :: _ =>
      if !secondFits first b then .fault .continuation 0
      else if !isContinuation c then .fault .continuation 1
      else if isContinuation d then
        .char (Char.ofNat (first.toNat % 8 * 262144 + payload b * 4096 + payload c * 64 +
          payload d)) 3
      else .fault .continuation 2
  else .fault .start 0

/-- The character that stands for bytes that are none. -/
def replacement : Char := Char.ofNat 0xfffd

/-- The characters of a byte list, each fault read as one replacement character. -/
def lossyChars (bytes : Bytes) : List Char :=
  match bytes with
  | [] => []
  | first :: rest =>
    match utf8Step first rest with
    | .char c extra => c :: lossyChars (rest.drop extra)
    | .fault _ extra => replacement :: lossyChars (rest.drop extra)
termination_by bytes.length
decreasing_by all_goals simp only [List.length_cons, List.length_drop]; omega

/-- The bytes read as a text that may hold replacement characters. -/
def lossyText (bytes : Bytes) : String :=
  String.ofList (lossyChars bytes)

/-- Where a byte list stops being UTF-8. -/
structure Utf8Error where
  /-- The offset of the first byte that is not read. -/
  position : Nat
  /-- That byte. -/
  byte : UInt8
  /-- The number of bytes that belong to the fault. -/
  size : Nat
  /-- What is wrong with them. -/
  why : Utf8Fault
  deriving DecidableEq, Repr

/-- The characters of a byte list that starts at an offset, or its first fault. -/
def strictChars (offset : Nat) (bytes : Bytes) : Except Utf8Error (List Char) :=
  match bytes with
  | [] => .ok []
  | first :: rest =>
    match utf8Step first rest with
    | .char c extra =>
      match strictChars (offset + extra + 1) (rest.drop extra) with
      | .ok cs => .ok (c :: cs)
      | .error e => .error e
    | .fault why extra => .error ⟨offset, first, extra + 1, why⟩
termination_by bytes.length
decreasing_by all_goals simp only [List.length_cons, List.length_drop]; omega

/-- The bytes read as a text, or the first fault in them. -/
def strictText (bytes : Bytes) : Except Utf8Error String :=
  (strictChars 0 bytes).map String.ofList

/-- The bytes of a text. -/
def toBytes (s : String) : Bytes :=
  s.toList.flatMap String.utf8EncodeChar

/-- The wording of a fault. -/
def Utf8Fault.message : Utf8Fault → String
  | .start => "invalid start byte"
  | .continuation => "invalid continuation byte"
  | .ending => "unexpected end of data"

/-- Two hexadecimal digits for a byte. -/
def hexByte (b : UInt8) : String :=
  let digits := Nat.toDigits 16 b.toNat
  String.ofList (List.replicate (2 - digits.length) '0' ++ digits)

/-- The wording of the place and kind of a fault. -/
def Utf8Error.message (e : Utf8Error) : String :=
  let place :=
    if e.size ≤ 1 then "byte 0x" ++ hexByte e.byte ++ " in position " ++ toString e.position
    else "bytes in position " ++ toString e.position ++ "-" ++
      toString (e.position + e.size - 1)
  "'utf-8' codec can't decode " ++ place ++ ": " ++ e.why.message

end DeadSymbols.Text
