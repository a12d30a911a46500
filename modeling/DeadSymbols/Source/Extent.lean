import DeadSymbols.Span
import DeadSymbols.Text.Utf8

/-!
# Places in a source

Inside a source a place is a row and a number of bytes on that row, both counted from zero, because
that is what a reader of bytes knows. Spans count characters instead. A place is turned into a
position by reading the bytes before it on its row as text; bytes that are no text count one
character for each fault.
-/

namespace DeadSymbols

open Text (Bytes)

/-- A place in a source. -/
structure Point where
  row : Nat
  column : Nat
  deriving DecidableEq, Repr

namespace Point

/-- Points in reading order. -/
instance : Ord Point where
  compare := compareLex (compareOn Point.row) (compareOn Point.column)

/-- Whether the first point is not after the second. -/
def le (p q : Point) : Bool := (compare p q).isLE

/-- The earlier of two points. -/
def earlier (p q : Point) : Point := if p.le q then p else q

/-- The later of two points. -/
def later (p q : Point) : Point := if p.le q then q else p

/-- The byte that ends a line. -/
def lineFeed : UInt8 := 10

/-- The point behind bytes that start at a point. -/
def after (p : Point) : Bytes → Point
  | [] => p
  | b :: rest => after (if b = lineFeed then ⟨p.row + 1, 0⟩ else ⟨p.row, p.column + 1⟩) rest

end Point

/-- A stretch of a source. -/
structure Extent where
  start : Point
  stop : Point
  deriving DecidableEq, Repr

/-- The least stretch with both stretches in it. -/
def Extent.hull (a b : Extent) : Extent :=
  ⟨a.start.earlier b.start, a.stop.later b.stop⟩

/-- A stretch of a source, in characters. -/
structure Region where
  start : Position
  stop : Position
  deriving DecidableEq, Repr

namespace Region

/-- Regions by start and end. -/
instance : Ord Region where
  compare := compareLex (compareOn Region.start) (compareOn Region.stop)

/-- Whether the first region does not come after the second. -/
def le (a b : Region) : Bool := (compare a b).isLE

end Region

namespace Source

/-- The lines of a source, without the bytes that end them. There is always a last line. -/
def lines : Bytes → List Bytes
  | [] => [[]]
  | b :: rest =>
    match lines rest with
    | [] => [[b]]
    | line :: more => if b = Point.lineFeed then [] :: line :: more else (b :: line) :: more

/-- The number of characters before a column of a line. -/
def charsBefore (line : Bytes) (column : Nat) : Nat :=
  (Text.lossyChars (line.take column)).length

/-- The position of a point. -/
def position (lines : List Bytes) (p : Point) : Position :=
  ⟨p.row + 1, charsBefore (lines.getD p.row []) p.column + 1⟩

/-- The region of an extent. -/
def region (lines : List Bytes) (e : Extent) : Region :=
  ⟨position lines e.start, position lines e.stop⟩

end Source

end DeadSymbols
