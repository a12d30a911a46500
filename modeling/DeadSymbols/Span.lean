/-!
# Positions and spans

A position is a line and a column, both counted from one; a span is a stretch of one file between
two positions. Spans are ordered by file, then by start, then by end.
-/

namespace DeadSymbols

/-- A place in a file. -/
structure Position where
  line : Int
  column : Int
  deriving DecidableEq, Repr

/-- Positions in reading order. -/
instance : Ord Position where
  compare := compareLex (compareOn Position.line) (compareOn Position.column)

/-- Whether the first position is not after the second. -/
def Position.le (p q : Position) : Bool := (compare p q).isLE

/-- The printed form of a position. -/
def Position.display (p : Position) : String :=
  "(" ++ toString p.line ++ ", " ++ toString p.column ++ ")"

/-- A stretch of a file. -/
structure Span where
  file : String
  lineStart : Int
  columnStart : Int
  lineEnd : Int
  columnEnd : Int
  deriving DecidableEq, Repr

/-- Spans by file, start and end. -/
instance : Ord Span where
  compare :=
    compareLex (compareOn Span.file) <|
    compareLex (compareOn Span.lineStart) <|
    compareLex (compareOn Span.columnStart) <|
    compareLex (compareOn Span.lineEnd) (compareOn Span.columnEnd)

namespace Span

/-- Where the span begins. -/
def start (s : Span) : Position := ⟨s.lineStart, s.columnStart⟩

/-- Where the span ends. -/
def stop (s : Span) : Position := ⟨s.lineEnd, s.columnEnd⟩

/-- File, line and column of the start. -/
def display (s : Span) : String :=
  s.file ++ ":" ++ toString s.lineStart ++ ":" ++ toString s.columnStart

end Span

end DeadSymbols
