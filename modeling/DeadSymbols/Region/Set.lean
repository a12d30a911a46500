import DeadSymbols.Source.Extent

/-!
# Sets of regions

Regions are kept under numeric keys, a line counting for 2 ^ 32 columns. A region can hold a span if
the key of the span's start lies between the keys of its ends; it encloses the span if it also
starts no later and ends no earlier. Columns beyond the 32 bits make the two questions differ, which
is why both are asked.
-/

namespace DeadSymbols

/-- The number of columns a line counts for: 2 ^ 32. -/
def Position.columnStride : Int := 4294967296

/-- The key of a position. -/
def Position.key (p : Position) : Int :=
  p.line * columnStride + p.column

namespace Region

/-- Whether the key of the end comes before the key of the start. -/
def isInverted (r : Region) : Bool :=
  r.stop.key < r.start.key

/-- Whether the key of a position lies in the region. -/
def holdsKey (r : Region) (p : Position) : Bool :=
  r.start.key ≤ p.key && p.key ≤ r.stop.key

/-- Whether the region starts no later and ends no earlier than a span. -/
def encloses (r : Region) (s : Span) : Bool :=
  r.start.le s.start && s.stop.le r.stop

/-- Whether a region comes no later than another in a set: by the keys of its ends, then by its
ends. -/
def keyLe (a b : Region) : Bool :=
  ((compare a.start.key b.start.key).then
    ((compare a.stop.key b.stop.key).then (compare a b))).isLE

end Region

/-- Regions of a file, none of them inverted. -/
structure RegionSet where
  /-- The regions without repetition, in the order of their keys. -/
  regions : List Region
  deriving DecidableEq, Repr

namespace RegionSet

/-- The set without regions. -/
def empty : RegionSet := ⟨[]⟩

/-- The set of a list of regions, unless one of them is inverted. -/
def ofList? (rs : List Region) : Option RegionSet :=
  if rs.any Region.isInverted then none
  else some ⟨rs.eraseDups.mergeSort Region.keyLe⟩

/-- The number of regions. -/
def size (s : RegionSet) : Nat := s.regions.length

/-- The first region that encloses a span. -/
def containing (s : RegionSet) (span : Span) : Option Region :=
  s.regions.find? fun r => r.holdsKey span.start && r.encloses span

end RegionSet

end DeadSymbols
