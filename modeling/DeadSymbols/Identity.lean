import DeadSymbols.Text.Digit

/-!
# Identities

A unit is known by a pair of numbers. A symbol is known across a build by its unit and a slot in
it; inside a unit's own records it is known by the place of its unit in the dependency table and
the slot.

The printed form of a unit puts both numbers in sixteen hexadecimal digits, so that for numbers of
64 bits the order of the printed forms is the order of the pairs.
-/

namespace DeadSymbols

/-- The identity of a unit. -/
structure UnitId where
  high : Int
  low : Int
  deriving DecidableEq, Repr

/-- The identity of a symbol across a build. -/
structure SymbolId where
  unit : UnitId
  slot : Int
  deriving DecidableEq, Repr

/-- The identity of a symbol inside the records of one unit. -/
structure LocalRef where
  /-- Zero for the unit itself, otherwise a place in its dependency table, counted from one. -/
  index : Int
  slot : Int
  deriving DecidableEq, Repr

/-- Units in the order of their pairs. -/
instance : Ord UnitId where
  compare := compareLex (compareOn UnitId.high) (compareOn UnitId.low)

/-- Symbols in the order of their units, then of their slots. -/
instance : Ord SymbolId where
  compare := compareLex (compareOn SymbolId.unit) (compareOn SymbolId.slot)

/-- The printed form of a unit. -/
def UnitId.display (u : UnitId) : String :=
  String.ofList (Text.hexPadded 16 u.high ++ Text.hexPadded 16 u.low)

/-- The printed form of a symbol, with the slot in full however many digits it has. -/
def SymbolId.display (s : SymbolId) : String :=
  s.unit.display ++ ":" ++ toString s.slot

end DeadSymbols
