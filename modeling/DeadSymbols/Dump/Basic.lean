import DeadSymbols.Identity
import DeadSymbols.Span

/-!
# Unit dumps

What a compiler run leaves behind about one unit: its dependency table, the directory it was
compiled in, and its definition and reference records, whose identities are local to the unit.
-/

namespace DeadSymbols

/-- One row of a dependency table. -/
structure Dependency where
  /-- The ordinal the row declares, which should be its place counted from one. -/
  ordinal : Int
  name : String
  unit : UnitId
  deriving DecidableEq, Repr

/-- The units that a unit's local identities refer to. -/
structure DependencyTable where
  name : String
  own : UnitId
  externals : List Dependency
  deriving DecidableEq, Repr

/-- A definition record, with local identities. -/
structure LocalDefinition where
  kind : String
  name : String
  id : LocalRef
  span : Span
  parent : Option LocalRef
  /-- The member that this definition implements. -/
  declaration : Option LocalRef
  deriving DecidableEq, Repr

/-- A reference record, with a local identity. -/
structure LocalReference where
  kind : String
  target : LocalRef
  span : Span
  deriving DecidableEq, Repr

/-- What is known about a unit besides its records. -/
structure Metadata where
  table : DependencyTable
  directory : String
  deriving DecidableEq, Repr

/-- The identity of the unit itself. -/
def Metadata.unit (m : Metadata) : UnitId := m.table.own

/-- Everything a dump file holds. -/
structure Dump where
  /-- Where the dump was read from, for messages. -/
  source : String
  metadata : Metadata
  definitions : List LocalDefinition
  references : List LocalReference
  deriving DecidableEq, Repr

/-- The identity of the unit the dump is about. -/
def Dump.unit (d : Dump) : UnitId := d.metadata.unit

end DeadSymbols
