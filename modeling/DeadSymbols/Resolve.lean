import DeadSymbols.Dump.Basic

/-!
# From local to global identities

A local identity becomes global through the dependency table of its unit. The table is only trusted
as far as it is consistent: an index past its end and a row that declares another ordinal than its
place are errors. Resolution depends on the table and the record alone.
-/

namespace DeadSymbols

/-- How a local identity contradicts the dependency table. -/
inductive SchemaFault
  /-- The index has no row. -/
  | noRow (unit : String) (index : Int) (rows : Nat)
  /-- The row at the index declares another ordinal. -/
  | otherOrdinal (unit : String) (index : Int) (declared : Int)
  deriving DecidableEq, Repr

/-- The wording of a fault. -/
def SchemaFault.message : SchemaFault → String
  | .noRow unit index rows =>
    "unit '" ++ unit ++ "' references dependency #" ++ toString index ++
      " but declares only " ++ toString rows
  | .otherOrdinal unit index declared =>
    "unit '" ++ unit ++ "': dependency at position " ++ toString index ++
      " declares ordinal " ++ toString declared

/-- A definition with global identities. -/
structure Definition where
  kind : String
  name : String
  id : SymbolId
  span : Span
  /-- The enclosing symbol, which may be unknown to the graph. -/
  parent : Option SymbolId
  /-- The member that this definition implements, which may be foreign. -/
  declaration : Option SymbolId
  deriving DecidableEq, Repr

/-- A reference with a global identity. -/
structure Reference where
  kind : String
  target : SymbolId
  span : Span
  deriving DecidableEq, Repr

namespace DependencyTable

/-- The unit at an index: zero is the unit itself. -/
def unitAt (t : DependencyTable) (index : Int) : Except SchemaFault UnitId :=
  if index = 0 then .ok t.own
  else if index < 0 then .error (.noRow t.name index t.externals.length)
  else
    match t.externals[index.toNat - 1]? with
    | none => .error (.noRow t.name index t.externals.length)
    | some row =>
      if row.ordinal = index then .ok row.unit
      else .error (.otherOrdinal t.name index row.ordinal)

/-- The global identity of a symbol. -/
def resolve (t : DependencyTable) (r : LocalRef) : Except SchemaFault SymbolId :=
  (t.unitAt r.index).map fun unit => ⟨unit, r.slot⟩

/-- The global identity of a symbol that need not be given. -/
def resolve? (t : DependencyTable) : Option LocalRef → Except SchemaFault (Option SymbolId)
  | none => .ok none
  | some r => (t.resolve r).map some

/-- A definition with its identities resolved: its own, its parent's, then its declaration's. -/
def definition (t : DependencyTable) (d : LocalDefinition) : Except SchemaFault Definition := do
  let id ← t.resolve d.id
  let parent ← t.resolve? d.parent
  let declaration ← t.resolve? d.declaration
  return ⟨d.kind, d.name, id, d.span, parent, declaration⟩

/-- A reference with its identity resolved. -/
def reference (t : DependencyTable) (r : LocalReference) : Except SchemaFault Reference := do
  return ⟨r.kind, ← t.resolve r.target, r.span⟩

end DependencyTable

end DeadSymbols
