import DeadSymbols.Ledger
import DeadSymbols.Resolve

/-!
# The symbol graph

Everything the admitted units say, with global identities: the definitions by their identity, the
references by their target, and the units that were taken in completely. The last record for an
identity counts, so taking a unit in twice changes nothing.

A unit is taken in record by record. When a record cannot be resolved, the records before it stay
in the graph and the unit does not count as covered.
-/

namespace DeadSymbols

/-- Definitions by identity, references by target, and the covered units. -/
structure SymbolGraph where
  definitions : Ledger SymbolId Definition
  references : Ledger SymbolId Reference
  covered : List UnitId
  deriving DecidableEq, Repr

namespace SymbolGraph

/-- The graph that nothing was put into. -/
def empty : SymbolGraph := ⟨.empty, .empty, []⟩

/-- The graph with a definition written. -/
def addDefinition (g : SymbolGraph) (d : Definition) : SymbolGraph :=
  { g with definitions := g.definitions.put d.id d }

/-- The graph with a reference written. -/
def addReference (g : SymbolGraph) (r : Reference) : SymbolGraph :=
  { g with references := g.references.put r.target r }

/-- The graph with a unit marked as covered. -/
def cover (g : SymbolGraph) (u : UnitId) : SymbolGraph :=
  if g.covered.contains u then g else { g with covered := g.covered ++ [u] }

/-- The outcome of taking something in: the graph it leaves behind, and the fault that stopped it,
if any. -/
structure Outcome where
  graph : SymbolGraph
  fault : Option SchemaFault
  deriving DecidableEq, Repr

/-- Records taken in up to the first that cannot be resolved, given how a record is resolved and how
what it stands for is written. -/
def addRecords {ρ δ : Type} (resolve : ρ → Except SchemaFault δ)
    (write : SymbolGraph → δ → SymbolGraph) (g : SymbolGraph) : List ρ → Outcome
  | [] => ⟨g, none⟩
  | r :: rest =>
    match resolve r with
    | .error fault => ⟨g, some fault⟩
    | .ok d => addRecords resolve write (write g d) rest

/-- Definitions taken in up to the first that cannot be resolved. -/
def addDefinitions (t : DependencyTable) (g : SymbolGraph) (records : List LocalDefinition) :
    Outcome :=
  addRecords t.definition addDefinition g records

/-- References taken in up to the first that cannot be resolved. -/
def addReferences (t : DependencyTable) (g : SymbolGraph) (records : List LocalReference) :
    Outcome :=
  addRecords t.reference addReference g records

/-- A unit taken in: its definitions, its references, then its identity as covered. -/
def addUnit (g : SymbolGraph) (d : Dump) : Outcome :=
  let table := d.metadata.table
  match addDefinitions table g d.definitions with
  | ⟨g', some fault⟩ => ⟨g', some fault⟩
  | ⟨g', none⟩ =>
    match addReferences table g' d.references with
    | ⟨g'', some fault⟩ => ⟨g'', some fault⟩
    | ⟨g'', none⟩ => ⟨g''.cover d.unit, none⟩

/-- Units taken in one after the other; the first fault ends it. -/
def addUnits (g : SymbolGraph) : List Dump → Except SchemaFault SymbolGraph
  | [] => .ok g
  | d :: rest =>
    match g.addUnit d with
    | ⟨_, some fault⟩ => .error fault
    | ⟨g', none⟩ => addUnits g' rest

/-- The graph of a list of units. -/
def assemble (units : List Dump) : Except SchemaFault SymbolGraph :=
  empty.addUnits units

/-- The definition under an identity that need not be given or known. -/
def lookup (g : SymbolGraph) (id : Option SymbolId) : Option Definition :=
  id.bind g.definitions.get?

/-- The identities that some reference targets. -/
def used (g : SymbolGraph) : List SymbolId :=
  g.references.keys

/-- Whether some reference targets the identity. -/
def isUsed (g : SymbolGraph) (id : SymbolId) : Bool :=
  g.references.has id

/-- The number of definitions and of targets together. -/
def size (g : SymbolGraph) : Nat :=
  g.definitions.size + g.references.size

end SymbolGraph

end DeadSymbols
