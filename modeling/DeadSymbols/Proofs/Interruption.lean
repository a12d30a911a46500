import Mathlib
import DeadSymbols.Proofs.Ingestion
import DeadSymbols.Proofs.Resolution

/-!
# What a unit that is stopped leaves behind

A unit is taken in record by record and nothing is taken back, so a fault in the middle
leaves a graph with a part of the unit in it.  This graph is not arbitrary: it holds the
records before the one that is to blame and none after it, and the unit is not covered,
so that members of traits that it declares still count as foreign.

Which record is to blame does not depend on the graph.  The identities in the records
are looked at one by one, definitions before references and within a definition its own
identity, its parent's and its declaration's (`Dump.identities`); the first that
contradicts the dependency table stops the unit, with the fault that tells the
contradiction.

## Main results

* `Dump.fault?_eq` — the fault of a unit is the first among all its identities.
* `failed_unit_leaves` — when a unit is stopped, with which fault, and what it leaves.
-/

namespace DeadSymbols

open SymbolGraph (firstFault?)

/-! ## The identities in a unit -/

/-- The identities in a definition record, in the order in which they are resolved. -/
def LocalDefinition.identities (d : LocalDefinition) : List LocalRef :=
  d.id :: (d.parent.toList ++ d.declaration.toList)

/-- The identities in the records of a unit, in the order in which they are resolved. -/
def Dump.identities (u : Dump) : List LocalRef :=
  u.definitions.flatMap LocalDefinition.identities ++ u.references.map LocalReference.target

namespace DependencyTable

variable (t : DependencyTable)

/-- The first identity of a list that contradicts the table does so with this fault. -/
def FirstContradiction (ids : List LocalRef) (fault : SchemaFault) : Prop :=
  ∃ before r after, ids = before ++ r :: after ∧
    (∀ q ∈ before, ∀ other, ¬ t.Contradicts q.index other) ∧ t.Contradicts r.index fault

theorem firstContradiction_of_firstFault? {ids : List LocalRef} {fault : SchemaFault}
    (h : firstFault? t.resolve ids = some fault) : t.FirstContradiction ids fault := by
  obtain ⟨before, r, after, hids, hbefore, hr⟩ :=
    SymbolGraph.exists_of_firstFault? t.resolve h
  refine ⟨before, r, after, hids, ?_, (t.resolve_eq_error_iff r fault).mp hr⟩
  intro q hq other hother
  have hrefused := (t.resolve_eq_error_iff q other).mpr hother
  obtain ⟨i, hi, rfl⟩ := List.mem_iff_getElem.mp hq
  have hresolved := hbefore.get hi (hbefore.length_eq ▸ hi)
  rw [List.get_eq_getElem, hrefused] at hresolved
  cases hresolved

private theorem firstFault?_toList (r : Option LocalRef) :
    firstFault? t.resolve r.toList = firstFault? t.resolve? [r] := by
  cases r with
  | none => rfl
  | some r =>
      simp only [Option.toList, firstFault?, resolve?]
      cases t.resolve r with
      | error fault => rfl
      | ok id => rfl

/-- A definition record is refused for the first of its identities that is. -/
theorem definition_eq_error_iff (d : LocalDefinition) (fault : SchemaFault) :
    t.definition d = .error fault ↔ firstFault? t.resolve d.identities = some fault := by
  rw [LocalDefinition.identities, firstFault?, definition]
  cases t.resolve d.id with
  | error fault' => simp [bind, Except.bind]
  | ok id =>
      simp only [SymbolGraph.firstFault?_append, firstFault?_toList, firstFault?]
      cases t.resolve? d.parent with
      | error fault' => simp [bind, Except.bind]
      | ok parent =>
          cases t.resolve? d.declaration with
          | error fault' => simp [bind, Except.bind]
          | ok declaration => simp [bind, Except.bind, pure, Except.pure]

/-- A reference record is refused for its target. -/
theorem reference_eq_error_iff (r : LocalReference) (fault : SchemaFault) :
    t.reference r = .error fault ↔ firstFault? t.resolve [r.target] = some fault := by
  rw [firstFault?, reference]
  cases t.resolve r.target with
  | error fault' => simp [bind, Except.bind]
  | ok id => simp [bind, Except.bind, pure, Except.pure, firstFault?]

/-- A reference record and the reference it stands for. -/
structure ResolvesReference (r : LocalReference) (d : Reference) : Prop where
  kind : d.kind = r.kind
  target : t.Resolves r.target d.target
  span : d.span = r.span

theorem resolvesReference_of_eq_ok {r : LocalReference} {d : Reference}
    (h : t.reference r = .ok d) : t.ResolvesReference r d := by
  obtain ⟨hkind, htarget, hspan⟩ := (t.reference_eq_ok_iff r d).mp h
  exact ⟨hkind, htarget, hspan⟩

end DependencyTable

namespace Dump

/-- A unit is stopped by the first of all its identities that cannot be resolved. -/
theorem fault?_eq (u : Dump) :
    u.fault? = firstFault? u.metadata.table.resolve u.identities := by
  have hdefinitions := SymbolGraph.firstFault?_flatMap u.metadata.table.definition
    u.metadata.table.definition_eq_error_iff u.definitions
  have hreferences := SymbolGraph.firstFault?_flatMap u.metadata.table.reference
    u.metadata.table.reference_eq_error_iff u.references
  rw [identities, SymbolGraph.firstFault?_append, hdefinitions, List.map_eq_flatMap,
    hreferences, fault?]

/-- Something stops a unit exactly if one of its identities contradicts its table. -/
theorem exists_fault?_iff (u : Dump) :
    (∃ fault, u.fault? = some fault) ↔
      ∃ r ∈ u.identities, ∃ fault, u.metadata.table.Contradicts r.index fault := by
  rw [← Option.isSome_iff_exists, ← Option.ne_none_iff_isSome, fault?_eq, ne_eq,
    SymbolGraph.firstFault?_eq_none_iff]
  push Not
  refine exists_congr fun r => and_congr_right fun _ => ?_
  simp only [← DependencyTable.resolve_eq_error_iff]
  cases u.metadata.table.resolve r with
  | error fault => simp
  | ok id => simp

end Dump

namespace SymbolGraph

/-! ## What stays in the graph -/

/-- What a unit that a fault stops leaves of a graph. -/
inductive LeftBehind (g : SymbolGraph) (u : Dump) (fault : SchemaFault) :
    SymbolGraph → Prop
  /-- A definition stops the unit.  The definitions before it are written and nothing
  else. -/
  | definition {before after : List LocalDefinition} {record : LocalDefinition}
      {ds : List Definition} (hsplit : u.definitions = before ++ record :: after)
      (hbefore : List.Forall₂ u.metadata.table.ResolvesDefinition before ds)
      (hstop : u.metadata.table.FirstContradiction record.identities fault) :
      LeftBehind g u fault
        { definitions := g.definitions.putAll (definitionWrites ds)
          references := g.references
          covered := g.covered }
  /-- A reference stops the unit.  All its definitions are written and the references
  before this one. -/
  | reference {before after : List LocalReference} {record : LocalReference}
      {ds : List Definition} {rs : List Reference}
      (hdefinitions : List.Forall₂ u.metadata.table.ResolvesDefinition u.definitions ds)
      (hsplit : u.references = before ++ record :: after)
      (hbefore : List.Forall₂ u.metadata.table.ResolvesReference before rs)
      (hstop : u.metadata.table.Contradicts record.target.index fault) :
      LeftBehind g u fault
        { definitions := g.definitions.putAll (definitionWrites ds)
          references := g.references.putAll (referenceWrites rs)
          covered := g.covered }

variable {g g' : SymbolGraph} {u : Dump} {fault : SchemaFault}

theorem LeftBehind.covered_eq (h : LeftBehind g u fault g') : g'.covered = g.covered := by
  cases h with
  | definition => rfl
  | reference => rfl

private theorem leftBehind_of_definition
    (h : firstFault? u.metadata.table.definition u.definitions = some fault) :
    LeftBehind g u fault (g.written u) := by
  obtain ⟨before, record, after, hsplit, hbefore, hrecord⟩ :=
    exists_of_firstFault? u.metadata.table.definition h
  have hresolved : List.Forall₂ u.metadata.table.ResolvesDefinition before
      u.writtenDefinitions :=
    hbefore.imp fun r d => (u.metadata.table.definition_eq_ok_iff r d).mp
  have hstop := u.metadata.table.firstContradiction_of_firstFault?
    ((u.metadata.table.definition_eq_error_iff record fault).mp hrecord)
  have hgraph : g.written u =
      { definitions := g.definitions.putAll (definitionWrites u.writtenDefinitions)
        references := g.references
        covered := g.covered } := by
    simp [written, Dump.writtenReferences, Dump.fault?, h, referenceWrites,
      Ledger.putAll_nil]
  rw [hgraph]
  exact .definition hsplit hresolved hstop

private theorem leftBehind_of_reference
    (hnone : firstFault? u.metadata.table.definition u.definitions = none)
    (h : firstFault? u.metadata.table.reference u.references = some fault) :
    LeftBehind g u fault (g.written u) := by
  obtain ⟨before, record, after, hsplit, hbefore, hrecord⟩ :=
    exists_of_firstFault? u.metadata.table.reference h
  have hdefinitions : List.Forall₂ u.metadata.table.ResolvesDefinition u.definitions
      u.writtenDefinitions :=
    (forall₂_resolvedBefore _ hnone).imp
      fun r d => (u.metadata.table.definition_eq_ok_iff r d).mp
  have hresolved : List.Forall₂ u.metadata.table.ResolvesReference before
      u.writtenReferences := by
    rw [Dump.writtenReferences, hnone]
    exact hbefore.imp fun r d => u.metadata.table.resolvesReference_of_eq_ok
  have hstop : u.metadata.table.Contradicts record.target.index fault := by
    rw [DependencyTable.reference_eq_error_iff, firstFault?] at hrecord
    rw [← DependencyTable.resolve_eq_error_iff]
    cases htarget : u.metadata.table.resolve record.target with
    | error fault' =>
        rw [htarget] at hrecord
        rw [Option.some.inj hrecord]
    | ok id =>
        rw [htarget] at hrecord
        cases hrecord
  have hgraph : g.written u =
      { definitions := g.definitions.putAll (definitionWrites u.writtenDefinitions)
        references := g.references.putAll (referenceWrites u.writtenReferences)
        covered := g.covered } := by
    simp [written, Dump.fault?, hnone, h]
  rw [hgraph]
  exact .reference hdefinitions hsplit hresolved hstop

/-- A unit that has a fault leaves its records up to the one that is to blame. -/
theorem leftBehind_written (h : u.fault? = some fault) :
    LeftBehind g u fault (g.written u) := by
  rw [Dump.fault?] at h
  cases hdefs : firstFault? u.metadata.table.definition u.definitions with
  | some fault' =>
      rw [hdefs, Option.some_or] at h
      obtain rfl := Option.some.inj h
      exact leftBehind_of_definition hdefs
  | none =>
      rw [hdefs, Option.none_or] at h
      exact leftBehind_of_reference hdefs h

/-- A unit that is stopped.  Taking a unit into a graph ends with a fault exactly if the
index of some identity in its records is negative, past the end of the dependency table,
or the place of a row that declares another ordinal.  Then the fault is that of the
first such identity in the order of the records; the records before the one that holds
it are written, and no others; and no unit is covered that was not covered before. -/
theorem failed_unit_leaves (g : SymbolGraph) (u : Dump) :
    ((∃ fault, (g.addUnit u).fault = some fault) ↔
      ∃ r ∈ u.identities, ∃ fault, u.metadata.table.Contradicts r.index fault) ∧
    ∀ g' fault, g.addUnit u = ⟨g', some fault⟩ →
      u.metadata.table.FirstContradiction u.identities fault ∧
      LeftBehind g u fault g' ∧
      g'.covered = g.covered := by
  rw [addUnit_eq]
  refine ⟨u.exists_fault?_iff, ?_⟩
  intro g' fault h
  obtain ⟨rfl, hfault⟩ := Outcome.mk.inj h
  have hleft := leftBehind_written (g := g) hfault
  rw [Dump.fault?_eq] at hfault
  exact ⟨u.metadata.table.firstContradiction_of_firstFault? hfault, hleft, hleft.covered_eq⟩

/-- A program whose table has a row at the second place that declares the seventh, with
a reference through the first row before one through the second. -/
def strayUnit : Dump :=
  let place (line : Int) : Span := ⟨"src/main.rs", line, 1, line, 9⟩
  ⟨"draw.json",
    ⟨⟨"draw", ⟨2, 2⟩, [⟨1, "shape", ⟨1, 1⟩⟩, ⟨7, "paint", ⟨3, 3⟩⟩]⟩, "/work/draw"⟩,
    [⟨"Struct", "Canvas", ⟨0, 1⟩, place 1, none, none⟩,
     ⟨"Method", "fill", ⟨0, 2⟩, place 2, some ⟨0, 1⟩, some ⟨1, 4⟩⟩],
    [⟨"Function", ⟨1, 4⟩, place 5⟩, ⟨"Function", ⟨2, 6⟩, place 6⟩,
     ⟨"Function", ⟨9, 6⟩, place 7⟩]⟩

/-- The reference through the second row stops the program.  Its two definitions and one
reference stay in the graph, the index without a row after it is not reported, and the
program is not covered. -/
theorem failed_unit_leaves_strayUnit :
    ∃ g', empty.addUnit strayUnit = ⟨g', some (.otherOrdinal "draw" 2 7)⟩ ∧
      LeftBehind empty strayUnit (.otherOrdinal "draw" 2 7) g' ∧
      g'.definitions.size = 2 ∧ g'.references.size = 1 ∧ g'.covered = [] := by
  obtain ⟨-, hleft⟩ := failed_unit_leaves empty strayUnit
  obtain ⟨-, hbehind, hcovered⟩ := hleft _ _ rfl
  exact ⟨_, rfl, hbehind, rfl, rfl, hcovered⟩

end SymbolGraph

end DeadSymbols
