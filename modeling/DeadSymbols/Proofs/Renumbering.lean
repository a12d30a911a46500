import Mathlib
import DeadSymbols.Graph
import DeadSymbols.Proofs.Resolution

/-!
# The numbering of a dependency table

The rows of a dependency table have no order of their own: a compiler that lists them in
another order numbers all local identities another way and means the same unit.
`Dump.renumber` is this change, for any permutation of the rows.  A row is moved and
declares its new place, and every index of a row is replaced wherever it stands in a
record.  Zero, which is the unit itself, and indexes without a row are nobody's place
and stay.

If the table is consistent before, an index stands for the same unit afterwards
(`unitAt_renumber`), or is refused with the same fault.  All else is carried along: what
is resolved does not hold the index any more, and a graph is written from what is
resolved.

## Main results

* `DependencyTable.unitAt_renumber` — an index and its replacement.
* `SymbolGraph.numbering_irrelevant` — the outcome of taking a unit in.
-/

namespace DeadSymbols

/-! ## Renumbering -/

/-- The index that replaces an index when the rows of a table are moved. -/
def renumberIndex {n : Nat} (π : Equiv.Perm (Fin n)) (index : Int) : Int :=
  if h : 1 ≤ index ∧ index ≤ n then (π ⟨index.toNat - 1, by omega⟩ : Nat) + 1 else index

theorem renumberIndex_row {n : Nat} (π : Equiv.Perm (Fin n)) (place : Fin n) :
    renumberIndex π ((place : Nat) + 1) = (π place : Nat) + 1 := by
  have hrow : (1 : Int) ≤ (place : Nat) + 1 ∧ ((place : Nat) : Int) + 1 ≤ n := by omega
  have hplace : ((((place : Nat) : Int) + 1).toNat - 1) = place := by omega
  simp only [renumberIndex, dif_pos hrow, hplace]

theorem renumberIndex_of_no_row {n : Nat} (π : Equiv.Perm (Fin n)) {index : Int}
    (h : ¬ (1 ≤ index ∧ index ≤ n)) : renumberIndex π index = index :=
  dif_neg h

/-- The identity with the index of a row replaced. -/
def LocalRef.renumber {n : Nat} (π : Equiv.Perm (Fin n)) (r : LocalRef) : LocalRef :=
  { r with index := renumberIndex π r.index }

/-- The record with the indexes of rows replaced in all its identities. -/
def LocalDefinition.renumber {n : Nat} (π : Equiv.Perm (Fin n)) (d : LocalDefinition) :
    LocalDefinition :=
  { d with
    id := d.id.renumber π
    parent := d.parent.map (LocalRef.renumber π)
    declaration := d.declaration.map (LocalRef.renumber π) }

/-- The record with the index of a row replaced in its target. -/
def LocalReference.renumber {n : Nat} (π : Equiv.Perm (Fin n)) (r : LocalReference) :
    LocalReference :=
  { r with target := r.target.renumber π }

/-- The row declaring a place, counted from zero. -/
def Dependency.movedTo (place : Nat) (row : Dependency) : Dependency :=
  { row with ordinal := place + 1 }

/-- The table with its rows moved, each declaring its new place. -/
def DependencyTable.renumber (t : DependencyTable)
    (π : Equiv.Perm (Fin t.externals.length)) : DependencyTable :=
  { t with
    externals := List.ofFn fun place => (t.externals.get (π.symm place)).movedTo place }

/-- The unit with its table and all its records renumbered. -/
def Dump.renumber (u : Dump) (π : Equiv.Perm (Fin u.metadata.table.externals.length)) :
    Dump :=
  { u with
    metadata := { u.metadata with table := u.metadata.table.renumber π }
    definitions := u.definitions.map (LocalDefinition.renumber π)
    references := u.references.map (LocalReference.renumber π) }

/-! ## Resolving renumbered identities -/

namespace DependencyTable

/-- Every row declares its place, counted from one. -/
def SelfConsistent (t : DependencyTable) : Prop :=
  ∀ place : Fin t.externals.length, (t.externals.get place).ordinal = (place : Nat) + 1

instance (t : DependencyTable) : Decidable t.SelfConsistent :=
  inferInstanceAs (Decidable
    (∀ place : Fin t.externals.length, (t.externals.get place).ordinal = (place : Nat) + 1))

variable {t : DependencyTable} (π : Equiv.Perm (Fin t.externals.length))

theorem length_externals_renumber :
    (t.renumber π).externals.length = t.externals.length :=
  List.length_ofFn

/-- A row is found at its new place. -/
theorem getElem?_externals_renumber (place : Fin t.externals.length) :
    (t.renumber π).externals[(π place : Nat)]? =
      some ((t.externals.get place).movedTo (π place)) := by
  simp [renumber]

/-- An index without a row, other than zero, is refused. -/
theorem unitAt_of_no_row {t : DependencyTable} {index : Int}
    (hrow : ¬ (1 ≤ index ∧ index ≤ t.externals.length)) (hzero : index ≠ 0) :
    t.unitAt index = .error (.noRow t.name index t.externals.length) := by
  rw [unitAt_eq_error_iff]
  rcases lt_or_ge index 0 with hneg | hpos
  · exact .negative hneg
  · exact .pastEnd (by omega)

/-- In a consistent table an index stands for what its replacement stands for in the
renumbered table. -/
theorem unitAt_renumber (ht : t.SelfConsistent) (index : Int) :
    (t.renumber π).unitAt (renumberIndex π index) = t.unitAt index := by
  by_cases hrow : 1 ≤ index ∧ index ≤ t.externals.length
  · obtain ⟨place, rfl⟩ : ∃ place : Fin t.externals.length, index = (place : Nat) + 1 :=
      ⟨⟨index.toNat - 1, by omega⟩, show index = ((index.toNat - 1 : Nat) : Int) + 1 by omega⟩
    have hold : t.unitAt ((place : Nat) + 1) = .ok (t.externals.get place).unit := by
      rw [unitAt_eq_ok_iff]
      exact .external (List.getElem?_eq_getElem place.isLt) (ht place)
    have hnew : (t.renumber π).unitAt ((π place : Nat) + 1) =
        .ok ((t.externals.get place).movedTo (π place)).unit := by
      rw [unitAt_eq_ok_iff]
      exact .external (getElem?_externals_renumber π place) rfl
    rw [renumberIndex_row, hold, hnew, Dependency.movedTo]
  · rw [renumberIndex_of_no_row π hrow]
    have hlength := length_externals_renumber π
    by_cases hzero : index = 0
    · subst hzero
      rfl
    · -- The fault tells the unit's name, the index and the number of rows, and all three
      -- are as before.
      rw [unitAt_of_no_row hrow hzero, unitAt_of_no_row (hlength.symm ▸ hrow) hzero, hlength]
      rfl

theorem resolve_renumber (ht : t.SelfConsistent) (r : LocalRef) :
    (t.renumber π).resolve (r.renumber π) = t.resolve r := by
  rw [resolve, resolve, LocalRef.renumber, unitAt_renumber π ht]

theorem resolve?_renumber (ht : t.SelfConsistent) (r : Option LocalRef) :
    (t.renumber π).resolve? (r.map (LocalRef.renumber π)) = t.resolve? r := by
  cases r with
  | none => rfl
  | some r => rw [Option.map_some, resolve?, resolve?, resolve_renumber π ht]

theorem definition_renumber (ht : t.SelfConsistent) (d : LocalDefinition) :
    (t.renumber π).definition (d.renumber π) = t.definition d := by
  simp only [definition, LocalDefinition.renumber, resolve_renumber π ht,
    resolve?_renumber π ht]

theorem reference_renumber (ht : t.SelfConsistent) (r : LocalReference) :
    (t.renumber π).reference (r.renumber π) = t.reference r := by
  simp only [reference, LocalReference.renumber, resolve_renumber π ht]

end DependencyTable

/-! ## Taking renumbered units in -/

namespace SymbolGraph

/-- Records that are replaced by others which stand for the same are taken in alike. -/
theorem addRecords_map {ρ ρ' δ : Type} {resolve : ρ → Except SchemaFault δ}
    {resolve' : ρ' → Except SchemaFault δ} {f : ρ → ρ'}
    (h : ∀ r, resolve' (f r) = resolve r) (write : SymbolGraph → δ → SymbolGraph)
    (g : SymbolGraph) (records : List ρ) :
    addRecords resolve' write g (records.map f) = addRecords resolve write g records := by
  induction records generalizing g with
  | nil => rfl
  | cons r rest ih =>
      rw [List.map_cons, addRecords, addRecords, h]
      cases resolve r with
      | error fault => rfl
      | ok d => exact ih (write g d)

/-- The numbering of a dependency table is irrelevant.  If every row of a unit's table
declares its place, and the rows are moved by any permutation and the indexes in the
records replaced accordingly, taking the unit into a graph has the same outcome as
before: the same graph, with the same definition or reference under every key, whether
or not something stops the unit, and if something does, the same fault. -/
theorem numbering_irrelevant (g : SymbolGraph) (u : Dump)
    (h : u.metadata.table.SelfConsistent)
    (π : Equiv.Perm (Fin u.metadata.table.externals.length)) :
    g.addUnit (u.renumber π) = g.addUnit u := by
  have hdefinitions : ∀ g', addDefinitions (u.metadata.table.renumber π) g'
      (u.definitions.map (LocalDefinition.renumber π)) =
        addDefinitions u.metadata.table g' u.definitions := by
    intro g'
    exact addRecords_map (DependencyTable.definition_renumber π h) addDefinition g' _
  have hreferences : ∀ g', addReferences (u.metadata.table.renumber π) g'
      (u.references.map (LocalReference.renumber π)) =
        addReferences u.metadata.table g' u.references := by
    intro g'
    exact addRecords_map (DependencyTable.reference_renumber π h) addReference g' _
  have hunit : (u.renumber π).unit = u.unit := rfl
  simp only [addUnit, hunit]
  simp only [Dump.renumber, hdefinitions, hreferences]

/-- A program with three dependencies, whose records point to the program itself, to
each dependency and, in the end, to a fourth that there is not. -/
def threefoldUnit : Dump :=
  let place (line : Int) : Span := ⟨"src/main.rs", line, 1, line, 9⟩
  ⟨"draw.json",
    ⟨⟨"draw", ⟨2, 2⟩, [⟨1, "shape", ⟨1, 1⟩⟩, ⟨2, "paint", ⟨3, 3⟩⟩, ⟨3, "file", ⟨4, 4⟩⟩]⟩,
      "/work/draw"⟩,
    [⟨"Struct", "Canvas", ⟨0, 1⟩, place 1, none, none⟩,
     ⟨"Method", "fill", ⟨0, 2⟩, place 2, some ⟨0, 1⟩, some ⟨1, 4⟩⟩],
    [⟨"Function", ⟨3, 4⟩, place 5⟩, ⟨"Function", ⟨2, 6⟩, place 6⟩,
     ⟨"Function", ⟨4, 6⟩, place 7⟩]⟩

/-- With its three rows rotated, the program is another dump, and leaves the same graph
and the same fault. -/
theorem numbering_irrelevant_threefoldUnit :
    threefoldUnit.renumber (finRotate 3) ≠ threefoldUnit ∧
      empty.addUnit (threefoldUnit.renumber (finRotate 3)) = empty.addUnit threefoldUnit ∧
      (empty.addUnit threefoldUnit).fault = some (.noRow "draw" 4 3) := by
  have hconsistent : threefoldUnit.metadata.table.SelfConsistent := by decide
  exact ⟨by decide +kernel, numbering_irrelevant empty threefoldUnit hconsistent (finRotate 3),
    by decide +kernel⟩

end SymbolGraph

end DeadSymbols
