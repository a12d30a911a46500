import Mathlib
import DeadSymbols.Graph
import DeadSymbols.Proofs.Ledger

/-!
# What a unit writes

A unit is taken in record by record, up to the first that cannot be resolved.  Which
of its records are written, and which fault stops it, is read off the unit alone, so
that the effect of a unit is the same on every graph: it writes these records in their
order, and counts as covered if nothing stops it.

## Main results

* `addUnit_eq` — one unit: what it writes and how it ends.
* `addUnits_eq` — many units: the fault of the first that has one, or the writes of
  all.
* `keyed_of_addUnits` — a graph that units are taken into holds nothing twice.
-/

namespace DeadSymbols

namespace SymbolGraph

/-! ## Records -/

section Records

variable {ρ σ δ ε : Type} (resolve : ρ → Except SchemaFault δ)

/-- What the records before the first that cannot be resolved stand for. -/
def resolvedBefore : List ρ → List δ
  | [] => []
  | r :: rest =>
    match resolve r with
    | .error _ => []
    | .ok d => d :: resolvedBefore rest

/-- The fault of the first record that cannot be resolved. -/
def firstFault? : List ρ → Option SchemaFault
  | [] => none
  | r :: rest =>
    match resolve r with
    | .error fault => some fault
    | .ok _ => firstFault? rest

/-- Records are written up to the first that cannot be resolved. -/
theorem addRecords_eq (write : SymbolGraph → δ → SymbolGraph) (g : SymbolGraph)
    (records : List ρ) :
    addRecords resolve write g records =
      ⟨(resolvedBefore resolve records).foldl write g, firstFault? resolve records⟩ := by
  induction records generalizing g with
  | nil => rfl
  | cons r rest ih =>
      rw [addRecords, resolvedBefore, firstFault?]
      cases resolve r with
      | error fault => rfl
      | ok d => exact ih (write g d)

theorem firstFault?_eq_none_iff (records : List ρ) :
    firstFault? resolve records = none ↔ ∀ r ∈ records, ∃ d, resolve r = .ok d := by
  induction records with
  | nil => simp [firstFault?]
  | cons r rest ih =>
      rw [firstFault?, List.forall_mem_cons]
      cases resolve r with
      | error fault => simp
      | ok d => simpa using ih

/-- If no record stops the run, all of them are written. -/
theorem map_resolvedBefore {records : List ρ} (h : firstFault? resolve records = none) :
    (resolvedBefore resolve records).map .ok = records.map resolve := by
  induction records with
  | nil => rfl
  | cons r rest ih =>
      rw [firstFault?] at h
      cases hr : resolve r with
      | error fault =>
          rw [hr] at h
          cases h
      | ok d =>
          rw [hr] at h
          simp only [resolvedBefore, hr, List.map_cons, ih h]

/-- The first fault is that of a record before which all records can be resolved, and
those are the records that are written. -/
theorem exists_of_firstFault? {records : List ρ} {fault : SchemaFault}
    (h : firstFault? resolve records = some fault) :
    ∃ before r after, records = before ++ r :: after ∧
      List.Forall₂ (fun r d => resolve r = .ok d) before (resolvedBefore resolve records) ∧
      resolve r = .error fault := by
  induction records with
  | nil => cases h
  | cons r rest ih =>
      rw [firstFault?] at h
      cases hr : resolve r with
      | error fault' =>
          rw [hr] at h
          obtain rfl := Option.some.inj h
          have hnone : resolvedBefore resolve (r :: rest) = [] := by
            rw [resolvedBefore, hr]
          rw [hnone]
          exact ⟨[], r, rest, rfl, .nil, hr⟩
      | ok d =>
          rw [hr] at h
          obtain ⟨before, r', after, rfl, hbefore, hr'⟩ := ih h
          have hcons : resolvedBefore resolve (r :: (before ++ r' :: after)) =
              d :: resolvedBefore resolve (before ++ r' :: after) := by
            rw [resolvedBefore, hr]
          rw [hcons]
          exact ⟨r :: before, r', after, rfl, .cons hr hbefore, hr'⟩

/-- If no record stops the run, every record is written. -/
theorem forall₂_resolvedBefore {records : List ρ} (h : firstFault? resolve records = none) :
    List.Forall₂ (fun r d => resolve r = .ok d) records (resolvedBefore resolve records) := by
  have hmap := map_resolvedBefore resolve h
  rw [← List.forall₂_eq_eq_eq, List.forall₂_map_left_iff, List.forall₂_map_right_iff] at hmap
  exact hmap.flip.imp fun r d hrd => hrd.symm

theorem firstFault?_append (xs ys : List ρ) :
    firstFault? resolve (xs ++ ys) =
      (firstFault? resolve xs).or (firstFault? resolve ys) := by
  induction xs with
  | nil => rfl
  | cons x xs ih =>
      rw [List.cons_append, firstFault?, firstFault?]
      cases resolve x with
      | error fault => rfl
      | ok d => exact ih

/-- Where the fault of a record is the first among its parts, the first fault among
records is the first among the parts of all records. -/
theorem firstFault?_flatMap {part : σ → Except SchemaFault ε} {parts : ρ → List σ}
    (hparts : ∀ r fault, resolve r = .error fault ↔ firstFault? part (parts r) = some fault)
    (records : List ρ) :
    firstFault? part (records.flatMap parts) = firstFault? resolve records := by
  induction records with
  | nil => rfl
  | cons r rest ih =>
      rw [List.flatMap_cons, firstFault?_append, ih, firstFault?]
      cases hr : resolve r with
      | error fault =>
          rw [(hparts r fault).mp hr]
          rfl
      | ok d =>
          have hnone : firstFault? part (parts r) = none := by
            rw [Option.eq_none_iff_forall_ne_some]
            intro fault hfault
            rw [(hparts r fault).mpr hfault] at hr
            cases hr
          rw [hnone]
          rfl

end Records

/-- The writes that definitions make. -/
def definitionWrites (ds : List Definition) : List (SymbolId × Definition) :=
  ds.map fun d => (d.id, d)

/-- The writes that references make. -/
def referenceWrites (rs : List Reference) : List (SymbolId × Reference) :=
  rs.map fun r => (r.target, r)

private theorem foldl_addDefinition (g : SymbolGraph) (ds : List Definition) :
    ds.foldl addDefinition g =
      { g with definitions := g.definitions.putAll (definitionWrites ds) } := by
  induction ds generalizing g with
  | nil => rfl
  | cons d ds ih => exact ih (g.addDefinition d)

private theorem foldl_addReference (g : SymbolGraph) (rs : List Reference) :
    rs.foldl addReference g =
      { g with references := g.references.putAll (referenceWrites rs) } := by
  induction rs generalizing g with
  | nil => rfl
  | cons r rs ih => exact ih (g.addReference r)

end SymbolGraph

/-! ## Units -/

namespace Dump

open SymbolGraph (resolvedBefore firstFault?)

/-- The definitions that a unit writes. -/
def writtenDefinitions (u : Dump) : List Definition :=
  resolvedBefore u.metadata.table.definition u.definitions

/-- The references that a unit writes: none if one of its definitions stops it. -/
def writtenReferences (u : Dump) : List Reference :=
  match firstFault? u.metadata.table.definition u.definitions with
  | some _ => []
  | none => resolvedBefore u.metadata.table.reference u.references

/-- The fault that stops a unit: definitions come before references. -/
def fault? (u : Dump) : Option SchemaFault :=
  (firstFault? u.metadata.table.definition u.definitions).or
    (firstFault? u.metadata.table.reference u.references)

/-- Nothing stops a unit whose records can all be resolved. -/
theorem fault?_eq_none_iff (u : Dump) :
    u.fault? = none ↔
      (∀ r ∈ u.definitions, ∃ d, u.metadata.table.definition r = .ok d) ∧
        ∀ r ∈ u.references, ∃ d, u.metadata.table.reference r = .ok d := by
  rw [fault?, Option.or_eq_none_iff, SymbolGraph.firstFault?_eq_none_iff,
    SymbolGraph.firstFault?_eq_none_iff]

end Dump

namespace SymbolGraph

/-- The graph that a unit leaves behind, whether it is taken in completely or not. -/
def written (g : SymbolGraph) (u : Dump) : SymbolGraph :=
  { definitions := g.definitions.putAll (definitionWrites u.writtenDefinitions)
    references := g.references.putAll (referenceWrites u.writtenReferences)
    covered := if u.fault? = none then (g.cover u.unit).covered else g.covered }

theorem covered_cover (g : SymbolGraph) (u : UnitId) :
    (g.cover u).covered =
      if u ∈ g.covered then g.covered else g.covered ++ [u] := by
  unfold cover
  simp only [List.contains_iff_mem]
  split <;> rfl

theorem mem_covered_cover (g : SymbolGraph) (u v : UnitId) :
    v ∈ (g.cover u).covered ↔ v = u ∨ v ∈ g.covered := by
  rw [covered_cover]
  split
  · next h =>
      constructor
      · exact Or.inr
      · rintro (rfl | hv)
        · exact h
        · exact hv
  · rw [List.mem_append, List.mem_singleton]
    exact Or.comm

/-- A unit writes its records and ends with its fault, on every graph. -/
theorem addUnit_eq (g : SymbolGraph) (u : Dump) :
    g.addUnit u = ⟨g.written u, u.fault?⟩ := by
  rw [addUnit, addDefinitions, addRecords_eq, foldl_addDefinition, written, Dump.fault?,
    Dump.writtenReferences, Dump.writtenDefinitions]
  cases hdefs : firstFault? u.metadata.table.definition u.definitions with
  | some fault => rfl
  | none =>
      simp only [addReferences]
      rw [addRecords_eq, foldl_addReference]
      cases hrefs : firstFault? u.metadata.table.reference u.references with
      | some fault => rfl
      | none =>
          simp only [Option.or_none, if_true, covered_cover]
          rw [cover]
          simp only [List.contains_iff_mem]
          split <;> rfl

/-- Units are taken in up to the first that has a fault. -/
theorem addUnits_eq (g : SymbolGraph) (us : List Dump) :
    g.addUnits us =
      match us.findSome? Dump.fault? with
      | some fault => .error fault
      | none => .ok (us.foldl written g) := by
  induction us generalizing g with
  | nil => rfl
  | cons u us ih =>
      rw [addUnits, addUnit_eq, List.findSome?_cons]
      cases u.fault? with
      | some fault => rfl
      | none => exact ih (g.written u)

/-- Units that have no fault can be taken into every graph. -/
theorem addUnits_eq_ok_iff (g g' : SymbolGraph) (us : List Dump) :
    g.addUnits us = .ok g' ↔
      (∀ u ∈ us, u.fault? = none) ∧ us.foldl written g = g' := by
  rw [addUnits_eq, ← List.findSome?_eq_none_iff]
  cases us.findSome? Dump.fault? with
  | some fault => simp
  | none => simp

/-! ## What many units write -/

theorem definitions_foldl_written (g : SymbolGraph) (us : List Dump) :
    (us.foldl written g).definitions =
      g.definitions.putAll (definitionWrites (us.flatMap Dump.writtenDefinitions)) := by
  induction us generalizing g with
  | nil => rfl
  | cons u us ih =>
      rw [List.foldl_cons, ih, written, ← Ledger.putAll_append, List.flatMap_cons,
        definitionWrites, definitionWrites, ← List.map_append, definitionWrites]

theorem references_foldl_written (g : SymbolGraph) (us : List Dump) :
    (us.foldl written g).references =
      g.references.putAll (referenceWrites (us.flatMap Dump.writtenReferences)) := by
  induction us generalizing g with
  | nil => rfl
  | cons u us ih =>
      rw [List.foldl_cons, ih, written, ← Ledger.putAll_append, List.flatMap_cons,
        referenceWrites, referenceWrites, ← List.map_append, referenceWrites]

/-- Units that nothing stops are covered, besides those that were before. -/
theorem mem_covered_foldl_written {us : List Dump} (h : ∀ u ∈ us, u.fault? = none)
    (g : SymbolGraph) (unit : UnitId) :
    unit ∈ (us.foldl written g).covered ↔
      (∃ u ∈ us, u.unit = unit) ∨ unit ∈ g.covered := by
  induction us generalizing g with
  | nil => simp
  | cons u us ih =>
      have hu : (g.written u).covered = (g.cover u.unit).covered :=
        if_pos (h u List.mem_cons_self)
      rw [List.foldl_cons, ih fun v hv => h v (List.mem_cons_of_mem u hv), hu,
        mem_covered_cover, List.exists_mem_cons_iff]
      constructor
      · rintro (hrest | rfl | hold)
        · exact Or.inl (Or.inr hrest)
        · exact Or.inl (Or.inl rfl)
        · exact Or.inr hold
      · rintro ((rfl | hrest) | hold)
        · exact Or.inr (Or.inl rfl)
        · exact Or.inl hrest
        · exact Or.inr (Or.inr hold)

/-! ## Nothing is held twice -/

/-- The graph holds each definition, each target and each unit once. -/
structure Keyed (g : SymbolGraph) : Prop where
  definitions : g.definitions.Keyed
  references : g.references.Keyed
  covered : g.covered.Nodup

theorem keyed_empty : empty.Keyed :=
  ⟨Ledger.keyed_empty, Ledger.keyed_empty, List.nodup_nil⟩

/-- A unit leaves no entry twice, wherever it stops. -/
theorem Keyed.written {g : SymbolGraph} (h : g.Keyed) (u : Dump) :
    (g.written u).Keyed := by
  refine ⟨h.definitions.putAll _, h.references.putAll _, ?_⟩
  show (if u.fault? = none then (g.cover u.unit).covered else g.covered).Nodup
  split
  · rw [covered_cover]
    split
    · exact h.covered
    · next hnew =>
        rw [← List.concat_eq_append]
        exact h.covered.concat hnew
  · exact h.covered

theorem keyed_of_addUnits {g g' : SymbolGraph} {us : List Dump} (hg : g.Keyed)
    (h : g.addUnits us = .ok g') : g'.Keyed := by
  obtain ⟨-, rfl⟩ := (addUnits_eq_ok_iff g g' us).mp h
  clear h
  induction us generalizing g with
  | nil => exact hg
  | cons u us ih => exact ih (hg.written u)

end SymbolGraph

end DeadSymbols
