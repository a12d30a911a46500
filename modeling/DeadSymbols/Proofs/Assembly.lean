import Mathlib
import DeadSymbols.Proofs.Ingestion
import DeadSymbols.Proofs.Resolution

/-!
# What an assembled graph holds

Units that nothing stops have written all their records, unit after unit
(`Ingestion`).  So the graph is read off the records alone.  `definitionRecords` and
`referenceRecords` list the records of the units in the order in which they are
taken in, each with the table of its own unit, and the three questions that are
asked of a graph have answers that mention neither ledgers nor runs:

* `get?_definitions_iff` — the definition under an identity is the one that the
  last record for this identity stands for.
* `isUsed_iff` — an identity is used if some reference record resolves to it.
* `contains_covered_iff` — a unit is covered if it is the unit of some dump.
-/

namespace DeadSymbols.SymbolGraph

/-! ## The records of a list of units -/

/-- The definition records of units in the order in which they are taken in, each
with the table that resolves it. -/
def definitionRecords (us : List Dump) :
    List (DependencyTable × LocalDefinition) :=
  us.flatMap fun u => u.definitions.map fun r => (u.metadata.table, r)

/-- The reference records of units in the order in which they are taken in, each
with the table that resolves it. -/
def referenceRecords (us : List Dump) :
    List (DependencyTable × LocalReference) :=
  us.flatMap fun u => u.references.map fun r => (u.metadata.table, r)

/-- The definition is what the last definition record for its identity stands
for. -/
def LastDefinition (us : List Dump) (d : Definition) : Prop :=
  ∃ before table record after,
    definitionRecords us = before ++ (table, record) :: after ∧
      table.ResolvesDefinition record d ∧
      ∀ later ∈ after, ¬ later.1.Resolves later.2.id d.id

/-- Some reference record stands for a reference to the symbol. -/
def Targeted (us : List Dump) (id : SymbolId) : Prop :=
  ∃ r ∈ referenceRecords us, r.1.Resolves r.2.target id

/-- The unit is the unit of one of the dumps. -/
def IsUnitOf (us : List Dump) (unit : UnitId) : Prop :=
  ∃ u ∈ us, u.unit = unit

/-- If nothing stops the units, what they write is what their definition records
stand for. -/
theorem map_definitionRecords {us : List Dump} (h : ∀ u ∈ us, u.fault? = none) :
    (definitionRecords us).map (fun r => r.1.definition r.2) =
      (us.flatMap Dump.writtenDefinitions).map .ok := by
  rw [definitionRecords, List.map_flatMap, List.map_flatMap]
  refine List.flatMap_congr ?_
  intro u hu
  have hnone := (Option.or_eq_none_iff.mp (h u hu)).1
  rw [List.map_map, Dump.writtenDefinitions, map_resolvedBefore _ hnone]
  rfl

/-- If nothing stops the units, what they write is what their reference records stand
for. -/
theorem map_referenceRecords {us : List Dump} (h : ∀ u ∈ us, u.fault? = none) :
    (referenceRecords us).map (fun r => r.1.reference r.2) =
      (us.flatMap Dump.writtenReferences).map .ok := by
  rw [referenceRecords, List.map_flatMap, List.map_flatMap]
  refine List.flatMap_congr ?_
  intro u hu
  obtain ⟨hdefs, hrefs⟩ := Option.or_eq_none_iff.mp (h u hu)
  rw [List.map_map, Dump.writtenReferences, hdefs, map_resolvedBefore _ hrefs]
  rfl

/-- Nothing stops the units exactly if all their records can be resolved. -/
theorem forall_fault?_eq_none_iff (us : List Dump) :
    (∀ u ∈ us, u.fault? = none) ↔
      (∀ r ∈ definitionRecords us, ∃ d, r.1.definition r.2 = .ok d) ∧
        ∀ r ∈ referenceRecords us, ∃ d, r.1.reference r.2 = .ok d := by
  simp only [Dump.fault?_eq_none_iff, definitionRecords, referenceRecords, List.mem_flatMap,
    List.mem_map]
  constructor
  · intro h
    constructor
    · rintro _ ⟨u, hu, r, hr, rfl⟩
      exact (h u hu).1 r hr
    · rintro _ ⟨u, hu, r, hr, rfl⟩
      exact (h u hu).2 r hr
  · rintro ⟨hdefinitions, hreferences⟩ u hu
    constructor
    · intro r hr
      exact hdefinitions _ ⟨u, hu, r, hr, rfl⟩
    · intro r hr
      exact hreferences _ ⟨u, hu, r, hr, rfl⟩

/-! ## Reading the graph off the records -/

-- A list of records and the list of what they stand for are split at the same
-- place, so "the last value with a property" can be said of either.
private theorem exists_split_iff {ρ δ ε : Type} {resolve : ρ → Except ε δ}
    {records : List ρ} {ds : List δ} (h : records.map resolve = ds.map .ok)
    (d : δ) (Later : δ → Prop) :
    (∃ before after, ds = before ++ d :: after ∧ ∀ x ∈ after, Later x) ↔
      ∃ before r after, records = before ++ r :: after ∧ resolve r = .ok d ∧
        ∀ r' ∈ after, ∀ x, resolve r' = .ok x → Later x := by
  constructor
  · rintro ⟨before, after, rfl, hafter⟩
    rw [List.map_append, List.map_cons] at h
    obtain ⟨rs₁, rs₂, rfl, -, htail⟩ := List.map_eq_append_iff.mp h
    obtain ⟨r, rs₃, rfl, hr, hrest⟩ := List.map_eq_cons_iff.mp htail
    refine ⟨rs₁, r, rs₃, rfl, hr, ?_⟩
    intro r' hr' x hx
    have hmem : Except.ok x ∈ after.map (Except.ok (ε := ε)) := by
      rw [← hrest, ← hx]
      exact List.mem_map_of_mem hr'
    obtain ⟨y, hy, hxy⟩ := List.mem_map.mp hmem
    obtain rfl := Except.ok.inj hxy
    exact hafter y hy
  · rintro ⟨before, r, after, rfl, hr, hafter⟩
    rw [List.map_append, List.map_cons, hr] at h
    obtain ⟨ds₁, ds₂, rfl, -, htail⟩ := List.map_eq_append_iff.mp h.symm
    obtain ⟨d', ds₃, rfl, hd, hrest⟩ := List.map_eq_cons_iff.mp htail
    obtain rfl := Except.ok.inj hd
    refine ⟨ds₁, ds₃, rfl, ?_⟩
    intro x hx
    have hmem : Except.ok x ∈ after.map resolve := by
      rw [← hrest]
      exact List.mem_map_of_mem hx
    obtain ⟨r', hr', hx'⟩ := List.mem_map.mp hmem
    exact hafter r' hr' x hx'

/-- The definition under an identity is the one that the last record for this
identity stands for. -/
theorem get?_definitions_iff {us : List Dump} {g : SymbolGraph}
    (h : assemble us = .ok g) (id : SymbolId) (d : Definition) :
    g.definitions.get? id = some d ↔ d.id = id ∧ LastDefinition us d := by
  obtain ⟨hnone, rfl⟩ := (addUnits_eq_ok_iff empty g us).mp h
  have hresolved := map_definitionRecords hnone
  rw [definitions_foldl_written, definitionWrites, empty,
    Ledger.get?_putAll_map_iff Definition.id,
    exists_split_iff hresolved d (fun x => x.id ≠ id)]
  refine and_congr_right fun hid => ?_
  subst hid
  constructor
  · rintro ⟨before, ⟨t, r⟩, after, heq, hr, hafter⟩
    refine ⟨before, t, r, after, heq,
      (DependencyTable.definition_eq_ok_iff t r d).mp hr, ?_⟩
    intro later hlater hres
    -- A later record resolves as a whole, so it stands for a definition with the
    -- identity that its own part stands for.
    have hall : later.1.definition later.2 ∈
        (us.flatMap Dump.writtenDefinitions).map Except.ok := by
      rw [← hresolved, heq]
      refine List.mem_map.mpr ⟨later, ?_, rfl⟩
      exact List.mem_append_right before (List.mem_cons_of_mem _ hlater)
    obtain ⟨x, -, hx⟩ := List.mem_map.mp hall
    have hxres := (DependencyTable.definition_eq_ok_iff later.1 later.2 x).mp hx.symm
    exact hafter later hlater x hx.symm (hxres.id.unique hres)
  · rintro ⟨before, t, r, after, heq, hr, hafter⟩
    refine ⟨before, (t, r), after, heq,
      (DependencyTable.definition_eq_ok_iff t r d).mpr hr, ?_⟩
    intro later hlater x hx hxid
    have hxres := (DependencyTable.definition_eq_ok_iff later.1 later.2 x).mp hx
    exact hafter later hlater (hxid ▸ hxres.id)

/-- The graph holds a definition under every identity for which there is a record. -/
theorem exists_get?_of_record {us : List Dump} {g : SymbolGraph}
    (h : assemble us = .ok g) {r : DependencyTable × LocalDefinition}
    (hr : r ∈ definitionRecords us) {d : Definition}
    (hresolves : r.1.ResolvesDefinition r.2 d) :
    ∃ d', g.definitions.get? d.id = some d' := by
  obtain ⟨hnone, rfl⟩ := (addUnits_eq_ok_iff empty g us).mp h
  have hok := (DependencyTable.definition_eq_ok_iff r.1 r.2 d).mpr hresolves
  have hmem : r.1.definition r.2 ∈ (us.flatMap Dump.writtenDefinitions).map Except.ok := by
    rw [← map_definitionRecords hnone]
    exact List.mem_map.mpr ⟨r, hr, rfl⟩
  obtain ⟨x, hx, hrx⟩ := List.mem_map.mp hmem
  obtain rfl : x = d := Except.ok.inj (hrx.trans hok)
  rw [← Ledger.mem_keys_iff_get?, definitions_foldl_written, Ledger.mem_keys_putAll]
  exact Or.inl ⟨(x.id, x), List.mem_map.mpr ⟨x, hx, rfl⟩, rfl⟩

/-- An assembled graph holds one definition for each identity. -/
theorem keyed_definitions {us : List Dump} {g : SymbolGraph}
    (h : assemble us = .ok g) : g.definitions.Keyed :=
  (keyed_of_addUnits keyed_empty h).definitions

/-- An identity is used if some reference record resolves to it. -/
theorem isUsed_iff {us : List Dump} {g : SymbolGraph}
    (h : assemble us = .ok g) (id : SymbolId) :
    g.isUsed id = true ↔ Targeted us id := by
  obtain ⟨hnone, rfl⟩ := (addUnits_eq_ok_iff empty g us).mp h
  have hresolved := map_referenceRecords hnone
  rw [isUsed, Ledger.has_eq_true_iff, references_foldl_written, Ledger.mem_keys_putAll]
  constructor
  · rintro (⟨w, hw, rfl⟩ | hempty)
    · obtain ⟨x, hx, rfl⟩ := List.mem_map.mp hw
      have hmem : Except.ok x ∈
          (referenceRecords us).map (fun r => r.1.reference r.2) := by
        rw [hresolved]
        exact List.mem_map_of_mem hx
      obtain ⟨r, hr, hrx⟩ := List.mem_map.mp hmem
      exact ⟨r, hr, ((DependencyTable.reference_eq_ok_iff _ _ _).mp hrx).2.1⟩
    · cases hempty
  · rintro ⟨r, hr, hres⟩
    have hmem : r.1.reference r.2 ∈
        (us.flatMap Dump.writtenReferences).map Except.ok := by
      rw [← hresolved]
      exact List.mem_map.mpr ⟨r, hr, rfl⟩
    obtain ⟨x, hx, hrx⟩ := List.mem_map.mp hmem
    have hxres := ((DependencyTable.reference_eq_ok_iff _ _ _).mp hrx.symm).2.1
    exact Or.inl ⟨(x.target, x), List.mem_map.mpr ⟨x, hx, rfl⟩, hxres.unique hres⟩

/-- A unit is covered if it is the unit of one of the dumps. -/
theorem contains_covered_iff {us : List Dump} {g : SymbolGraph}
    (h : assemble us = .ok g) (unit : UnitId) :
    g.covered.contains unit = true ↔ IsUnitOf us unit := by
  obtain ⟨hnone, rfl⟩ := (addUnits_eq_ok_iff empty g us).mp h
  rw [List.contains_iff_mem, mem_covered_foldl_written hnone]
  simp [empty, IsUnitOf]

end DeadSymbols.SymbolGraph
