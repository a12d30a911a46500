import Mathlib
import DeadSymbols.Proofs.Agreement
import DeadSymbols.Proofs.Assembly

/-!
# The order in which units are taken in

The last record for an identity counts, so the order of records matters where two of
them say different things about one identity, and only there.  `Consistent` rules this
out.  Then a definition stands in the graph exactly if some record stands for it, which
says nothing about the order of records; the same is true of targets and covered units
without any condition.  So units in another order, with their records in another order,
make graphs that answer alike, and the reports on them are equal.

What can differ is which of several references to one target is remembered.

## Main results

* `get?_definitions_iff_of_consistent` — the definitions of consistent units.
* `Rearranged.agrees` — what rearranged units assemble to.
* `ingestion_order_independent` — assembling and reporting, in any two orders.
-/

namespace DeadSymbols.SymbolGraph

/-! ## Units that agree with each other -/

/-- Definition records for one identity stand for one definition. -/
def Consistent (us : List Dump) : Prop :=
  ∀ r ∈ definitionRecords us, ∀ r' ∈ definitionRecords us, ∀ d d',
    r.1.ResolvesDefinition r.2 d → r'.1.ResolvesDefinition r'.2 d' →
      d.id = d'.id → d = d'

private theorem mem_toOption_iff {ε α : Type} {x : Except ε α} {a : α} :
    a ∈ x.toOption ↔ x = .ok a := by
  cases x with
  | error e => simp [Except.toOption]
  | ok b => simp [Except.toOption]

instance (us : List Dump) : Decidable (Consistent us) :=
  decidable_of_iff
    (∀ r ∈ definitionRecords us, ∀ r' ∈ definitionRecords us,
      ∀ d ∈ (r.1.definition r.2).toOption, ∀ d' ∈ (r'.1.definition r'.2).toOption,
        d.id = d'.id → d = d') <| by
    simp only [Consistent, ← DependencyTable.definition_eq_ok_iff, mem_toOption_iff]
    exact forall₄_congr fun r _ r' _ =>
      ⟨fun h d d' hd hd' => h d hd d' hd', fun h d hd d' hd' => h d d' hd hd'⟩

/-- In a graph of consistent units a definition stands under its identity exactly if
some record stands for it. -/
theorem get?_definitions_iff_of_consistent {us : List Dump} {g : SymbolGraph}
    (h : assemble us = .ok g) (hconsistent : Consistent us) (id : SymbolId)
    (d : Definition) :
    g.definitions.get? id = some d ↔
      d.id = id ∧ ∃ r ∈ definitionRecords us, r.1.ResolvesDefinition r.2 d := by
  -- What the graph holds under an identity comes from a record, namely the last one.
  have hrecord : ∀ id d, g.definitions.get? id = some d →
      d.id = id ∧ ∃ r ∈ definitionRecords us, r.1.ResolvesDefinition r.2 d := by
    intro id d hget
    obtain ⟨hid, before, table, record, after, heq, hresolves, -⟩ :=
      (get?_definitions_iff h id d).mp hget
    refine ⟨hid, (table, record), ?_, hresolves⟩
    rw [heq]
    exact List.mem_append_right before List.mem_cons_self
  constructor
  · exact hrecord id d
  · rintro ⟨rfl, r, hr, hresolves⟩
    obtain ⟨d', hget⟩ := exists_get?_of_record h hr hresolves
    obtain ⟨hid, r', hr', hresolves'⟩ := hrecord d.id d' hget
    rw [hget, hconsistent r' hr' r hr d' d hresolves' hresolves hid]

/-! ## Rearranging -/

/-- The second dump is the first with its records in another order. -/
structure Shuffled (u v : Dump) : Prop where
  source : u.source = v.source
  metadata : u.metadata = v.metadata
  definitions : u.definitions.Perm v.definitions
  references : u.references.Perm v.references

/-- The second list has the units of the first in another order, each with its records
in another order. -/
def Rearranged (us us' : List Dump) : Prop :=
  ∃ vs, List.Forall₂ Shuffled us vs ∧ vs.Perm us'

namespace Rearranged

variable {us us' : List Dump}

/-- What is collected from each unit, up to its order, is the same. -/
theorem flatMap_perm {γ : Type} {f : Dump → List γ}
    (hf : ∀ u v, Shuffled u v → (f u).Perm (f v)) (h : Rearranged us us') :
    (us.flatMap f).Perm (us'.flatMap f) := by
  obtain ⟨vs, hshuffled, hperm⟩ := h
  refine List.Perm.trans ?_ (hperm.flatMap_right f)
  clear hperm
  induction hshuffled with
  | nil => exact .refl _
  | cons huv _ ih =>
      rw [List.flatMap_cons, List.flatMap_cons]
      exact (hf _ _ huv).append ih

theorem definitionRecords_perm (h : Rearranged us us') :
    (definitionRecords us).Perm (definitionRecords us') := by
  refine h.flatMap_perm ?_
  intro u v huv
  rw [huv.metadata]
  exact huv.definitions.map _

theorem referenceRecords_perm (h : Rearranged us us') :
    (referenceRecords us).Perm (referenceRecords us') := by
  refine h.flatMap_perm ?_
  intro u v huv
  rw [huv.metadata]
  exact huv.references.map _

theorem isUnitOf_iff (h : Rearranged us us') (unit : UnitId) :
    IsUnitOf us unit ↔ IsUnitOf us' unit := by
  have hunits : (us.flatMap fun u => [u.unit]).Perm (us'.flatMap fun u => [u.unit]) := by
    refine h.flatMap_perm ?_
    intro u v huv
    rw [Dump.unit, Dump.unit, huv.metadata]
  have hmem := hunits.mem_iff (a := unit)
  simpa only [List.mem_flatMap, List.mem_singleton, IsUnitOf, eq_comm] using hmem

theorem consistent (h : Rearranged us us') (hconsistent : Consistent us) :
    Consistent us' := by
  intro r hr r' hr'
  have hrecords := h.definitionRecords_perm
  exact hconsistent r (hrecords.mem_iff.mpr hr) r' (hrecords.mem_iff.mpr hr')

/-- Either nothing stops the units in both orders, or something does in both. -/
theorem forall_fault?_iff (h : Rearranged us us') :
    (∀ u ∈ us, u.fault? = none) ↔ ∀ u ∈ us', u.fault? = none := by
  simp only [forall_fault?_eq_none_iff, h.definitionRecords_perm.mem_iff,
    h.referenceRecords_perm.mem_iff]

theorem assemble_error_iff (h : Rearranged us us') :
    (∃ fault, assemble us = .error fault) ↔ ∃ fault, assemble us' = .error fault := by
  have herror : ∀ vs : List Dump,
      (∃ fault, assemble vs = .error fault) ↔ ¬∀ u ∈ vs, u.fault? = none := by
    intro vs
    rw [assemble, addUnits_eq, ← List.findSome?_eq_none_iff]
    cases vs.findSome? Dump.fault? with
    | some fault => simp
    | none => simp
  rw [herror, herror, h.forall_fault?_iff]

/-- Consistent units assemble, in both orders, to graphs that answer alike. -/
theorem agrees (h : Rearranged us us') (hconsistent : Consistent us)
    {g g' : SymbolGraph} (hg : assemble us = .ok g) (hg' : assemble us' = .ok g') :
    Agrees g g' := by
  refine ⟨?_, ?_, ?_⟩
  · intro id
    refine Option.ext fun d => ?_
    rw [get?_definitions_iff_of_consistent hg hconsistent,
      get?_definitions_iff_of_consistent hg' (h.consistent hconsistent)]
    simp only [h.definitionRecords_perm.mem_iff]
  · intro id
    have hused := isUsed_iff hg id
    have hused' := isUsed_iff hg' id
    rw [isUsed, Ledger.has_eq_true_iff] at hused hused'
    rw [used, used, hused, hused', Targeted, Targeted]
    simp only [h.referenceRecords_perm.mem_iff]
  · intro unit
    rw [← List.contains_iff_mem, ← List.contains_iff_mem, contains_covered_iff hg,
      contains_covered_iff hg', h.isUnitOf_iff]

end Rearranged

/-- Consistent units in two orders, with their records in two orders.  Both fail to
assemble or neither does.  If neither does, the graphs have the same definition under
every identity, the same targets and the same covered units; so the counts are the
same, and so are the reports, for every policy and every number of workers, whether
macro input is looked up by a pure function, through the cache of source files, or not
at all. -/
theorem ingestion_order_independent {us us' : List Dump} (h : Rearranged us us')
    (hconsistent : Consistent us) :
    ((∃ fault, assemble us = .error fault) ↔ ∃ fault, assemble us' = .error fault) ∧
    ∀ g g', assemble us = .ok g → assemble us' = .ok g' →
      (∀ id, g.definitions.get? id = g'.definitions.get? id) ∧
      (∀ id, id ∈ g.used ↔ id ∈ g'.used) ∧
      (∀ unit, unit ∈ g.covered ↔ unit ∈ g'.covered) ∧
      Detector.counts g = Detector.counts g' ∧
      ∀ policy workers workers',
        (∀ lookup,
          (Detector.report g policy (.ofLookup lookup) workers : Id (List Finding)) =
            (Detector.report g' policy (.ofLookup lookup) workers' : Id (List Finding))) ∧
        ∀ (parse : Source.Parser) (c : RegionCache) (w : World), ∃ one : Detector.Outcome,
          Detector.ComesTo (Detector.report g policy (RegionCache.source parse) workers) c w
            one ∧
          Detector.ComesTo (Detector.report g' policy (RegionCache.source parse) workers') c w
            one := by
  refine ⟨h.assemble_error_iff, ?_⟩
  intro g g' hg hg'
  have hagrees := h.agrees hconsistent hg hg'
  have hkeyed := keyed_of_addUnits keyed_empty hg
  have hkeyed' := keyed_of_addUnits keyed_empty hg'
  refine ⟨hagrees.definitions, hagrees.used, hagrees.covered,
    hagrees.counts_eq hkeyed hkeyed', ?_⟩
  intro policy workers workers'
  exact ⟨fun lookup => hagrees.report_eq hkeyed hkeyed' policy lookup workers workers',
    hagrees.comesTo hkeyed hkeyed' policy workers workers'⟩

/-- A library that records one function twice and refers to it twice, and a program that
records the same function once more, through its own table. -/
def repeatedUnits : List Dump :=
  let library : UnitId := ⟨1, 1⟩
  let place (line : Int) : Span := ⟨"src/lib.rs", line, 1, line, 9⟩
  let scale (unit : Int) : LocalDefinition :=
    ⟨"Function", "scale", ⟨unit, 4⟩, place 4, none, none⟩
  [⟨"shape.json", ⟨⟨"shape", library, []⟩, "/work/shape"⟩,
      [scale 0, ⟨"Function", "turn", ⟨0, 5⟩, place 5, none, none⟩, scale 0],
      [⟨"Function", ⟨0, 4⟩, place 7⟩, ⟨"Function", ⟨0, 4⟩, place 8⟩]⟩,
   ⟨"draw.json", ⟨⟨"draw", ⟨2, 2⟩, [⟨1, "shape", library⟩]⟩, "/work/draw"⟩,
      [⟨"Function", "main", ⟨0, 1⟩, place 6, none, none⟩, scale 1],
      [⟨"Function", ⟨0, 1⟩, place 9⟩]⟩]

/-- The units from the last to the first, each with its records from the last to the
first. -/
def backwards (us : List Dump) : List Dump :=
  (us.map fun u =>
    { u with definitions := u.definitions.reverse, references := u.references.reverse }).reverse

theorem rearranged_backwards (us : List Dump) : Rearranged us (backwards us) := by
  refine ⟨us.map _, ?_, (List.reverse_perm _).symm⟩
  rw [List.forall₂_map_right_iff, List.forall₂_same]
  intro u _
  exact ⟨rfl, rfl, (List.reverse_perm _).symm, (List.reverse_perm _).symm⟩

/-- Backwards, the graph lists its units in another order and remembers another
reference; the counts and the report are the same. -/
theorem ingestion_order_independent_repeatedUnits :
    Consistent repeatedUnits ∧
    ∃ g g', assemble repeatedUnits = .ok g ∧ assemble (backwards repeatedUnits) = .ok g' ∧
      g.covered ≠ g'.covered ∧
      g.references.get? ⟨⟨1, 1⟩, 4⟩ ≠ g'.references.get? ⟨⟨1, 1⟩, 4⟩ ∧
      Detector.counts g = Detector.counts g' ∧
      (Detector.report g .resolve (.ofLookup none) (some 2) : Id (List Finding)) =
        (Detector.report g' .resolve (.ofLookup none) none : Id (List Finding)) := by
  have hconsistent : Consistent repeatedUnits := by decide +kernel
  obtain ⟨-, hsame⟩ :=
    ingestion_order_independent (rearranged_backwards repeatedUnits) hconsistent
  obtain ⟨-, -, -, hcounts, hreports⟩ := hsame _ _ rfl rfl
  exact ⟨hconsistent, _, _, rfl, rfl, by decide +kernel, by decide +kernel, hcounts,
    (hreports .resolve (some 2) none).1 none⟩

end DeadSymbols.SymbolGraph
