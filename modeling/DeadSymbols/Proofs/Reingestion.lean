import Mathlib
import DeadSymbols.Proofs.DetectorReport
import DeadSymbols.Proofs.Ingestion

/-!
# Taking units in again

Units may disagree about an identity, and one unit may hold several records for it, so
taking units in a second time does rewrite entries on the way.  It leaves no trace
because the last writer of each entry is the same the second time, and because an
entry that is rewritten keeps its place.

Where only some of the units come again, or in another order, another writer may be
the last one.  Which definitions, targets and units the graph holds stays the same
even then.

## Main results

* `written_written` — a unit on top of itself.
* `foldl_written_again` — units on top of themselves.
* `assemble_append_of_mem` — units on top of a graph that they are part of.
-/

namespace DeadSymbols.SymbolGraph

/-- A unit that is taken in a second time changes nothing, wherever it stops. -/
theorem written_written (g : SymbolGraph) (u : Dump) :
    (g.written u).written u = g.written u := by
  have hcovered : ((g.written u).written u).covered = (g.written u).covered := by
    by_cases hfault : u.fault? = none
    · have hmem : u.unit ∈ (g.written u).covered := by
        rw [written, if_pos hfault, mem_covered_cover]
        exact Or.inl rfl
      rw [written, if_pos hfault, covered_cover, if_pos hmem]
    · exact if_neg hfault
  calc
    (g.written u).written u =
        ⟨((g.written u).written u).definitions, ((g.written u).written u).references,
          ((g.written u).written u).covered⟩ := rfl
    _ = g.written u := by
        rw [hcovered]
        simp only [written, Ledger.putAll_putAll]

/-- Units that are covered already leave the covered units as they are. -/
theorem covered_foldl_written_of_covered {us : List Dump} {g : SymbolGraph}
    (h : ∀ u ∈ us, u.unit ∈ g.covered) : (us.foldl written g).covered = g.covered := by
  induction us generalizing g with
  | nil => rfl
  | cons u us ih =>
      have hstep : (g.written u).covered = g.covered := by
        rw [written, covered_cover, if_pos (h u List.mem_cons_self), ite_self]
      have hrest : ∀ v ∈ us, v.unit ∈ (g.written u).covered := by
        intro v hv
        rw [hstep]
        exact h v (List.mem_cons_of_mem u hv)
      rw [List.foldl_cons, ih hrest, hstep]

/-- Units that nothing stops change nothing when they are taken in a second time. -/
theorem foldl_written_again {us : List Dump} (h : ∀ u ∈ us, u.fault? = none)
    (g : SymbolGraph) :
    us.foldl written (us.foldl written g) = us.foldl written g := by
  have hdefinitions : (us.foldl written (us.foldl written g)).definitions =
      (us.foldl written g).definitions := by
    simp only [definitions_foldl_written, Ledger.putAll_putAll]
  have hreferences : (us.foldl written (us.foldl written g)).references =
      (us.foldl written g).references := by
    simp only [references_foldl_written, Ledger.putAll_putAll]
  have hcovered : (us.foldl written (us.foldl written g)).covered =
      (us.foldl written g).covered := by
    refine covered_foldl_written_of_covered ?_
    intro u hu
    exact (mem_covered_foldl_written h g u.unit).mpr (Or.inl ⟨u, hu, rfl⟩)
  calc
    us.foldl written (us.foldl written g) =
        ⟨(us.foldl written (us.foldl written g)).definitions,
          (us.foldl written (us.foldl written g)).references,
          (us.foldl written (us.foldl written g)).covered⟩ := rfl
    _ = us.foldl written g := by rw [hdefinitions, hreferences, hcovered]

/-! ## Units that the graph was made of -/

section Again

variable {us vs : List Dump} {g : SymbolGraph}

/-- Units that are taken in after others are taken into the graph of the others. -/
theorem assemble_append_of_mem (h : assemble us = .ok g) (hvs : ∀ v ∈ vs, v ∈ us) :
    assemble (us ++ vs) = .ok (vs.foldl written g) := by
  obtain ⟨hnone, rfl⟩ := (addUnits_eq_ok_iff empty g us).mp h
  refine (addUnits_eq_ok_iff empty _ (us ++ vs)).mpr ⟨?_, List.foldl_append⟩
  intro u hu
  rcases List.mem_append.mp hu with hu | hu
  · exact hnone u hu
  · exact hnone u (hvs u hu)

private theorem flatMap_subset {δ : Type} (f : Dump → List δ) (hvs : ∀ v ∈ vs, v ∈ us) :
    vs.flatMap f ⊆ us.flatMap f := by
  intro d hd
  obtain ⟨v, hv, hd⟩ := List.mem_flatMap.mp hd
  exact List.mem_flatMap.mpr ⟨v, hvs v hv, hd⟩

private theorem keys_again (h : assemble us = .ok g) (hvs : ∀ v ∈ vs, v ∈ us) :
    (vs.foldl written g).definitions.keys = g.definitions.keys ∧
      (vs.foldl written g).references.keys = g.references.keys := by
  obtain ⟨-, rfl⟩ := (addUnits_eq_ok_iff empty g us).mp h
  simp only [definitions_foldl_written, references_foldl_written]
  constructor
  · exact Ledger.keys_putAll_again _ (List.map_subset _ (flatMap_subset _ hvs))
  · exact Ledger.keys_putAll_again _ (List.map_subset _ (flatMap_subset _ hvs))

private theorem covered_again (h : assemble us = .ok g) (hvs : ∀ v ∈ vs, v ∈ us) :
    (vs.foldl written g).covered = g.covered := by
  obtain ⟨hnone, rfl⟩ := (addUnits_eq_ok_iff empty g us).mp h
  refine covered_foldl_written_of_covered ?_
  intro v hv
  exact (mem_covered_foldl_written hnone empty v.unit).mpr (Or.inl ⟨v, hvs v hv, rfl⟩)

end Again

/-- Graphs with the same keys and the same covered units have the same sizes. -/
theorem counts_eq_of_keys {g g' : SymbolGraph}
    (hdefinitions : g'.definitions.keys = g.definitions.keys)
    (hused : g'.used = g.used) (hcovered : g'.covered = g.covered) :
    g'.size = g.size ∧ Detector.counts g' = Detector.counts g := by
  have hdefs : g'.definitions.size = g.definitions.size := by
    rw [← Ledger.length_keys, hdefinitions, Ledger.length_keys]
  have hrefs : g'.references.size = g.references.size := by
    rw [← Ledger.length_keys, ← Ledger.length_keys]
    exact congrArg List.length hused
  constructor
  · rw [size, size, hdefs, hrefs]
  · rw [Detector.counts, Detector.counts, hdefs, hrefs, hcovered]

/-- Taking units in again.  Units that can be assembled can be assembled on top of
themselves, and the graph is the same in all that it holds.  If some of them come
again, in any order and any number, the graph has the same definition keys, the same
targets and the same covered units, and so the same sizes.

One unit, taken into any graph twice in a row, has the same outcome the second time as
the first: the same graph and, if it has one, the same fault. -/
theorem reingestion_idempotent :
    (∀ us g, assemble us = .ok g →
      assemble (us ++ us) = .ok g ∧
      ∀ vs, (∀ v ∈ vs, v ∈ us) →
        ∃ g', assemble (us ++ vs) = .ok g' ∧
          g'.definitions.keys = g.definitions.keys ∧
          g'.used = g.used ∧
          g'.covered = g.covered ∧
          g'.size = g.size ∧ Detector.counts g' = Detector.counts g) ∧
    ∀ (g : SymbolGraph) (u : Dump), (g.addUnit u).graph.addUnit u = g.addUnit u := by
  refine ⟨?_, ?_⟩
  · intro us g h
    constructor
    · obtain ⟨hnone, hg⟩ := (addUnits_eq_ok_iff empty g us).mp h
      rw [assemble_append_of_mem h fun v hv => hv, ← hg, foldl_written_again hnone]
    · intro vs hvs
      obtain ⟨hdefinitions, hused⟩ := keys_again h hvs
      have hcovered := covered_again h hvs
      exact ⟨vs.foldl written g, assemble_append_of_mem h hvs, hdefinitions, hused, hcovered,
        counts_eq_of_keys hdefinitions hused hcovered⟩
  · intro g u
    rw [addUnit_eq, addUnit_eq, written_written]

/-- The library among the sample units has two records for one function, and comes
again after the program that depends on it. -/
theorem reingestion_idempotent_sampleUnits :
    ∃ g, assemble Detector.sampleUnits = .ok g ∧
      assemble (Detector.sampleUnits ++ Detector.sampleUnits) = .ok g ∧
      ∃ g', assemble (Detector.sampleUnits ++ Detector.sampleUnits.take 1) = .ok g' ∧
        g'.definitions.keys = g.definitions.keys ∧ g'.size = g.size := by
  obtain ⟨hagain, hpart⟩ := reingestion_idempotent.1 Detector.sampleUnits _ rfl
  obtain ⟨g', hg', hkeys, -, -, hsize, -⟩ := hpart (Detector.sampleUnits.take 1)
    fun v hv => List.mem_of_mem_take hv
  exact ⟨_, rfl, hagain, g', hg', hkeys, hsize⟩

end DeadSymbols.SymbolGraph
