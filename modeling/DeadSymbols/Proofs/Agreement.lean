import Mathlib
import DeadSymbols.Proofs.Ingestion
import DeadSymbols.Proofs.Schedule

/-!
# Graphs that answer alike

A report asks three things of a graph: which definition stands under an identity,
whether an identity is used, and whether a unit is covered.  Two graphs that answer
these alike may still list their definitions in different orders, remember different
references for one target and list their units in different orders.  None of that
shows in a report or in its counts.

## Main results

* `Agrees.graphReason_eq` — every definition is judged alike.
* `Agrees.candidates_perm` — the candidates are the same, up to their order.
* `Agrees.report_eq`, `Agrees.comesTo` — the reports are the same, with a pure lookup
  of macro input and with the cache of source files.
-/

namespace DeadSymbols.SymbolGraph

open Detector RegionCache

/-- Two graphs give the same answers. -/
structure Agrees (g g' : SymbolGraph) : Prop where
  definitions : ∀ id, g.definitions.get? id = g'.definitions.get? id
  used : ∀ id, id ∈ g.used ↔ id ∈ g'.used
  covered : ∀ unit, unit ∈ g.covered ↔ unit ∈ g'.covered

namespace Agrees

variable {g g' : SymbolGraph}

theorem isUsed_eq (h : Agrees g g') (id : SymbolId) : g.isUsed id = g'.isUsed id := by
  rw [Bool.eq_iff_iff, isUsed, isUsed, Ledger.has_eq_true_iff, Ledger.has_eq_true_iff]
  exact h.used id

theorem contains_covered_eq (h : Agrees g g') (unit : UnitId) :
    g.covered.contains unit = g'.covered.contains unit := by
  rw [Bool.eq_iff_iff, List.contains_iff_mem, List.contains_iff_mem]
  exact h.covered unit

/-- The rules that need no source give the same reason. -/
theorem graphReason_eq (h : Agrees g g') (policy : Policy) (d : Definition) :
    graphReason g policy d = graphReason g' policy d := by
  have hexcused : isExcusedImplementation g policy d =
      isExcusedImplementation g' policy d := by
    unfold isExcusedImplementation
    simp only [h.isUsed_eq, h.contains_covered_eq]
  have hparent : g.lookup d.parent = g'.lookup d.parent := by
    cases hid : d.parent with
    | none => rfl
    | some id => exact h.definitions id
  have hassociated : isAssociatedType g d = isAssociatedType g' d := by
    unfold isAssociatedType
    rw [hparent]
  rw [graphReason, graphReason, hexcused, hassociated]

theorem survives_eq (h : Agrees g g') (policy : Policy)
    (lookup : Option (UnitId → Span → Bool)) :
    survives g policy lookup = survives g' policy lookup := by
  funext d
  rw [survives, survives, h.graphReason_eq]

/-- The same definitions are candidates. -/
theorem candidates_perm (h : Agrees g g') (hg : g.Keyed) (hg' : g'.Keyed) :
    (candidates g).Perm (candidates g') := by
  have hentries := Ledger.entries_perm hg.definitions hg'.definitions h.definitions
  have hunused : (fun e : SymbolId × Definition => !g.isUsed e.1) =
      fun e => !g'.isUsed e.1 := by
    funext e
    rw [h.isUsed_eq]
  rw [candidates, candidates, hunused]
  exact (hentries.filter _).map _

theorem counts_eq (h : Agrees g g') (hg : g.Keyed) (hg' : g'.Keyed) :
    counts g = counts g' := by
  have hdefinitions : g.definitions.size = g'.definitions.size :=
    (Ledger.entries_perm hg.definitions hg'.definitions h.definitions).length_eq
  have hreferences : g.references.size = g'.references.size :=
    Ledger.size_eq hg.references hg'.references h.used
  have hcovered : g.covered.length = g'.covered.length :=
    ((List.perm_ext_iff_of_nodup hg.covered hg'.covered).mpr h.covered).length_eq
  rw [counts, counts, hdefinitions, hreferences, hcovered]

/-- With a pure lookup of macro input, the reports are equal. -/
theorem report_eq (h : Agrees g g') (hg : g.Keyed) (hg' : g'.Keyed) (policy : Policy)
    (lookup : Option (UnitId → Span → Bool)) (workers workers' : Option Int) :
    (report g policy (.ofLookup lookup) workers : Id (List Finding)) =
      (report g' policy (.ofLookup lookup) workers' : Id (List Finding)) := by
  rw [report_ofLookup, report_ofLookup, h.survives_eq]
  exact Finding.inOrder_congr (((h.candidates_perm hg hg').filter _).map _)

/-- Through the cache, the reports come to one outcome. -/
theorem comesTo (h : Agrees g g') (hg : g.Keyed) (hg' : g'.Keyed) (policy : Policy)
    (workers workers' : Option Int) (parse : Source.Parser) (c : RegionCache)
    (w : World) :
    ∃ one : Detector.Outcome,
      ComesTo (report g policy (RegionCache.source parse) workers) c w one ∧
        ComesTo (report g' policy (RegionCache.source parse) workers') c w one := by
  have hcandidates := h.candidates_perm hg hg'
  have hfound : Finding.inOrder (found g policy (inside parse w.files c) (candidates g)) =
      Finding.inOrder (found g' policy (inside parse w.files c) (candidates g')) := by
    refine Finding.inOrder_congr ?_
    rw [found, found, h.survives_eq]
    exact (hcandidates.filter _).map _
  have hasked : (asked g policy (candidates g)).Perm (asked g' policy (candidates g')) := by
    rw [asked, asked]
    simp only [h.graphReason_eq]
    exact (hcandidates.filter _).map _
  have hreport := asks_report parse g policy workers c w
  rw [hfound] at hreport
  exact ⟨_, comesTo_outcome (hreport.congr fun k => hasked.mem_iff),
    comesTo_outcome (asks_report parse g' policy workers' c w)⟩

end Agrees

end DeadSymbols.SymbolGraph
