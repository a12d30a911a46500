import Mathlib
import DeadSymbols.Proofs.DetectorReport
import DeadSymbols.Proofs.IndexReport

/-!
# An index and a graph of the same symbols

An index and a graph are reported on by different rules.  The graph has more of them:
local bindings, tuple variants, implementations, associated types and macro input are
left out of its report.  None of these applies to the symbols of an index.  Its kinds
are names of numbers, and neither "Local" nor "TupleVariant" is one of them; it knows
of no parents and no implemented members.  So a graph that holds the symbols of an
index under identities of its own is reported on in the same lines.

The reports themselves differ, since a finding carries its identity and the order of a
report ends with it.  Lines do not show it, and findings that differ in it only have
the same line.

## Main results

* `kindName_ne` — no number is named like a kind that is left out.
* `survives_portrayed` — the rules of a graph, for a symbol of an index.
* `index_and_graph_agree` — the lines of the two reports.
-/

namespace DeadSymbols

/-- No number has the name of a kind that the report on a graph leaves out. -/
theorem Index.kindName_ne (number : Int) :
    kindName number ≠ "Local" ∧ kindName number ≠ "TupleVariant" := by
  have hnames : ∀ e ∈ kindNames, e.2 ≠ "Local" ∧ e.2 ≠ "TupleVariant" := by decide
  unfold kindName
  by_cases hzero : number = 0
  · rw [if_pos hzero]
    decide
  · rw [if_neg hzero]
    cases hname : kindNames.lookup number with
    | some name =>
        obtain ⟨before, after, heq, -⟩ := List.lookup_eq_some_iff.mp hname
        refine hnames (number, name) ?_
        rw [heq]
        exact List.mem_append_right before List.mem_cons_self
    | none =>
        -- A number without a name is shown as such, with another first letter.
        have hfirst : ("Kind(" ++ toString number ++ ")").toList.head? = some 'K' := by
          simp
        have hother : ∀ kind : String, kind.toList.head? ≠ some 'K' →
            "Kind(" ++ toString number ++ ")" ≠ kind := by
          intro kind hkind h
          rw [h] at hfirst
          exact hkind hfirst
        rw [Option.getD_none]
        exact ⟨hother "Local" (by decide), hother "TupleVariant" (by decide)⟩

namespace IndexAnalysis

open SymbolName (Key)
open Detector (candidates survives)

/-- A symbol of an index as a definition under an identity of its own, without parent
and without implemented member. -/
def portrayed (f : Key → SymbolId) (e : Key × IndexedDefinition) : Definition :=
  ⟨e.2.kind, e.2.name, f e.1, e.2.span, none, none⟩

/-- The graph holds the definitions of an analysis, each under the identity of its key,
and references to the identities of the keys that are used.  It may cover any units. -/
structure Portrays (f : Key → SymbolId) (a : IndexAnalysis) (g : SymbolGraph) : Prop where
  definitions : g.definitions.entries.Perm
    (a.definitions.entries.map fun e => (f e.1, portrayed f e))
  used : ∀ id, id ∈ g.used ↔ ∃ k ∈ a.used, f k = id

/-- The keys that an analysis mentions. -/
def keys (a : IndexAnalysis) : List Key :=
  a.definitions.keys ++ a.used

/-- The graph that is written from an analysis, definition by definition and key by
key. -/
def toGraph (f : Key → SymbolId) (a : IndexAnalysis) (covered : List UnitId) : SymbolGraph :=
  let definitions := (a.definitions.entries.map (portrayed f)).foldl
    SymbolGraph.addDefinition ⟨.empty, .empty, covered⟩
  (a.used.map fun k => (⟨"", f k, ⟨"", 0, 0, 0, 0⟩⟩ : Reference)).foldl
    SymbolGraph.addReference definitions

section Portrait

variable {f : Key → SymbolId} {a : IndexAnalysis} {g : SymbolGraph}

private theorem definitions_foldl_addReference (rs : List Reference) (g : SymbolGraph) :
    (rs.foldl SymbolGraph.addReference g).definitions = g.definitions := by
  induction rs generalizing g with
  | nil => rfl
  | cons r rs ih => rw [List.foldl_cons, ih, SymbolGraph.addReference]

private theorem definitions_foldl_addDefinition (ds : List Definition) (g : SymbolGraph) :
    (ds.foldl SymbolGraph.addDefinition g).definitions =
      g.definitions.putAll (ds.map fun d => (d.id, d)) := by
  induction ds generalizing g with
  | nil => rfl
  | cons d ds ih =>
      rw [List.foldl_cons, ih, List.map_cons, Ledger.putAll_cons, SymbolGraph.addDefinition]

private theorem used_foldl_addDefinition (ds : List Definition) (g : SymbolGraph) :
    (ds.foldl SymbolGraph.addDefinition g).used = g.used := by
  induction ds generalizing g with
  | nil => rfl
  | cons d ds ih =>
      rw [List.foldl_cons, ih]
      rfl

private theorem mem_used_foldl_addReference (rs : List Reference) (g : SymbolGraph)
    (id : SymbolId) :
    id ∈ (rs.foldl SymbolGraph.addReference g).used ↔
      (∃ r ∈ rs, r.target = id) ∨ id ∈ g.used := by
  induction rs generalizing g with
  | nil => simp
  | cons r rs ih =>
      rw [List.foldl_cons, ih, List.exists_mem_cons_iff, SymbolGraph.addReference,
        SymbolGraph.used, Ledger.mem_keys_put]
      constructor
      · rintro (h | h | h)
        · exact Or.inl (Or.inr h)
        · exact Or.inl (Or.inl h.symm)
        · exact Or.inr h
      · rintro ((h | h) | h)
        · exact Or.inr (Or.inl h.symm)
        · exact Or.inl h
        · exact Or.inr (Or.inr h)

/-- The graph that is written from an analysis portrays it. -/
theorem portrays_toGraph (hkeyed : a.definitions.Keyed)
    (hf : Set.InjOn f {k | k ∈ a.keys}) (covered : List UnitId) :
    Portrays f a (a.toGraph f covered) := by
  refine ⟨?_, ?_⟩
  · have hids : ((a.definitions.entries.map (portrayed f)).map fun d => (d.id, d)).map
        Prod.fst = a.definitions.keys.map f := by
      simp only [List.map_map, Ledger.keys]
      rfl
    have hnodup : (a.definitions.keys.map f).Nodup := by
      refine hkeyed.map_on ?_
      intro k hk k' hk' heq
      exact hf (List.mem_append_left _ hk) (List.mem_append_left _ hk') heq
    rw [toGraph, definitions_foldl_addReference, definitions_foldl_addDefinition,
      Ledger.entries_putAll_of_nodup (by rw [hids]; exact hnodup), List.map_map]
    exact .refl _
  · intro id
    rw [toGraph, mem_used_foldl_addReference, used_foldl_addDefinition]
    simp [SymbolGraph.used, Ledger.keys, Ledger.empty]

/-- A definition of the analysis is used in the graph exactly if its key is used. -/
theorem Portrays.isUsed_eq (h : Portrays f a g) (hf : Set.InjOn f {k | k ∈ a.keys})
    {k : Key} (hk : k ∈ a.definitions.keys) : g.isUsed (f k) = a.used.contains k := by
  rw [Bool.eq_iff_iff, SymbolGraph.isUsed, Ledger.has_eq_true_iff, List.contains_iff_mem]
  refine (h.used (f k)).trans ?_
  constructor
  · rintro ⟨k', hk', heq⟩
    rw [← hf (List.mem_append_right _ hk') (List.mem_append_left _ hk) heq]
    exact hk'
  · intro hused
    exact ⟨k, hused, rfl⟩

/-- Of the rules of a graph only the one about names applies to a symbol of an index. -/
theorem survives_portrayed {e : Key × IndexedDefinition}
    (hkind : ∃ number, e.2.kind = Index.kindName number) (policy : Policy) :
    survives g policy none (portrayed f e) = !"_".toList.isPrefixOf e.2.name.toList := by
  obtain ⟨number, hnumber⟩ := hkind
  obtain ⟨hlocal, htuple⟩ := Index.kindName_ne number
  rw [← hnumber] at hlocal htuple
  rw [Bool.eq_iff_iff, survives, Bool.and_eq_true, Option.isNone_iff_eq_none,
    Detector.graphReason_eq_none_iff, Bool.not_eq_true', Bool.not_eq_true',
    ← Bool.not_eq_true ("_".toList.isPrefixOf _), Finding.underscore_isPrefixOf_iff]
  constructor
  · rintro ⟨hrules, -⟩
    exact hrules.named
  · intro hnamed
    refine ⟨⟨hnamed, hlocal, htuple, ?_, ?_⟩, rfl⟩
    · intro member hmember
      cases hmember
    · intro _ id parent hparent
      cases hparent

/-- Without their identities, the findings on the graph are those of the index. -/
theorem Portrays.found_perm (h : Portrays f a g) (hf : Set.InjOn f {k | k ∈ a.keys})
    (hkinds : ∀ e ∈ a.definitions.entries, ∃ number, e.2.kind = Index.kindName number)
    (policy : Policy) :
    ((((candidates g).filter (survives g policy none)).map Detector.finding).map
        Finding.anonymous).Perm
      (((a.definitions.entries.filter fun e => a.isReported e.1 e.2).map
        fun e => finding e.2).map Finding.anonymous) := by
  have hcandidates : (candidates g).Perm
      ((a.definitions.entries.filter fun e => !g.isUsed (f e.1)).map (portrayed f)) := by
    have hperm := (h.definitions.filter fun e => !g.isUsed e.1).map Prod.snd
    rw [List.filter_map, List.map_map] at hperm
    exact hperm
  have hsurviving := hcandidates.filter (survives g policy none)
  rw [List.filter_map, List.filter_filter] at hsurviving
  have hreported : (a.definitions.entries.filter fun e =>
        (survives g policy none ∘ portrayed f) e && !g.isUsed (f e.1)) =
      a.definitions.entries.filter fun e => a.isReported e.1 e.2 := by
    refine List.filter_congr ?_
    intro e he
    have hkey : e.1 ∈ a.definitions.keys := List.mem_map_of_mem he
    rw [Function.comp_apply, survives_portrayed (hkinds e he), h.isUsed_eq hf hkey, isReported,
      Bool.and_comm]
  rw [hreported] at hsurviving
  -- A symbol is found under its text in the index and under its identity in the graph.
  have hsame : ∀ e : Key × IndexedDefinition,
      (Detector.finding (portrayed f e)).anonymous = (finding e.2).anonymous :=
    fun _ => rfl
  have hfound := (hsurviving.map Detector.finding).map Finding.anonymous
  simp only [List.map_map, Function.comp_def, hsame] at hfound ⊢
  exact hfound

end Portrait

/-- The two reports agree.  If an index can be analysed, and a graph holds its
definitions and its uses under identities that tell its keys apart, then the report on
the graph without macro input has the lines of the report on the index, in the same
order, under both policies and for every number of workers. -/
theorem index_and_graph_agree {i : Index} {a : IndexAnalysis} (h : ofIndex i = .ok a)
    {f : Key → SymbolId} (hf : Set.InjOn f {k | k ∈ a.keys}) {g : SymbolGraph}
    (hg : Portrays f a g) (policy : Policy) (workers : Option Int) :
    (Detector.report g policy .silent workers : Id (List Finding)).map Finding.display =
      a.report.map Finding.display := by
  have hreport := Detector.report_ofLookup g policy none workers
  have hkinds : ∀ e ∈ a.definitions.entries, ∃ number, e.2.kind = Index.kindName number :=
    fun _ he => exists_kind_eq_kindName h he
  calc
    (Detector.report g policy .silent workers : Id (List Finding)).map Finding.display =
        (Finding.inOrder (((candidates g).filter (survives g policy none)).map
          Detector.finding)).map Finding.display := congrArg (List.map Finding.display) hreport
    _ = a.report.map Finding.display :=
        Finding.map_display_inOrder_congr (hg.found_perm hf hkinds policy)

/-- Two documents with a local symbol of the same text, two functions of one name at one
place, a name that starts with an underscore, a kind without a name, and a use. -/
def sampleIndex : Index where
  documents :=
    [{ relativePath := "a.rs"
       occurrences :=
         [{ range := [4, 0, 6], symbol := "x 1 p 1 zeta().", roles := 1 },
          { range := [4, 0, 6], symbol := "x 1 q 1 zeta().", roles := 1 },
          { range := [1, 0, 6], symbol := "local 0", roles := 1 },
          { range := [2, 0, 6], symbol := "x 1 p 1 _skip().", roles := 1 }],
       symbols := [{ symbol := "local 0", kind := 61, displayName := "here" }] },
     { relativePath := "b.rs"
       occurrences :=
         [{ range := [0, 0, 6], symbol := "local 0", roles := 1 },
          { range := [3, 0, 3, 6], symbol := "local 0" }] }]

/-- Identities by the place of a key in a list. -/
def placeIn (ks : List Key) (k : Key) : SymbolId := ⟨⟨7, 7⟩, ks.idxOf k⟩

theorem placeIn_injOn (ks : List Key) : Set.InjOn (placeIn ks) {k | k ∈ ks} := by
  intro k hk k' hk' heq
  have hslot : ks.idxOf k = ks.idxOf k' := Int.ofNat.inj (congrArg SymbolId.slot heq)
  exact (List.idxOf_inj hk).mp hslot

/-- Three symbols of the sample are reported, two of them in the same line. -/
theorem index_and_graph_agree_sampleIndex :
    ∃ a, ofIndex sampleIndex = .ok a ∧ a.report.length = 3 ∧
      (Detector.report (a.toGraph (placeIn a.keys) [⟨7, 7⟩]) .always .silent (some 2) :
          Id (List Finding)).map Finding.display = a.report.map Finding.display := by
  obtain ⟨a, ha, hlength⟩ : ∃ a, ofIndex sampleIndex = .ok a ∧ a.report.length = 3 := by
    refine ⟨_, rfl, ?_⟩
    rw [report, (Finding.inOrder_perm _).length_eq]
    decide +kernel
  exact ⟨a, ha, hlength, index_and_graph_agree ha (placeIn_injOn a.keys)
    (portrays_toGraph (keyed_ofIndex ha) (placeIn_injOn a.keys) _) .always (some 2)⟩

end IndexAnalysis

end DeadSymbols
