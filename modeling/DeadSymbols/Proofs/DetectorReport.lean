import Mathlib
import DeadSymbols.Proofs.Assembly
import DeadSymbols.Proofs.Batches
import DeadSymbols.Proofs.ReportOrder

/-!
# The report on an assembled build, exactly

A report is made by a run: units are assembled into a graph, the definitions that
no reference targets become candidates, and the candidates pass through a chain
of rules.  `Reported` says which definitions come out at the other end in terms
of the units' records only.

The chain is opened once, in `graphReason_eq_none_iff`.  What remains is to read
the graph off the records, which `Assembly` provides.
-/

namespace DeadSymbols.Detector

open SymbolGraph (LastDefinition Targeted IsUnitOf)

/-! ## The chain of rules -/

/-- No rule that needs no source applies to a definition. -/
structure Unexcused (g : SymbolGraph) (policy : Policy) (d : Definition) : Prop where
  named : d.name.toList.head? ≠ some '_'
  notLocal : d.kind ≠ "Local"
  notTupleVariant : d.kind ≠ "TupleVariant"
  notImplementation : ∀ member, d.declaration = some member →
    policy = .resolve ∧ g.isUsed member = false ∧
      g.covered.contains member.unit = true
  notAssociatedType : d.kind = "Type" →
    ∀ id parent, d.parent = some id → g.definitions.get? id = some parent →
      parent.kind ≠ "Trait"

private theorem isExcusedImplementation_eq_false_iff (g : SymbolGraph)
    (policy : Policy) (d : Definition) :
    isExcusedImplementation g policy d = false ↔
      ∀ member, d.declaration = some member →
        policy = .resolve ∧ g.isUsed member = false ∧
          g.covered.contains member.unit = true := by
  unfold isExcusedImplementation
  cases d.declaration with
  | none => simp
  | some member =>
      cases policy with
      | always => simp
      | resolve => simp

private theorem isAssociatedType_eq_false_iff (g : SymbolGraph)
    (d : Definition) :
    isAssociatedType g d = false ↔
      (d.kind = "Type" → ∀ id parent, d.parent = some id →
        g.definitions.get? id = some parent → parent.kind ≠ "Trait") := by
  unfold isAssociatedType SymbolGraph.lookup
  cases d.parent with
  | none => simp
  | some id =>
      rw [Option.bind_some]
      cases hget : g.definitions.get? id with
      | none =>
          refine iff_of_true rfl ?_
          intro _ id' parent hid hparent
          obtain rfl := Option.some.inj hid
          rw [hget] at hparent
          cases hparent
      | some parent =>
          simp only [Bool.and_eq_false_iff, beq_eq_false_iff_ne, Option.some.injEq]
          constructor
          · rintro (htrait | htype) hkind id' parent' rfl hparent
            · rw [hget] at hparent
              exact Option.some.inj hparent ▸ htrait
            · exact absurd hkind htype
          · intro h
            by_cases hkind : d.kind = "Type"
            · exact Or.inl (h hkind id parent rfl hget)
            · exact Or.inr hkind

private theorem ite_some_eq_none_iff {p : Prop} [Decidable p] {r : Reason}
    {rest : Option Reason} : (if p then some r else rest) = none ↔ ¬p ∧ rest = none := by
  by_cases h : p
  · simp [h]
  · simp [h]

/-- A definition passes the chain exactly if none of its rules applies. -/
theorem graphReason_eq_none_iff (g : SymbolGraph) (policy : Policy)
    (d : Definition) :
    graphReason g policy d = none ↔ Unexcused g policy d := by
  rw [graphReason]
  simp only [ite_some_eq_none_iff, Finding.underscore_isPrefixOf_iff, Bool.not_eq_true,
    isExcusedImplementation_eq_false_iff, isAssociatedType_eq_false_iff, and_true]
  constructor
  · rintro ⟨hname, _, hlocal, htuple, himpl, htype⟩
    exact ⟨hname, hlocal, htuple, himpl, htype⟩
  · rintro ⟨hname, hlocal, htuple, himpl, htype⟩
    exact ⟨hname, fun h => hlocal h.1, hlocal, htuple, himpl, htype⟩

/-! ## Evaluation with a pure lookup -/

/-- The source of a pure lookup of macro input, or of none. -/
def Source.ofLookup : Option (UnitId → Span → Bool) → Source Id
  | none => .silent
  | some answer => .ofFunction answer

/-- Whether a lookup places a definition in macro input. -/
def isMuted (lookup : Option (UnitId → Span → Bool)) (d : Definition) : Bool :=
  lookup.any fun answer => answer d.id.unit d.span

/-- Whether a candidate is reported. -/
def survives (g : SymbolGraph) (policy : Policy)
    (lookup : Option (UnitId → Span → Bool)) (d : Definition) : Bool :=
  (graphReason g policy d).isNone && !isMuted lookup d

private theorem reason_ofLookup (g : SymbolGraph) (policy : Policy)
    (lookup : Option (UnitId → Span → Bool)) (d : Definition) :
    (reason g policy (Source.ofLookup lookup) d : Id (Option Reason)).isNone =
      survives g policy lookup d := by
  unfold reason survives
  cases graphReason g policy d with
  | some r => rfl
  | none =>
      cases lookup with
      | none => rfl
      | some answer =>
          show (if answer d.id.unit d.span then some Reason.macroInput
            else none).isNone = (true && !(answer d.id.unit d.span))
          cases answer d.id.unit d.span <;> rfl

/-- With a pure lookup, evaluation keeps the candidates that survive. -/
theorem evaluate_ofLookup (g : SymbolGraph) (policy : Policy)
    (lookup : Option (UnitId → Span → Bool)) (ds : List Definition) :
    (evaluate g policy (Source.ofLookup lookup) ds : Id (List Finding)) =
      (ds.filter (survives g policy lookup)).map finding := by
  induction ds with
  | nil => rfl
  | cons d ds ih =>
      have hreason := reason_ofLookup g policy lookup d
      show (match (reason g policy (Source.ofLookup lookup) d : Id _) with
        | some r => (evaluate g policy (Source.ofLookup lookup) ds : Id _)
        | none => finding d :: (evaluate g policy (Source.ofLookup lookup) ds : Id _)) = _
      rw [ih, List.filter_cons, ← hreason]
      cases (reason g policy (Source.ofLookup lookup) d : Id _) with
      | some r => rfl
      | none => rfl

/-- With a pure lookup, a report lists the candidates that survive. -/
theorem report_ofLookup (g : SymbolGraph) (policy : Policy)
    (lookup : Option (UnitId → Span → Bool)) (workers : Option Int) :
    (report g policy (Source.ofLookup lookup) workers : Id (List Finding)) =
      Finding.inOrder
        (((candidates g).filter (survives g policy lookup)).map finding) := by
  rw [report_eq]
  show Finding.inOrder
    (evaluate g policy (Source.ofLookup lookup) (candidates g) : Id _) = _
  rw [evaluate_ofLookup]

/-! ## What is reported -/

/-- The definitions that a report on units lists.  Nothing here mentions a graph:
the definition is what the last record for its identity stands for, no reference
record resolves to it, and none of the rules of suppression applies, as far as
the records show. -/
structure Reported (us : List Dump) (lookup : Option (UnitId → Span → Bool))
    (policy : Policy) (d : Definition) : Prop where
  last : LastDefinition us d
  untargeted : ¬ Targeted us d.id
  named : d.name.toList.head? ≠ some '_'
  notLocal : d.kind ≠ "Local"
  notTupleVariant : d.kind ≠ "TupleVariant"
  /-- An implementation counts only if the policy asks for it and its member is a
  member of one of the units to which nothing refers. -/
  notImplementation : ∀ member, d.declaration = some member →
    policy = .resolve ∧ ¬ Targeted us member ∧ IsUnitOf us member.unit
  notAssociatedType : d.kind = "Type" → ∀ parent, LastDefinition us parent →
    d.parent = some parent.id → parent.kind ≠ "Trait"
  notMuted : ∀ answer, lookup = some answer → answer d.id.unit d.span = false

private theorem mem_candidates_iff {us : List Dump} {g : SymbolGraph}
    (h : SymbolGraph.assemble us = .ok g) (d : Definition) :
    d ∈ candidates g ↔ LastDefinition us d ∧ ¬ Targeted us d.id := by
  have hkeyed := SymbolGraph.keyed_definitions h
  simp only [candidates, List.mem_map, List.mem_filter, Bool.not_eq_true',
    ← Bool.not_eq_true, SymbolGraph.isUsed_iff h, Prod.exists]
  constructor
  · rintro ⟨id, d', ⟨hmem, hunused⟩, rfl⟩
    rw [Ledger.mem_entries_iff_get? hkeyed,
      SymbolGraph.get?_definitions_iff h] at hmem
    obtain ⟨rfl, hlast⟩ := hmem
    exact ⟨hlast, hunused⟩
  · rintro ⟨hlast, hunused⟩
    refine ⟨d.id, d, ⟨?_, hunused⟩, rfl⟩
    rw [Ledger.mem_entries_iff_get? hkeyed, SymbolGraph.get?_definitions_iff h]
    exact ⟨rfl, hlast⟩

/-- Where definitions stand under their identities, no two candidates have one
identity: their identities are some of the keys, in the order of the keys. -/
theorem nodup_ids_of_keys {g : SymbolGraph} (hkeyed : g.definitions.Keyed)
    (hkeys : ∀ id d, (id, d) ∈ g.definitions.entries → id = d.id) :
    ((candidates g).map Definition.id).Nodup := by
  have hids : (candidates g).map Definition.id =
      (g.definitions.entries.filter fun e => !g.isUsed e.1).map Prod.fst := by
    rw [candidates, List.map_map]
    refine List.map_congr_left ?_
    rintro ⟨id, d⟩ hmem
    exact (hkeys id d (List.mem_filter.mp hmem).1).symm
  rw [hids]
  exact List.Nodup.sublist (List.filter_sublist.map Prod.fst) hkeyed

private theorem nodup_candidate_ids {us : List Dump} {g : SymbolGraph}
    (h : SymbolGraph.assemble us = .ok g) :
    ((candidates g).map Definition.id).Nodup := by
  have hkeyed := SymbolGraph.keyed_definitions h
  refine nodup_ids_of_keys hkeyed ?_
  intro id d hmem
  rw [Ledger.mem_entries_iff_get? hkeyed, SymbolGraph.get?_definitions_iff h] at hmem
  exact hmem.1.symm

private theorem survives_iff {us : List Dump} {g : SymbolGraph}
    (h : SymbolGraph.assemble us = .ok g) (policy : Policy)
    (lookup : Option (UnitId → Span → Bool)) (d : Definition)
    (hlast : LastDefinition us d) (hunused : ¬ Targeted us d.id) :
    survives g policy lookup d = true ↔ Reported us lookup policy d := by
  have hmuted : isMuted lookup d = false ↔
      ∀ answer, lookup = some answer → answer d.id.unit d.span = false := by
    cases lookup with
    | none => simp [isMuted]
    | some answer => simp [isMuted]
  rw [survives, Bool.and_eq_true, Option.isNone_iff_eq_none,
    graphReason_eq_none_iff, Bool.not_eq_true', hmuted]
  constructor
  · rintro ⟨hrules, hnotMuted⟩
    refine
      { last := hlast
        untargeted := hunused
        named := hrules.named
        notLocal := hrules.notLocal
        notTupleVariant := hrules.notTupleVariant
        notImplementation := ?_
        notAssociatedType := ?_
        notMuted := hnotMuted }
    · intro member hmember
      obtain ⟨hpolicy, hused, hcovered⟩ := hrules.notImplementation member hmember
      rw [← Bool.not_eq_true, SymbolGraph.isUsed_iff h] at hused
      rw [SymbolGraph.contains_covered_iff h] at hcovered
      exact ⟨hpolicy, hused, hcovered⟩
    · intro hkind parent hparent hid
      refine hrules.notAssociatedType hkind parent.id parent hid ?_
      exact (SymbolGraph.get?_definitions_iff h parent.id parent).mpr ⟨rfl, hparent⟩
  · intro hreported
    refine ⟨?_, hreported.notMuted⟩
    refine
      { named := hreported.named
        notLocal := hreported.notLocal
        notTupleVariant := hreported.notTupleVariant
        notImplementation := ?_
        notAssociatedType := ?_ }
    · intro member hmember
      obtain ⟨hpolicy, hused, hcovered⟩ := hreported.notImplementation member hmember
      rw [← SymbolGraph.isUsed_iff h, Bool.not_eq_true] at hused
      rw [← SymbolGraph.contains_covered_iff h] at hcovered
      exact ⟨hpolicy, hused, hcovered⟩
    · intro hkind id parent hid hget
      obtain ⟨rfl, hparent⟩ := (SymbolGraph.get?_definitions_iff h id parent).mp hget
      exact hreported.notAssociatedType hkind parent hparent hid

/-- A list of findings is the report on units: it is sorted by place, kind, name
and symbol, and has one finding for each identity whose last definition is
reported and no other.  `ds` lists these definitions, no two of them with one
identity. -/
structure IsReportOn (us : List Dump) (lookup : Option (UnitId → Span → Bool))
    (policy : Policy) (found : List Finding) : Prop where
  sorted : found.Pairwise fun a b => a.sortKey ≤ b.sortKey
  findings : ∃ ds : List Definition,
    (ds.map Definition.id).Nodup ∧
      (∀ d, d ∈ ds ↔ Reported us lookup policy d) ∧
      found.Perm (ds.map fun d => ⟨d.span, d.kind, d.name, d.id.display⟩)

/-- If units can be assembled, the report on their graph is the report on the
units, for every lookup, policy and number of workers. -/
theorem assembled_report_exact {us : List Dump} {g : SymbolGraph}
    (h : SymbolGraph.assemble us = .ok g)
    (lookup : Option (UnitId → Span → Bool)) (policy : Policy)
    (workers : Option Int) :
    IsReportOn us lookup policy
      (report g policy (Source.ofLookup lookup) workers : Id (List Finding)) := by
  have hreport := report_ofLookup g policy lookup workers
  rw [hreport]
  refine ⟨Finding.inOrder_sorted _,
    (candidates g).filter (survives g policy lookup), ?_, ?_, ?_⟩
  · exact List.Nodup.sublist (List.filter_sublist.map Definition.id)
      (nodup_candidate_ids h)
  · intro d
    rw [List.mem_filter, mem_candidates_iff h]
    constructor
    · rintro ⟨⟨hlast, hunused⟩, hsurvives⟩
      exact (survives_iff h policy lookup d hlast hunused).mp hsurvives
    · intro hreported
      refine ⟨⟨hreported.last, hreported.untargeted⟩, ?_⟩
      exact (survives_iff h policy lookup d hreported.last
        hreported.untargeted).mpr hreported
  · exact Finding.inOrder_perm _

/-- A library with a trait and two records for one function, and a program that
implements the trait and calls its own entry function only. -/
def sampleUnits : List Dump :=
  let library : UnitId := ⟨1, 1⟩
  let row : Dependency := ⟨1, "shape", library⟩
  let place (line : Int) : Span := ⟨"src/lib.rs", line, 1, line, 9⟩
  [⟨"shape.json", ⟨⟨"shape", library, []⟩, "/work/shape"⟩,
      [⟨"Trait", "Shape", ⟨0, 1⟩, place 1, none, none⟩,
       ⟨"Method", "area", ⟨0, 2⟩, place 2, some ⟨0, 1⟩, none⟩,
       ⟨"Type", "Unit", ⟨0, 3⟩, place 3, some ⟨0, 1⟩, none⟩,
       ⟨"Function", "scale", ⟨0, 4⟩, place 4, none, none⟩,
       ⟨"Function", "scale", ⟨0, 4⟩, place 5, none, none⟩],
      []⟩,
   ⟨"draw.json", ⟨⟨"draw", ⟨2, 2⟩, [row]⟩, "/work/draw"⟩,
      [⟨"Function", "main", ⟨0, 1⟩, place 6, none, none⟩,
       ⟨"Method", "area", ⟨0, 2⟩, place 7, none, some ⟨1, 2⟩⟩],
      [⟨"Function", ⟨0, 1⟩, place 8⟩]⟩]

theorem assembled_report_exact_sampleUnits :
    ∃ g, SymbolGraph.assemble sampleUnits = .ok g ∧
      IsReportOn sampleUnits (some fun _ span => span.lineStart == 7) .resolve
        (report g .resolve
          (Source.ofLookup (some fun _ span => span.lineStart == 7)) (some 3) :
          Id (List Finding)) :=
  ⟨_, rfl, assembled_report_exact rfl _ _ _⟩

end DeadSymbols.Detector
