import Mathlib
import DeadSymbols.Proofs.Interruption

/-!
# What a graph stands for

A graph keeps definitions under identities and references under targets.  The detector
asks for them by key and reports what it finds by the identity in the record, so the two
must never part.  They do not, whatever is done to a graph: it stands for the list of
definitions and the list of references that were written to it since it was empty
(`SymbolGraph.Represents`).  Each record stands under its own key, the last definition
of an identity is the one that is found, and nothing is counted twice.

What an operation writes is said without the graph (`SymbolGraph.Operation.Writes`).
A definition or a reference is written as it is.  A unit writes what its records stand
for, all of them or those before the first that stands for nothing, and no references
if that is a definition.

## Main results

* `Operation.Writes.apply` — one operation adds its writes to those of the graph.
* `Wrote.after` — many operations do.
* `represents_of_writes` — what the writes to an empty graph leave in it.
* `selfKeyed_after` — the definitions of every graph stand under their own identities.
* `representation_invariant` — every graph stands for what was written to it.
-/

namespace DeadSymbols

/-- A reference record is resolved exactly to the reference it stands for. -/
theorem DependencyTable.resolvesReference_iff (t : DependencyTable) (r : LocalReference)
    (d : Reference) : t.reference r = .ok d ↔ t.ResolvesReference r d := by
  refine ⟨t.resolvesReference_of_eq_ok, ?_⟩
  intro h
  exact (t.reference_eq_ok_iff r d).mpr ⟨h.kind, h.target, h.span⟩

namespace SymbolGraph

/-! ## What an operation writes -/

/-- One thing that is done to a graph. -/
inductive Operation
  | addUnit (u : Dump)
  | addDefinition (d : Definition)
  | addReference (r : Reference)
  | cover (unit : UnitId)

namespace Operation

/-- The graph after an operation.  A unit that is stopped leaves behind what it wrote. -/
def apply (g : SymbolGraph) : Operation → SymbolGraph
  | addUnit u => (g.addUnit u).graph
  | addDefinition d => g.addDefinition d
  | addReference r => g.addReference r
  | cover unit => g.cover unit

/-- The definitions and the references that an operation writes, in its order. -/
inductive Writes : Operation → List Definition → List Reference → Prop
  | definition (d : Definition) : Writes (addDefinition d) [d] []
  | reference (r : Reference) : Writes (addReference r) [] [r]
  | cover (unit : UnitId) : Writes (cover unit) [] []
  /-- Every record of the unit stands for something. -/
  | complete {u : Dump} {ds : List Definition} {rs : List Reference}
      (hdefinitions : List.Forall₂ u.metadata.table.ResolvesDefinition u.definitions ds)
      (hreferences : List.Forall₂ u.metadata.table.ResolvesReference u.references rs) :
      Writes (addUnit u) ds rs
  /-- A definition of the unit stands for nothing. -/
  | stoppedByDefinition {u : Dump} {before after : List LocalDefinition}
      {record : LocalDefinition} {ds : List Definition}
      (hsplit : u.definitions = before ++ record :: after)
      (hbefore : List.Forall₂ u.metadata.table.ResolvesDefinition before ds)
      (hstop : ∀ d, ¬ u.metadata.table.ResolvesDefinition record d) :
      Writes (addUnit u) ds []
  /-- Every definition of the unit stands for something, and a reference does not. -/
  | stoppedByReference {u : Dump} {before after : List LocalReference}
      {record : LocalReference} {ds : List Definition} {rs : List Reference}
      (hdefinitions : List.Forall₂ u.metadata.table.ResolvesDefinition u.definitions ds)
      (hsplit : u.references = before ++ record :: after)
      (hbefore : List.Forall₂ u.metadata.table.ResolvesReference before rs)
      (hstop : ∀ r, ¬ u.metadata.table.ResolvesReference record r) :
      Writes (addUnit u) ds rs

end Operation

/-! ## Records that stand for something -/

section Records

variable {ρ δ : Type} {resolve : ρ → Except SchemaFault δ} {Stands : ρ → δ → Prop}

private theorem resolved_append (hstands : ∀ r d, resolve r = .ok d ↔ Stands r d)
    {before : List ρ} {ds : List δ} (h : List.Forall₂ Stands before ds) (rest : List ρ) :
    resolvedBefore resolve (before ++ rest) = ds ++ resolvedBefore resolve rest ∧
      firstFault? resolve (before ++ rest) = firstFault? resolve rest := by
  induction h with
  | nil => exact ⟨rfl, rfl⟩
  | @cons r d before ds hr _ ih =>
      rw [List.cons_append, resolvedBefore, firstFault?, (hstands r d).mpr hr]
      exact ⟨congrArg (d :: ·) ih.1, ih.2⟩

/-- Records that all stand for something are written as that. -/
theorem resolved_of_stands (hstands : ∀ r d, resolve r = .ok d ↔ Stands r d)
    {records : List ρ} {ds : List δ} (h : List.Forall₂ Stands records ds) :
    resolvedBefore resolve records = ds ∧ firstFault? resolve records = none := by
  have happend := resolved_append hstands h []
  rw [List.append_nil] at happend
  exact ⟨happend.1.trans (List.append_nil ds), happend.2⟩

/-- Records before one that stands for nothing are written, and it stops the run. -/
theorem resolved_of_stop (hstands : ∀ r d, resolve r = .ok d ↔ Stands r d)
    {before after : List ρ} {record : ρ} {ds : List δ}
    (h : List.Forall₂ Stands before ds) (hstop : ∀ d, ¬ Stands record d) :
    resolvedBefore resolve (before ++ record :: after) = ds ∧
      ∃ fault, firstFault? resolve (before ++ record :: after) = some fault := by
  obtain ⟨hwritten, hfault⟩ := resolved_append hstands h (record :: after)
  rw [hwritten, hfault, resolvedBefore, firstFault?]
  cases hrecord : resolve record with
  | error fault => exact ⟨List.append_nil ds, fault, rfl⟩
  | ok d => exact absurd ((hstands record d).mp hrecord) (hstop d)

/-- Either all records stand for something, or there is a first that does not. -/
theorem stands_or_stops (hstands : ∀ r d, resolve r = .ok d ↔ Stands r d)
    (records : List ρ) :
    (∃ ds, List.Forall₂ Stands records ds) ∨
      ∃ before record after ds, records = before ++ record :: after ∧
        List.Forall₂ Stands before ds ∧ ∀ d, ¬ Stands record d := by
  cases hfault : firstFault? resolve records with
  | none =>
      have hall := forall₂_resolvedBefore resolve hfault
      exact Or.inl ⟨_, hall.imp fun r d => (hstands r d).mp⟩
  | some fault =>
      obtain ⟨before, record, after, hsplit, hbefore, hrecord⟩ :=
        exists_of_firstFault? resolve hfault
      refine Or.inr ⟨before, record, after, _, hsplit,
        hbefore.imp fun r d => (hstands r d).mp, ?_⟩
      intro d hd
      rw [← hstands, hrecord] at hd
      cases hd

end Records

namespace Operation

/-- Every operation writes something definite, if only nothing. -/
theorem exists_writes (op : Operation) : ∃ ds rs, op.Writes ds rs := by
  cases op with
  | addDefinition d => exact ⟨_, _, .definition d⟩
  | addReference r => exact ⟨_, _, .reference r⟩
  | cover unit => exact ⟨_, _, .cover unit⟩
  | addUnit u =>
      rcases stands_or_stops u.metadata.table.definition_eq_ok_iff u.definitions with
        ⟨ds, hds⟩ | ⟨before, record, after, ds, hsplit, hbefore, hstop⟩
      · rcases stands_or_stops u.metadata.table.resolvesReference_iff u.references with
          ⟨rs, hrs⟩ | ⟨before, record, after, rs, hsplit, hbefore, hstop⟩
        · exact ⟨ds, rs, .complete hds hrs⟩
        · exact ⟨ds, rs, .stoppedByReference hds hsplit hbefore hstop⟩
      · exact ⟨ds, [], .stoppedByDefinition hsplit hbefore hstop⟩

/-- What is written by a unit is what it writes record by record. -/
theorem Writes.written {u : Dump} {ds : List Definition} {rs : List Reference}
    (h : (addUnit u).Writes ds rs) :
    u.writtenDefinitions = ds ∧ u.writtenReferences = rs := by
  have hdefinition := u.metadata.table.definition_eq_ok_iff
  have hreference := u.metadata.table.resolvesReference_iff
  unfold Dump.writtenDefinitions Dump.writtenReferences
  cases h with
  | complete hdefinitions hreferences =>
      obtain ⟨hds, hnone⟩ := resolved_of_stands hdefinition hdefinitions
      rw [hds, hnone]
      exact ⟨rfl, (resolved_of_stands hreference hreferences).1⟩
  | stoppedByDefinition hsplit hbefore hstop =>
      obtain ⟨hds, fault, hfault⟩ := resolved_of_stop hdefinition hbefore hstop
      rw [hsplit, hds, hfault]
      exact ⟨rfl, rfl⟩
  | stoppedByReference hdefinitions hsplit hbefore hstop =>
      obtain ⟨hds, hnone⟩ := resolved_of_stands hdefinition hdefinitions
      rw [hds, hnone, hsplit]
      exact ⟨rfl, (resolved_of_stop hreference hbefore hstop).1⟩

/-- An operation adds its writes to those of the graph, one after the other. -/
theorem Writes.apply {op : Operation} {ds : List Definition} {rs : List Reference}
    (h : op.Writes ds rs) (g : SymbolGraph) :
    (op.apply g).definitions = g.definitions.putAll (definitionWrites ds) ∧
      (op.apply g).references = g.references.putAll (referenceWrites rs) := by
  cases op with
  | addUnit u =>
      obtain ⟨rfl, rfl⟩ := h.written
      rw [Operation.apply, addUnit_eq]
      exact ⟨rfl, rfl⟩
  | addDefinition d =>
      cases h
      exact ⟨rfl, rfl⟩
  | addReference r =>
      cases h
      exact ⟨rfl, rfl⟩
  | cover unit =>
      cases h
      rw [Operation.apply, SymbolGraph.cover]
      split
      · exact ⟨rfl, rfl⟩
      · exact ⟨rfl, rfl⟩

end Operation

/-! ## Runs -/

/-- The graph after operations on an empty one. -/
def after (ops : List Operation) : SymbolGraph := ops.foldl Operation.apply empty

/-- The definitions and the references that operations write, one operation after the
other. -/
inductive Wrote : List Operation → List Definition → List Reference → Prop
  | nil : Wrote [] [] []
  | concat {ops : List Operation} {op : Operation} {ds ds' : List Definition}
      {rs rs' : List Reference} (hops : Wrote ops ds rs) (hop : op.Writes ds' rs') :
      Wrote (ops ++ [op]) (ds ++ ds') (rs ++ rs')

theorem after_concat (ops : List Operation) (op : Operation) :
    after (ops ++ [op]) = op.apply (after ops) := by
  rw [after, List.foldl_append, List.foldl_cons, List.foldl_nil, after]

theorem exists_wrote (ops : List Operation) : ∃ ds rs, Wrote ops ds rs := by
  induction ops using List.reverseRecOn with
  | nil => exact ⟨[], [], .nil⟩
  | append_singleton ops op ih =>
      obtain ⟨ds, rs, hops⟩ := ih
      obtain ⟨ds', rs', hop⟩ := op.exists_writes
      exact ⟨ds ++ ds', rs ++ rs', hops.concat hop⟩

/-- Operations on an empty graph leave what they write, and nothing else. -/
theorem Wrote.after {ops : List Operation} {ds : List Definition} {rs : List Reference}
    (h : Wrote ops ds rs) :
    (after ops).definitions = Ledger.empty.putAll (definitionWrites ds) ∧
      (after ops).references = Ledger.empty.putAll (referenceWrites rs) := by
  induction h with
  | nil => exact ⟨rfl, rfl⟩
  | @concat ops op ds ds' rs rs' _ hop ih =>
      obtain ⟨hdefinitions, hreferences⟩ := hop.apply (SymbolGraph.after ops)
      rw [after_concat, hdefinitions, hreferences, ih.1, ih.2, ← Ledger.putAll_append,
        ← Ledger.putAll_append]
      simp [definitionWrites, referenceWrites]

/-! ## The invariant -/

/-- Every definition stands under its own identity. -/
def SelfKeyed (g : SymbolGraph) : Prop :=
  ∀ id d, (id, d) ∈ g.definitions.entries → id = d.id

/-- The graph stands for definitions and references that were written to it. -/
structure Represents (g : SymbolGraph) (ds : List Definition) (rs : List Reference) :
    Prop where
  definition_key : g.SelfKeyed
  /-- Every reference stands under its target. -/
  reference_key : ∀ id r, (id, r) ∈ g.references.entries → id = r.target
  /-- The definition that is found is the last that was written with the identity. -/
  lookup_iff : ∀ id d, g.lookup id = some d ↔
    id = some d.id ∧ ∃ before after, ds = before ++ d :: after ∧ ∀ d' ∈ after, d'.id ≠ d.id
  /-- The identities that are used are the targets that were written, each once. -/
  mem_used_iff : ∀ id, id ∈ g.used ↔ ∃ r ∈ rs, r.target = id
  nodup_used : g.used.Nodup
  /-- Identities and targets that were written more than once count once. -/
  size_eq : g.size =
    (ds.map Definition.id).toFinset.card + (rs.map Reference.target).toFinset.card

/-- A graph that holds the writes of definitions and references stands for them. -/
theorem represents_of_writes {g : SymbolGraph} {ds : List Definition} {rs : List Reference}
    (hdefinitions : g.definitions = Ledger.empty.putAll (definitionWrites ds))
    (hreferences : g.references = Ledger.empty.putAll (referenceWrites rs)) :
    g.Represents ds rs where
  definition_key := by
    intro id d h
    rw [hdefinitions] at h
    exact Ledger.key_eq_of_mem_putAll_map h
  reference_key := by
    intro id r h
    rw [hreferences] at h
    exact Ledger.key_eq_of_mem_putAll_map h
  lookup_iff := by
    intro id d
    cases id with
    | none => simp [lookup]
    | some id =>
        rw [lookup, Option.bind_some, hdefinitions, definitionWrites,
          Ledger.get?_putAll_map_iff Definition.id, Option.some.injEq]
        constructor
        · rintro ⟨rfl, hlast⟩
          exact ⟨rfl, hlast⟩
        · rintro ⟨rfl, hlast⟩
          exact ⟨rfl, hlast⟩
  mem_used_iff := by
    intro id
    rw [used, hreferences, Ledger.mem_keys_putAll]
    simp [referenceWrites, Ledger.keys, Ledger.empty]
  nodup_used := by
    rw [used, hreferences]
    exact Ledger.keyed_empty.putAll _
  size_eq := by
    rw [size, hdefinitions, hreferences, Ledger.size_putAll_empty, Ledger.size_putAll_empty,
      definitionWrites, referenceWrites, List.map_map, List.map_map]
    rfl

/-- In every graph that is put together by its operations, definitions stand under their own
identities. -/
theorem selfKeyed_after (ops : List Operation) : (after ops).SelfKeyed := by
  obtain ⟨ds, rs, h⟩ := exists_wrote ops
  exact (represents_of_writes h.after.1 h.after.2).definition_key

/-- Every graph stands for what was written to it.  Operations on an empty graph write
definitions and references, a unit that is stopped those before the record that stops it;
and whatever they write, the graph has every record under its own key, finds the last
definition that was written with an identity, uses the targets that were written, and
counts the identities and the targets among them. -/
theorem representation_invariant (ops : List Operation) :
    (∃ ds rs, Wrote ops ds rs) ∧
      ∀ ds rs, Wrote ops ds rs → (after ops).Represents ds rs := by
  refine ⟨exists_wrote ops, ?_⟩
  intro ds rs h
  exact represents_of_writes h.after.1 h.after.2

/-- A unit that is stopped by a reference, then another definition and another reference
for identities that it wrote, and a unit that is covered. -/
def mixedOperations : List Operation :=
  [.addUnit strayUnit,
   .addDefinition ⟨"Struct", "Board", ⟨⟨2, 2⟩, 1⟩, ⟨"src/lib.rs", 4, 1, 4, 9⟩, none, none⟩,
   .cover ⟨3, 3⟩,
   .addReference ⟨"Function", ⟨⟨1, 1⟩, 4⟩, ⟨"src/lib.rs", 5, 1, 5, 9⟩⟩]

/-- Three definitions and two references are written, for two identities and one
target. -/
theorem representation_invariant_mixedOperations :
    ∃ ds rs, Wrote mixedOperations ds rs ∧ (after mixedOperations).Represents ds rs ∧
      (after mixedOperations).size = 3 ∧
      ((after mixedOperations).lookup (some ⟨⟨2, 2⟩, 1⟩)).map Definition.name = some "Board" ∧
      (after mixedOperations).used = [⟨⟨1, 1⟩, 4⟩] := by
  obtain ⟨⟨ds, rs, hwrote⟩, hall⟩ := representation_invariant mixedOperations
  exact ⟨ds, rs, hwrote, hall ds rs hwrote, rfl, rfl, rfl⟩

end SymbolGraph

end DeadSymbols
