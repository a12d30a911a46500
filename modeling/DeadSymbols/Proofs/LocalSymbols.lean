import Mathlib
import DeadSymbols.Proofs.IndexReport

/-!
# Local symbols stay in their documents

A local symbol means something in its document only.  What an analysis finds out about
the local symbols of a path is therefore settled by the documents with that path and by
what is said outside all documents (`partAt`).  The latter matters for the empty path
alone, whose local symbols share their keys with it.

Each of the three collections of an analysis keeps to this.  Remarks and occurrences
about a local key come from documents with its path, because no other document makes
that key (`key_ne_of_path_ne`); so the last remark on the key, the last definition of it
and its uses are the same in the index and in its part.  Two indexes with one part at a
path are compared through that part.

## Main results

* `filter_remarks`, `filter_occurrences` — what an index says about a local key, its
  part says.
* `get?_definitions_partAt`, `mem_used_partAt` — what an analysis holds under a local key.
* `locals_do_not_interfere` — documents with other paths leave no trace.
-/

namespace DeadSymbols

namespace Ledger

variable {α β : Type} [DecidableEq α]

/-- Writes of other keys do not matter to the last write of a key. -/
theorem lastWrite?_filter (key : α) (ws : List (α × β)) :
    lastWrite? key (ws.filter fun w => w.1 = key) = lastWrite? key ws := by
  induction ws with
  | nil => rfl
  | cons w ws ih =>
      by_cases h : w.1 = key
      · rw [List.filter_cons_of_pos (by simpa using h), lastWrite?, lastWrite?, ih]
      · rw [List.filter_cons_of_neg (by simpa using h), ih, lastWrite?, if_neg h,
          Option.or_none]

end Ledger

namespace IndexAnalysis

open SymbolName (Key)

/-! ## The part of an index at a path -/

/-- The documents with a path, and what is said outside all documents. -/
def partAt (i : Index) (path : String) : Index where
  documents := i.documents.filter fun d => d.relativePath = path
  externalSymbols := i.externalSymbols

/-- A document makes the keys of local symbols with its own path only. -/
theorem key_ne_of_path_ne {path path' symbol : String}
    (hlocal : SymbolName.isLocal symbol = true) (hpath : path' ≠ path) (symbol' : String) :
    SymbolName.key path' symbol' ≠ (path, symbol) := by
  intro h
  rw [SymbolName.key, Prod.mk.injEq] at h
  obtain ⟨hkey, rfl⟩ := h
  rw [if_pos hlocal] at hkey
  exact hpath hkey

-- What only the documents with a path contribute is contributed by these alone.
private theorem filter_flatMap_documents {γ : Type} {f : Document → List γ} {q : γ → Bool}
    {path : String} (h : ∀ d : Document, d.relativePath ≠ path → ∀ x ∈ f d, q x = false)
    (ds : List Document) :
    (ds.flatMap f).filter q =
      ((ds.filter fun d => d.relativePath = path).flatMap f).filter q := by
  induction ds with
  | nil => rfl
  | cons d ds ih =>
      rw [List.flatMap_cons, List.filter_append, ih]
      by_cases hd : d.relativePath = path
      · rw [List.filter_cons_of_pos (by simpa using hd), List.flatMap_cons,
          List.filter_append]
      · have hnone : (f d).filter q = [] := by
          rw [List.filter_eq_nil_iff]
          intro x hx
          simp [h d hd x hx]
        rw [List.filter_cons_of_neg (by simpa using hd), hnone, List.nil_append]

section Part

variable {path symbol : String}

/-- All that is said about a local key is said in the part of the index at its path. -/
theorem filter_remarks (hlocal : SymbolName.isLocal symbol = true) (i : Index) :
    (remarks i).filter (fun r => r.1 = (path, symbol)) =
      (remarks (partAt i path)).filter (fun r => r.1 = (path, symbol)) := by
  rw [remarks, remarks, List.filter_append, List.filter_append]
  congr 1
  apply filter_flatMap_documents
  intro d hd r hr
  obtain ⟨s, _, rfl⟩ := List.mem_map.1 hr
  simpa using key_ne_of_path_ne hlocal hd s.symbol

/-- All occurrences of a local key are in the part of the index at its path. -/
theorem filter_occurrences (hlocal : SymbolName.isLocal symbol = true) (i : Index) :
    (occurrences i).filter (fun p => keyAt p = (path, symbol)) =
      (occurrences (partAt i path)).filter (fun p => keyAt p = (path, symbol)) := by
  have hsplit : ∀ ps : List (String × Occurrence),
      (ps.filter fun p => p.2.symbol ≠ "").filter (fun p => keyAt p = (path, symbol)) =
        (ps.filter fun p => keyAt p = (path, symbol)).filter fun p => p.2.symbol ≠ "" := by
    intro ps
    rw [List.filter_filter, List.filter_filter]
    simp only [Bool.and_comm]
  rw [occurrences, occurrences, hsplit, hsplit]
  congr 1
  apply filter_flatMap_documents
  intro d hd p hp
  obtain ⟨o, _, rfl⟩ := List.mem_map.1 hp
  rw [decide_eq_false_iff_not]
  exact key_ne_of_path_ne hlocal hd o.symbol

theorem get?_infos_partAt (hlocal : SymbolName.isLocal symbol = true) (i : Index) :
    (infos i).get? (path, symbol) = (infos (partAt i path)).get? (path, symbol) := by
  rw [infos_eq, infos_eq, Ledger.get?_putAll, Ledger.get?_putAll,
    ← Ledger.lastWrite?_filter, filter_remarks hlocal, Ledger.lastWrite?_filter]

/-! ## What an analysis holds under a local key -/

/-- What an occurrence writes depends on the remark on its key only. -/
theorem write?_congr {infos infos' : Infos} {p : String × Occurrence}
    (h : infos.get? (keyAt p) = infos'.get? (keyAt p)) : write? infos p = write? infos' p := by
  rw [keyAt] at h
  simp only [write?, definition, h]

private theorem filter_filterMap_write? (infos : Infos) (k : Key)
    (ps : List (String × Occurrence)) :
    (ps.filterMap (write? infos)).filter (fun w => w.1 = k) =
      (ps.filter fun p => keyAt p = k).filterMap (write? infos) := by
  have hkey : ∀ p w, write? infos p = some w → w.1 = keyAt p := by
    intro p w hw
    rw [write?] at hw
    split at hw
    · obtain ⟨d, _, rfl⟩ := Option.map_eq_some_iff.1 hw
      rfl
    · contradiction
  induction ps with
  | nil => rfl
  | cons p ps ih =>
      cases hw : write? infos p with
      | none =>
          rw [List.filterMap_cons_none hw, ih]
          by_cases hk : keyAt p = k
          · rw [List.filter_cons_of_pos (by simpa using hk), List.filterMap_cons_none hw]
          · rw [List.filter_cons_of_neg (by simpa using hk)]
      | some w =>
          have hwk := hkey p w hw
          rw [List.filterMap_cons_some hw]
          by_cases hk : keyAt p = k
          · rw [List.filter_cons_of_pos (by simpa [hwk] using hk),
              List.filter_cons_of_pos (by simpa using hk), List.filterMap_cons_some hw, ih]
          · rw [List.filter_cons_of_neg (by simpa [hwk] using hk),
              List.filter_cons_of_neg (by simpa using hk), ih]

/-- The definition under a local key is the last that the part at its path makes. -/
theorem get?_definitions_partAt {i : Index} {a : IndexAnalysis} (h : ofIndex i = .ok a)
    (hlocal : SymbolName.isLocal symbol = true) :
    a.definitions.get? (path, symbol) =
      Ledger.lastWrite? (path, symbol)
        ((occurrences (partAt i path)).filterMap (write? (infos (partAt i path)))) := by
  have hwrites : ((occurrences i).filter fun p => keyAt p = (path, symbol)).filterMap
        (write? (infos i)) =
      ((occurrences (partAt i path)).filter fun p => keyAt p = (path, symbol)).filterMap
        (write? (infos (partAt i path))) := by
    rw [filter_occurrences hlocal]
    apply List.filterMap_congr
    intro p hp
    have hp : keyAt p = (path, symbol) := by simpa using (List.mem_filter.1 hp).2
    apply write?_congr
    rw [hp]
    exact get?_infos_partAt hlocal i
  rw [(definitions_ofIndex h).2, Ledger.get?_putAll, Ledger.get?_empty, Option.or_none,
    ← Ledger.lastWrite?_filter, filter_filterMap_write?, hwrites, ← filter_filterMap_write?,
    Ledger.lastWrite?_filter]

/-- A local key is used where the part at its path uses it. -/
theorem mem_used_partAt {i : Index} {a : IndexAnalysis} (h : ofIndex i = .ok a)
    (hlocal : SymbolName.isLocal symbol = true) :
    (path, symbol) ∈ a.used ↔
      ∃ p ∈ occurrences (partAt i path), ¬Defines p.2 ∧ keyAt p = (path, symbol) := by
  have hmem : ∀ p, p ∈ occurrences i ∧ keyAt p = (path, symbol) ↔
      p ∈ occurrences (partAt i path) ∧ keyAt p = (path, symbol) := by
    intro p
    have hfilter : p ∈ (occurrences i).filter (fun p => keyAt p = (path, symbol)) ↔
        p ∈ (occurrences (partAt i path)).filter (fun p => keyAt p = (path, symbol)) := by
      rw [filter_occurrences hlocal]
    simpa using hfilter
  rw [(taken_ofIndex h).2.2]
  constructor
  · rintro ⟨p, hp, hdef, hkey⟩
    exact ⟨p, ((hmem p).1 ⟨hp, hkey⟩).1, hdef, hkey⟩
  · rintro ⟨p, hp, hdef, hkey⟩
    exact ⟨p, ((hmem p).2 ⟨hp, hkey⟩).1, hdef, hkey⟩

end Part

/-! ## The report on local symbols -/

/-- Whether a finding is about a local symbol of a file. -/
def isLocalTo (path : String) (f : Finding) : Bool :=
  SymbolName.isLocal f.symbol && f.span.file = path

theorem SpanOf.file_eq {path : String} {range : List Int} {span : Span}
    (h : SpanOf path range span) : span.file = path := by
  cases h <;> rfl

/-- A definition stands under the key of its symbol in its file. -/
theorem key_of_mem_entries {i : Index} {a : IndexAnalysis} (h : ofIndex i = .ok a)
    {k : Key} {d : IndexedDefinition} (hmem : (k, d) ∈ a.definitions.entries) :
    k = SymbolName.key d.span.file d.symbol := by
  rw [Ledger.mem_entries_iff_get? (keyed_ofIndex h), (definitions_ofIndex h).2,
    Ledger.get?_putAll_filterMap_iff] at hmem
  obtain ⟨_, p, _, _, hwrite, _⟩ := hmem
  rw [write?] at hwrite
  split at hwrite
  · cases hd : definition (infos i) p.1 p.2 with
    | error fault => simp [hd, Except.toOption] at hwrite
    | ok found =>
        have hpair : (keyAt p, found) = (k, d) := by simpa [hd, Except.toOption] using hwrite
        obtain ⟨rfl, rfl⟩ := Prod.mk.inj hpair
        have hdescribed := definition_eq_ok_iff.1 hd
        have hsymbol : found.symbol = p.2.symbol := hdescribed.symbol
        have hfile : found.span.file = p.1 := hdescribed.span.file_eq
        rw [keyAt, hsymbol, hfile]
  · contradiction

private theorem filter_report_perm (a : IndexAnalysis) (q : Finding → Bool) :
    (a.report.filter q).Perm
      (((a.definitions.entries.filter fun e => a.isReported e.1 e.2).filter
        fun e => q (finding e.2)).map fun e => finding e.2) := by
  have hfilter := (Finding.inOrder_perm ((a.definitions.entries.filter
    fun e => a.isReported e.1 e.2).map fun e => finding e.2)).filter q
  rw [List.filter_map] at hfilter
  exact hfilter

/-- Of two indexes with one part at a path, the second reports what the first reports
about the local symbols of the path. -/
theorem reported_of_partAt_eq {i j : Index} {a b : IndexAnalysis} {path : String}
    (hi : ofIndex i = .ok a) (hj : ofIndex j = .ok b) (hpart : partAt i path = partAt j path)
    {k : Key} {d : IndexedDefinition} (hmem : (k, d) ∈ a.definitions.entries)
    (hreported : a.isReported k d = true) (hfinding : isLocalTo path (finding d) = true) :
    (k, d) ∈ b.definitions.entries ∧ b.isReported k d = true := by
  obtain ⟨hlocal, hfile⟩ : SymbolName.isLocal d.symbol = true ∧ d.span.file = path := by
    rw [isLocalTo, Bool.and_eq_true, decide_eq_true_eq] at hfinding
    exact hfinding
  have hkey : k = (path, d.symbol) := by
    rw [key_of_mem_entries hi hmem, SymbolName.key, if_pos hlocal, hfile]
  subst hkey
  have hused : (path, d.symbol) ∈ a.used ↔ (path, d.symbol) ∈ b.used := by
    rw [mem_used_partAt hi hlocal, mem_used_partAt hj hlocal, hpart]
  rw [Ledger.mem_entries_iff_get? (keyed_ofIndex hi)] at hmem
  rw [Ledger.mem_entries_iff_get? (keyed_ofIndex hj), get?_definitions_partAt hj hlocal,
    ← hpart, ← get?_definitions_partAt hi hlocal]
  refine ⟨hmem, ?_⟩
  simpa [isReported, hused] using hreported

/-- Documents with other paths leave no trace in what an analysis says about the local
symbols of a path: two indexes with the same documents at the path and the same remarks
outside all documents have the same definitions and uses of these symbols, and report
the same about them, in the same order. -/
theorem locals_do_not_interfere (path : String) {i j : Index} {a b : IndexAnalysis}
    (hi : ofIndex i = .ok a) (hj : ofIndex j = .ok b)
    (hexternal : i.externalSymbols = j.externalSymbols)
    (hdocuments : (i.documents.filter fun d => d.relativePath = path) =
      j.documents.filter fun d => d.relativePath = path) :
    (∀ symbol, SymbolName.isLocal symbol = true →
      a.definitions.get? (path, symbol) = b.definitions.get? (path, symbol) ∧
      ((path, symbol) ∈ a.used ↔ (path, symbol) ∈ b.used)) ∧
    a.report.filter (isLocalTo path) = b.report.filter (isLocalTo path) := by
  have hpart : partAt i path = partAt j path := by
    rw [partAt, partAt, hdocuments, hexternal]
  constructor
  · intro symbol hlocal
    rw [get?_definitions_partAt hi hlocal, get?_definitions_partAt hj hlocal,
      mem_used_partAt hi hlocal, mem_used_partAt hj hlocal, hpart]
    exact ⟨rfl, Iff.rfl⟩
  · have hperm : ((a.definitions.entries.filter fun e => a.isReported e.1 e.2).filter
          fun e => isLocalTo path (finding e.2)).Perm
        ((b.definitions.entries.filter fun e => b.isReported e.1 e.2).filter
          fun e => isLocalTo path (finding e.2)) := by
      rw [List.perm_ext_iff_of_nodup (((keyed_ofIndex hi).nodup_entries.filter _).filter _)
        (((keyed_ofIndex hj).nodup_entries.filter _).filter _)]
      rintro ⟨k, d⟩
      simp only [List.mem_filter]
      constructor
      · rintro ⟨⟨hmem, hreported⟩, hfinding⟩
        exact ⟨reported_of_partAt_eq hi hj hpart hmem hreported hfinding, hfinding⟩
      · rintro ⟨⟨hmem, hreported⟩, hfinding⟩
        exact ⟨reported_of_partAt_eq hj hi hpart.symm hmem hreported hfinding, hfinding⟩
    apply Finding.eq_of_sorted_of_perm
    · exact (Finding.inOrder_sorted _).filter _
    · exact (Finding.inOrder_sorted _).filter _
    · calc
        (a.report.filter (isLocalTo path)).Perm _ := filter_report_perm a (isLocalTo path)
        List.Perm _ _ := hperm.map fun e => finding e.2
        List.Perm _ (b.report.filter (isLocalTo path)) :=
          (filter_report_perm b (isLocalTo path)).symm

/-- A document with an unused local symbol, a used one, and a name for the first. -/
def sharedDocument : Document where
  relativePath := "a.rs"
  occurrences :=
    [{ range := [1, 0, 4], symbol := "local 0", roles := 1 },
     { range := [2, 0, 4], symbol := "local 1", roles := 1 },
     { range := [3, 0, 4], symbol := "local 1" }]
  symbols := [{ symbol := "local 0", displayName := "kept", kind := 61 }]

/-- The document alone. -/
def quietIndex : Index where
  documents := [sharedDocument]

/-- The document among others that use, define and name symbols of the same texts, one
of them without a path. -/
def crowdedIndex : Index where
  documents :=
    [{ relativePath := "b.rs"
       occurrences :=
         [{ range := [0, 0, 4], symbol := "local 0" },
          { range := [5, 0, 6, 4], symbol := "local 1", roles := 1 }],
       symbols := [{ symbol := "local 0", displayName := "_other" }] },
     sharedDocument,
     { occurrences := [{ range := [1, 0, 4], symbol := "local 0" }] }]

theorem locals_do_not_interfere_crowdedIndex :
    ∃ a b, ofIndex quietIndex = .ok a ∧ ofIndex crowdedIndex = .ok b ∧
      a.definitions.get? ("a.rs", "local 0") = b.definitions.get? ("a.rs", "local 0") ∧
      (a.definitions.get? ("a.rs", "local 0")).isSome = true ∧
      a.report.filter (isLocalTo "a.rs") = b.report.filter (isLocalTo "a.rs") := by
  obtain ⟨a, ha, hsome⟩ : ∃ a, ofIndex quietIndex = .ok a ∧
      (a.definitions.get? ("a.rs", "local 0")).isSome = true := ⟨_, rfl, by decide⟩
  obtain ⟨b, hb⟩ : ∃ b, ofIndex crowdedIndex = .ok b := ⟨_, rfl⟩
  obtain ⟨hkeys, hreport⟩ := locals_do_not_interfere "a.rs" ha hb rfl (by decide)
  exact ⟨a, b, ha, hb, (hkeys "local 0" (by decide)).1, hsome, hreport⟩

end IndexAnalysis

end DeadSymbols
