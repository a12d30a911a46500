import Mathlib
import DeadSymbols.Index.Analysis
import DeadSymbols.Proofs.Ledger
import DeadSymbols.Proofs.ReportOrder

/-!
# What an index reports

The analysis of an index goes through the occurrences of all documents once and
fills two collections: the definitions by key, where the last one counts, and the
keys that are used.  Here the outcome is described without either of them, by the
list of all occurrences in document order (`occurrences`) and the list of all that
is said about symbols (`remarks`).

The analysis fails exactly if a definition has a range that is none; it then names
the first such range.  Otherwise a report has one finding for each key that is
defined, that no occurrence uses and whose name does not start with an underscore.

## Main results

* `definition_eq_ok_iff` — what an occurrence defines.
* `foldlM_take` — what the analysis has seen after any number of
  occurrences.
* `index_report_exact` — the report, or the failure, of every index.
-/

namespace DeadSymbols.IndexAnalysis

open SymbolName (Key)

/-! ## What an index says -/

/-- The occurrences of symbols in an index, in document order, each with the path
of its document.  An occurrence without a symbol is left out. -/
def occurrences (i : Index) : List (String × Occurrence) :=
  (i.documents.flatMap fun d => d.occurrences.map fun o => (d.relativePath, o)).filter
    fun p => p.2.symbol ≠ ""

/-- The key that an occurrence is about. -/
def keyAt (p : String × Occurrence) : Key := SymbolName.key p.1 p.2.symbol

/-- The lowest bit of the mask is set. -/
def Defines (o : Occurrence) : Prop := o.roles.testBit 0 = true

/-- A definition with a range of the wrong length. -/
def Malformed (p : String × Occurrence) : Prop :=
  Defines p.2 ∧ p.2.range.length ≠ 3 ∧ p.2.range.length ≠ 4

instance (p : String × Occurrence) : Decidable (Malformed p) :=
  inferInstanceAs (Decidable (_ = true ∧ _))

/-- All that is said about symbols, name and kind by key: outside the documents
first, then document by document. -/
def remarks (i : Index) : List (Key × String × Int) :=
  (i.externalSymbols.map fun s => (("", s.symbol), s.displayName, s.kind)) ++
    i.documents.flatMap fun d => d.symbols.map fun s =>
      (SymbolName.key d.relativePath s.symbol, s.displayName, s.kind)

/-- The name and the kind that count for a key: those of the last remark on it, or
an empty name and no kind if there is none. -/
def Remarked (i : Index) (k : Key) (remark : String × Int) : Prop :=
  (∃ before after, remarks i = before ++ (k, remark) :: after ∧
    ∀ r ∈ after, r.1 ≠ k) ∨
  ((∀ r ∈ remarks i, r.1 ≠ k) ∧ remark = ("", 0))

/-- The span of a range, which counts lines and columns from zero where spans count
from one. -/
inductive SpanOf (path : String) : List Int → Span → Prop
  | oneLine (line column columnEnd : Int) :
      SpanOf path [line, column, columnEnd]
        ⟨path, line + 1, column + 1, line + 1, columnEnd + 1⟩
  | manyLines (line column lineEnd columnEnd : Int) :
      SpanOf path [line, column, lineEnd, columnEnd]
        ⟨path, line + 1, column + 1, lineEnd + 1, columnEnd + 1⟩

theorem isDefinition_iff (o : Occurrence) : o.isDefinition = true ↔ Defines o := by
  rw [Occurrence.isDefinition, Defines, beq_iff_eq]
  cases o.roles with
  | ofNat n =>
      show ((n : Int) % 2 = 1) ↔ Nat.testBit n 0 = true
      rw [Nat.testBit_zero, decide_eq_true_eq]
      omega
  | negSucc n =>
      show (Int.negSucc n % 2 = 1) ↔ (!Nat.testBit n 0) = true
      rw [Nat.testBit_zero, Bool.not_eq_true', decide_eq_false_iff_not]
      omega

theorem infos_eq (i : Index) : infos i = Ledger.empty.putAll (remarks i) := by
  rw [infos, remarks, Ledger.putAll_append]
  simp only [Ledger.putAll, List.foldl_map, List.foldl_flatMap]

/-- The ledger of remarks is read as its last remarks. -/
theorem infos_getD_iff (i : Index) (k : Key) (remark : String × Int) :
    ((infos i).get? k).getD ("", 0) = remark ↔ Remarked i k remark := by
  have hsome : ∀ r, (infos i).get? k = some r ↔
      ∃ before after, remarks i = before ++ (k, r) :: after ∧ ∀ r ∈ after, r.1 ≠ k := by
    intro r
    rw [infos_eq, Ledger.get?_putAll_empty_iff]
  have hnone : (infos i).get? k = none ↔ ∀ r ∈ remarks i, r.1 ≠ k := by
    rw [infos_eq, Ledger.get?_putAll, Ledger.get?_empty, Option.or_none,
      Ledger.lastWrite?_eq_none_iff]
  rw [Remarked, ← hsome, ← hnone]
  cases (infos i).get? k with
  | none =>
      simp only [Option.getD_none, reduceCtorEq, false_or, true_and]
      exact eq_comm
  | some r => simp

/-! ## One definition -/

theorem span_eq_ok_iff {path : String} {range : List Int} {span : Span} :
    Index.span path range = .ok span ↔ SpanOf path range span := by
  constructor
  · intro h
    unfold Index.span at h
    split at h
    · obtain rfl := Except.ok.inj h
      exact .oneLine _ _ _
    · obtain rfl := Except.ok.inj h
      exact .manyLines _ _ _ _
    · contradiction
  · intro h
    cases h <;> rfl

theorem span_eq_error_iff {path : String} {range : List Int} {fault : RangeFault} :
    Index.span path range = .error fault ↔
      (range.length ≠ 3 ∧ range.length ≠ 4) ∧ fault = ⟨path, range.length⟩ := by
  unfold Index.span
  split
  · simp
  · simp
  · next hthree hfour =>
      have hlength : range.length ≠ 3 ∧ range.length ≠ 4 := by
        constructor
        · intro h
          obtain ⟨a, b, c, rfl⟩ := List.length_eq_three.1 h
          exact hthree a b c rfl
        · intro h
          match range, h with
          | [a, b, c, d], _ => exact hfour a b c d rfl
      rw [Except.error.injEq]
      constructor
      · intro h
        exact ⟨hlength, h.symm⟩
      · rintro ⟨-, h⟩
        exact h.symm

/-- What an occurrence says about the symbol it defines. -/
structure DescribedBy (i : Index) (p : String × Occurrence) (f : Finding) : Prop where
  symbol : f.symbol = p.2.symbol
  span : SpanOf p.1 p.2.range f.span
  remarked : ∃ name kind, Remarked i (keyAt p) (name, kind) ∧
    f.name = (if name = "" then SymbolName.display p.2.symbol else name) ∧
    f.kind = (if kind = 0 then "<unknown>" else Index.kindName kind)

theorem definition_eq_ok_iff {i : Index} {p : String × Occurrence}
    {d : IndexedDefinition} :
    definition (infos i) p.1 p.2 = .ok d ↔ DescribedBy i p (finding d) := by
  have hkind : ∀ kind, (if kind = 0 then "<unknown>" else Index.kindName kind) =
      Index.kindName kind := by
    intro kind
    by_cases h : kind = 0
    · rw [if_pos h, Index.kindName, if_pos h]
    · rw [if_neg h]
  obtain ⟨⟨name, kind⟩, hremark⟩ :
      ∃ remark, ((infos i).get? (keyAt p)).getD ("", 0) = remark := ⟨_, rfl⟩
  have hremarked := (infos_getD_iff i (keyAt p) (name, kind)).1 hremark
  have hvalue : ∀ span, Index.span p.1 p.2.range = .ok span →
      definition (infos i) p.1 p.2 = .ok ⟨p.2.symbol, span,
        if name = "" then SymbolName.display p.2.symbol else name,
        Index.kindName kind⟩ := by
    intro span hspan
    rw [keyAt] at hremark
    simp only [definition, hspan, hremark, Except.map, String.isEmpty_iff]
  constructor
  · intro h
    cases hspan : Index.span p.1 p.2.range with
    | error fault => simp [definition, hspan, Except.map] at h
    | ok span =>
        rw [hvalue span hspan, Except.ok.injEq] at h
        subst h
        exact ⟨rfl, span_eq_ok_iff.1 hspan, name, kind, hremarked, rfl, (hkind kind).symm⟩
  · rintro ⟨hsymbol, hspan, name', kind', hremarked', hname, hkind'⟩
    have hsame := (infos_getD_iff i (keyAt p) (name', kind')).2 hremarked'
    obtain ⟨rfl, rfl⟩ := Prod.mk.inj (hremark.symm.trans hsame)
    rw [hvalue _ (span_eq_ok_iff.2 hspan), Except.ok.injEq]
    obtain ⟨symbol, span, dname, dkind⟩ := d
    rw [hkind] at hkind'
    simp only [finding] at hsymbol hname hkind'
    rw [hsymbol, hname, hkind']
    rfl

/-- A definition fails exactly if it is malformed. -/
theorem definition_eq_error_iff {infos : Infos} {p : String × Occurrence}
    {fault : RangeFault} :
    definition infos p.1 p.2 = .error fault ↔
      (p.2.range.length ≠ 3 ∧ p.2.range.length ≠ 4) ∧
        fault = ⟨p.1, p.2.range.length⟩ := by
  rw [← span_eq_error_iff, definition]
  cases Index.span p.1 p.2.range with
  | error e => simp [Except.map]
  | ok span => simp [Except.map]

/-! ## The run over all occurrences -/

/-- The write that an occurrence makes to the ledger of definitions. -/
def write? (infos : Infos) (p : String × Occurrence) :
    Option (Key × IndexedDefinition) :=
  if p.2.isDefinition then (definition infos p.1 p.2).toOption.map (keyAt p, ·) else none

/-- The analysis with one more occurrence of a symbol. -/
def take (infos : Infos) (a : IndexAnalysis) (p : String × Occurrence) :
    Except RangeFault IndexAnalysis :=
  addOccurrence infos p.1 a p.2

-- Documents only group the occurrences, and those without a symbol are skipped.
theorem ofIndex_eq (i : Index) :
    ofIndex i = (occurrences i).foldlM (take (infos i))
      ⟨i.metadata.projectRoot, i.documents.length, .empty, []⟩ := by
  have hskip : ∀ (ps : List (String × Occurrence)) (a : IndexAnalysis),
      (ps.filter fun p => p.2.symbol ≠ "").foldlM (take (infos i)) a =
        ps.foldlM (take (infos i)) a := by
    intro ps
    induction ps with
    | nil => intro a; rfl
    | cons p rest ih =>
        intro a
        by_cases hsymbol : p.2.symbol = ""
        · have htake : take (infos i) a p = .ok a := by
            simp [take, addOccurrence, hsymbol]
          rw [List.filter_cons_of_neg (by simpa using hsymbol), List.foldlM_cons, htake, ih]
          rfl
        · rw [List.filter_cons_of_pos (by simpa using hsymbol), List.foldlM_cons,
            List.foldlM_cons]
          exact bind_congr ih
  have hflat : ∀ (ds : List Document) (a : IndexAnalysis),
      (ds.flatMap fun d => d.occurrences.map fun o => (d.relativePath, o)).foldlM
          (take (infos i)) a =
        ds.foldlM (addDocument (infos i)) a := by
    intro ds
    induction ds with
    | nil => intro a; rfl
    | cons d rest ih =>
        intro a
        rw [List.flatMap_cons, List.foldlM_append, List.foldlM_map, List.foldlM_cons]
        exact bind_congr ih
  rw [occurrences, hskip, hflat, ofIndex]

/-- One occurrence: a definition is written under its key, any other occurrence uses
its key. -/
theorem take_eq_ok (infos : Infos) {p : String × Occurrence} (hsymbol : p.2.symbol ≠ "")
    (hwell : ¬Malformed p) (a : IndexAnalysis) :
    ∃ b, take infos a p = .ok b ∧
      b.definitions = a.definitions.putAll (write? infos p).toList ∧
      ∀ k, k ∈ b.used ↔ k ∈ a.used ∨ (¬Defines p.2 ∧ keyAt p = k) := by
  by_cases hdef : Defines p.2
  · have hbit := (isDefinition_iff p.2).2 hdef
    cases hd : definition infos p.1 p.2 with
    | error fault => exact absurd ⟨hdef, (definition_eq_error_iff.1 hd).1⟩ hwell
    | ok d =>
        refine ⟨{ a with definitions := a.definitions.put (keyAt p) d }, ?_, ?_, ?_⟩
        · simp [take, addOccurrence, hsymbol, hbit, hd, Except.map, keyAt]
        · simp [write?, hbit, hd, Except.toOption, Ledger.putAll]
        · simp [hdef]
  · have hbit : p.2.isDefinition = false := by
      rw [← Bool.not_eq_true, isDefinition_iff]
      exact hdef
    refine ⟨{ a with used := if a.used.contains (keyAt p) then a.used
      else a.used ++ [keyAt p] }, ?_, ?_, ?_⟩
    · simp [take, addOccurrence, hsymbol, hbit, keyAt]
    · simp [write?, hbit, Ledger.putAll]
    · intro k
      by_cases hused : keyAt p ∈ a.used
      · have : keyAt p = k → k ∈ a.used := fun h => h ▸ hused
        simpa [hused, hdef] using this
      · simp [hused, hdef, eq_comm]

/-- A malformed occurrence is where the analysis ends. -/
theorem take_eq_error (infos : Infos) {p : String × Occurrence}
    (hsymbol : p.2.symbol ≠ "") (hmalformed : Malformed p) (a : IndexAnalysis) :
    take infos a p = .error ⟨p.1, p.2.range.length⟩ := by
  have hbit := (isDefinition_iff p.2).2 hmalformed.1
  have hd : definition infos p.1 p.2 = .error ⟨p.1, p.2.range.length⟩ :=
    definition_eq_error_iff.2 ⟨hmalformed.2, rfl⟩
  simp [take, addOccurrence, hsymbol, hbit, hd, Except.map]

/-- Any number of occurrences: the definitions are those written in turn, and the
keys used are those of the other occurrences. -/
theorem foldlM_take (infos : Infos) {ps : List (String × Occurrence)}
    (hsymbol : ∀ p ∈ ps, p.2.symbol ≠ "") (hwell : ∀ p ∈ ps, ¬Malformed p)
    (a : IndexAnalysis) :
    ∃ b, ps.foldlM (take infos) a = .ok b ∧
      b.definitions = a.definitions.putAll (ps.filterMap (write? infos)) ∧
      ∀ k, k ∈ b.used ↔ k ∈ a.used ∨ ∃ p ∈ ps, ¬Defines p.2 ∧ keyAt p = k := by
  induction ps generalizing a with
  | nil => exact ⟨a, rfl, rfl, by simp⟩
  | cons p rest ih =>
      obtain ⟨b, hb, hdefs, hused⟩ := take_eq_ok infos
        (hsymbol p List.mem_cons_self) (hwell p List.mem_cons_self) a
      obtain ⟨c, hc, hdefs', hused'⟩ := ih
        (fun q hq => hsymbol q (List.mem_cons_of_mem p hq))
        (fun q hq => hwell q (List.mem_cons_of_mem p hq)) b
      refine ⟨c, ?_, ?_, ?_⟩
      · rw [List.foldlM_cons, hb]
        exact hc
      · have hwrites : (p :: rest).filterMap (write? infos) =
            (write? infos p).toList ++ rest.filterMap (write? infos) := by
          cases hwrite : write? infos p with
          | none => rw [List.filterMap_cons_none hwrite]; rfl
          | some w => rw [List.filterMap_cons_some hwrite]; rfl
        rw [hdefs', hdefs, hwrites, Ledger.putAll_append]
      · intro k
        rw [hused', hused, List.exists_mem_cons_iff, or_assoc]

/-! ## The report -/

/-- A key that is reported, with its finding.  Nothing here mentions an analysis: the
finding is what the last definition of the key says, every occurrence of the key is a
definition, and its name does not start with an underscore. -/
structure Reported (i : Index) (k : Key) (f : Finding) : Prop where
  last : ∃ before p after, occurrences i = before ++ p :: after ∧
    Defines p.2 ∧ keyAt p = k ∧ (∀ q ∈ after, Defines q.2 → keyAt q ≠ k) ∧
    DescribedBy i p f
  unused : ∀ q ∈ occurrences i, keyAt q = k → Defines q.2
  named : f.name.toList.head? ≠ some '_'

/-- A list of findings is the report on an index: it is sorted by place, kind, name
and symbol, and has one finding for each key that is reported and no other. -/
structure IsReportOn (i : Index) (found : List Finding) : Prop where
  sorted : found.Pairwise fun a b => a.sortKey ≤ b.sortKey
  findings : ∃ entries : List (Key × Finding), (entries.map (·.1)).Nodup ∧
    (∀ k f, (k, f) ∈ entries ↔ Reported i k f) ∧ found.Perm (entries.map (·.2))

private theorem write?_eq_some_iff {i : Index} {p : String × Occurrence} {k : Key}
    {d : IndexedDefinition} :
    write? (infos i) p = some (k, d) ↔
      Defines p.2 ∧ keyAt p = k ∧ DescribedBy i p (finding d) := by
  rw [← isDefinition_iff, ← definition_eq_ok_iff, write?]
  cases p.2.isDefinition with
  | false => simp
  | true =>
      cases definition (infos i) p.1 p.2 with
      | error fault => simp [Except.toOption]
      | ok found => simp [Except.toOption]

private theorem exists_write {i : Index} {p : String × Occurrence}
    (hwell : ¬Malformed p) (hdef : Defines p.2) :
    ∃ d, write? (infos i) p = some (keyAt p, d) := by
  cases hd : definition (infos i) p.1 p.2 with
  | error fault => exact absurd ⟨hdef, (definition_eq_error_iff.1 hd).1⟩ hwell
  | ok d => exact ⟨d, write?_eq_some_iff.2 ⟨hdef, rfl, definition_eq_ok_iff.1 hd⟩⟩

private theorem isReported_iff {a : IndexAnalysis} {k : Key} {d : IndexedDefinition} :
    a.isReported k d = true ↔ k ∉ a.used ∧ d.name.toList.head? ≠ some '_' := by
  rw [isReported, Bool.and_eq_true, Bool.not_eq_true', Bool.not_eq_true',
    ← Bool.not_eq_true, ← Bool.not_eq_true, List.contains_iff_mem,
    Finding.underscore_isPrefixOf_iff]

section Taken

variable {i : Index} {a : IndexAnalysis}

-- The entries of the ledger are the last definitions of their keys.
private theorem mem_entries_iff (hwell : ∀ p ∈ occurrences i, ¬Malformed p)
    (hdefs : a.definitions =
      Ledger.empty.putAll ((occurrences i).filterMap (write? (infos i))))
    (k : Key) (d : IndexedDefinition) :
    (k, d) ∈ a.definitions.entries ↔
      ∃ before p after, occurrences i = before ++ p :: after ∧
        Defines p.2 ∧ keyAt p = k ∧ (∀ q ∈ after, Defines q.2 → keyAt q ≠ k) ∧
        DescribedBy i p (finding d) := by
  have hkeyed : a.definitions.Keyed := hdefs ▸ Ledger.keyed_empty.putAll _
  rw [Ledger.mem_entries_iff_get? hkeyed, hdefs, Ledger.get?_putAll_filterMap_iff]
  constructor
  · rintro ⟨before, p, after, heq, hwrite, hafter⟩
    obtain ⟨hdef, hkey, hdesc⟩ := write?_eq_some_iff.1 hwrite
    refine ⟨before, p, after, heq, hdef, hkey, ?_, hdesc⟩
    intro q hq hqdef
    have hmem : q ∈ occurrences i := by
      rw [heq]
      exact List.mem_append_right _ (List.mem_cons_of_mem _ hq)
    obtain ⟨d', hd'⟩ := exists_write (i := i) (hwell q hmem) hqdef
    exact hafter q hq _ hd'
  · rintro ⟨before, p, after, heq, hdef, hkey, hafter, hdesc⟩
    refine ⟨before, p, after, heq, write?_eq_some_iff.2 ⟨hdef, hkey, hdesc⟩, ?_⟩
    rintro q hq ⟨k', d'⟩ hwrite
    obtain ⟨hqdef, rfl, -⟩ := write?_eq_some_iff.1 hwrite
    exact hafter q hq hqdef

private theorem isReportOn_of_taken (hwell : ∀ p ∈ occurrences i, ¬Malformed p)
    (hdefs : a.definitions =
      Ledger.empty.putAll ((occurrences i).filterMap (write? (infos i))))
    (hused : ∀ k, k ∈ a.used ↔ ∃ p ∈ occurrences i, ¬Defines p.2 ∧ keyAt p = k) :
    IsReportOn i a.report := by
  have hkeyed : a.definitions.Keyed := hdefs ▸ Ledger.keyed_empty.putAll _
  refine ⟨Finding.inOrder_sorted _,
    (a.definitions.entries.filter fun e => a.isReported e.1 e.2).map
      fun e => (e.1, finding e.2), ?_, ?_, ?_⟩
  · rw [List.map_map]
    exact List.Nodup.sublist (List.filter_sublist.map Prod.fst) hkeyed
  · intro k f
    simp only [List.mem_map, List.mem_filter]
    constructor
    · rintro ⟨⟨k', d⟩, ⟨hmem, hreported⟩, heq⟩
      obtain ⟨rfl, rfl⟩ := Prod.mk.inj heq
      obtain ⟨hunused, hnamed⟩ := isReported_iff.1 hreported
      refine ⟨(mem_entries_iff hwell hdefs k' d).1 hmem, ?_, hnamed⟩
      intro q hq hkey
      by_contra hno
      exact hunused ((hused k').2 ⟨q, hq, hno, hkey⟩)
    · rintro ⟨hlast, hunused, hnamed⟩
      have hnot : k ∉ a.used := by
        intro hk
        obtain ⟨q, hq, hno, hkey⟩ := (hused k).1 hk
        exact hno (hunused q hq hkey)
      exact ⟨(k, ⟨f.symbol, f.span, f.name, f.kind⟩),
        ⟨(mem_entries_iff hwell hdefs k _).2 hlast, isReported_iff.2 ⟨hnot, hnamed⟩⟩, rfl⟩
  · rw [List.map_map]
    exact Finding.inOrder_perm _

end Taken

private theorem symbol_ne_empty {i : Index} {p : String × Occurrence}
    (hp : p ∈ occurrences i) : p.2.symbol ≠ "" := by
  simpa using (List.mem_filter.1 hp).2

/-- Occurrences that the analysis goes through to the end are not malformed. -/
theorem not_malformed_of_foldlM_take {infos : Infos} {ps : List (String × Occurrence)}
    (hsymbol : ∀ p ∈ ps, p.2.symbol ≠ "") {a b : IndexAnalysis}
    (h : ps.foldlM (take infos) a = .ok b) : ∀ p ∈ ps, ¬Malformed p := by
  induction ps generalizing a with
  | nil => simp
  | cons p rest ih =>
      rw [List.foldlM_cons] at h
      rw [List.forall_mem_cons] at hsymbol ⊢
      by_cases hmalformed : Malformed p
      · rw [take_eq_error infos hsymbol.1 hmalformed] at h
        cases h
      · obtain ⟨c, hc, -, -⟩ := take_eq_ok infos hsymbol.1 hmalformed a
        rw [hc] at h
        exact ⟨hmalformed, ih hsymbol.2 h⟩

/-- An analysis holds what the occurrences wrote and the keys they used. -/
theorem taken_ofIndex {i : Index} {a : IndexAnalysis} (h : ofIndex i = .ok a) :
    (∀ p ∈ occurrences i, ¬Malformed p) ∧
      a.definitions =
        Ledger.empty.putAll ((occurrences i).filterMap (write? (infos i))) ∧
      ∀ k, k ∈ a.used ↔ ∃ p ∈ occurrences i, ¬Defines p.2 ∧ keyAt p = k := by
  rw [ofIndex_eq] at h
  have hsymbol : ∀ p ∈ occurrences i, p.2.symbol ≠ "" := fun p hp => symbol_ne_empty hp
  have hwell := not_malformed_of_foldlM_take hsymbol h
  obtain ⟨b, hb, hdefs, hused⟩ := foldlM_take (infos i) hsymbol hwell
    ⟨i.metadata.projectRoot, i.documents.length, .empty, []⟩
  obtain rfl := Except.ok.inj (h.symm.trans hb)
  exact ⟨hwell, hdefs, by simpa using hused⟩

/-- An analysis holds what the occurrences wrote. -/
theorem definitions_ofIndex {i : Index} {a : IndexAnalysis} (h : ofIndex i = .ok a) :
    (∀ p ∈ occurrences i, ¬Malformed p) ∧
      a.definitions =
        Ledger.empty.putAll ((occurrences i).filterMap (write? (infos i))) :=
  ⟨(taken_ofIndex h).1, (taken_ofIndex h).2.1⟩

/-- An analysis holds one definition for each key. -/
theorem keyed_ofIndex {i : Index} {a : IndexAnalysis} (h : ofIndex i = .ok a) :
    a.definitions.Keyed :=
  (definitions_ofIndex h).2 ▸ Ledger.keyed_empty.putAll _

/-- The kind of a definition is the name of a number. -/
theorem exists_kind_eq_kindName {i : Index} {a : IndexAnalysis} (h : ofIndex i = .ok a)
    {k : Key} {d : IndexedDefinition} (hmem : (k, d) ∈ a.definitions.entries) :
    ∃ number, d.kind = Index.kindName number := by
  obtain ⟨hwell, hdefs⟩ := definitions_ofIndex h
  obtain ⟨-, p, -, -, -, -, -, hdescribed⟩ := (mem_entries_iff hwell hdefs k d).1 hmem
  obtain ⟨-, number, -, -, hkind⟩ := hdescribed.remarked
  refine ⟨number, ?_⟩
  by_cases hnumber : number = 0
  · rw [if_pos hnumber] at hkind
    rw [Index.kindName, if_pos hnumber]
    exact hkind
  · rw [if_neg hnumber] at hkind
    exact hkind

/-- The analysis of an index.  Either some definition is malformed, and the analysis
fails with the range of the first one, or none is, and there is a report with exactly
one finding for each key that is reported. -/
theorem index_report_exact (i : Index) :
    (∃ before p after, occurrences i = before ++ p :: after ∧ Malformed p ∧
        (∀ q ∈ before, ¬Malformed q) ∧
        ofIndex i = .error ⟨p.1, p.2.range.length⟩) ∨
      ((∀ p ∈ occurrences i, ¬Malformed p) ∧
        ∃ a, ofIndex i = .ok a ∧ IsReportOn i a.report) := by
  rw [ofIndex_eq]
  by_cases hwell : ∀ p ∈ occurrences i, ¬Malformed p
  · right
    obtain ⟨a, ha, hdefs, hused⟩ := foldlM_take (infos i)
      (fun p hp => symbol_ne_empty hp) hwell
      ⟨i.metadata.projectRoot, i.documents.length, .empty, []⟩
    refine ⟨hwell, a, ha, isReportOn_of_taken hwell hdefs ?_⟩
    intro k
    rw [hused]
    simp
  · left
    obtain ⟨p, hp⟩ : ∃ p, (occurrences i).find? (fun p => Malformed p) = some p := by
      rw [← Option.isSome_iff_exists, List.find?_isSome]
      push Not at hwell
      simpa using hwell
    obtain ⟨hmalformed, before, after, heq, hbefore⟩ :=
      List.find?_eq_some_iff_append.1 hp
    have hwell' : ∀ q ∈ before, ¬Malformed q := by simpa using hbefore
    have hsymbol : ∀ q ∈ before ++ p :: after, q.2.symbol ≠ "" :=
      fun q hq => symbol_ne_empty (heq ▸ hq)
    obtain ⟨b, hb, -, -⟩ := foldlM_take (infos i)
      (fun q hq => hsymbol q (List.mem_append_left _ hq)) hwell'
      ⟨i.metadata.projectRoot, i.documents.length, .empty, []⟩
    have hend := take_eq_error (infos i) (hsymbol p (by simp))
      (of_decide_eq_true hmalformed) b
    refine ⟨before, p, after, heq, of_decide_eq_true hmalformed, hwell', ?_⟩
    rw [heq, List.foldlM_append, hb]
    show (p :: after).foldlM (take (infos i)) b = _
    rw [List.foldlM_cons, hend]
    rfl

end DeadSymbols.IndexAnalysis
