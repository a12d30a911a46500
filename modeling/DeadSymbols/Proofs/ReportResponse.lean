import Mathlib
import DeadSymbols.Proofs.DetectorReport
import DeadSymbols.Proofs.Representation

/-!
# What more information does to a report

A report changes with the graph it is made from.  A new reference takes out of it the
definition that it targets and the implementations of the member that it targets, and
nothing else.  A newly covered unit takes nothing out: it puts in the implementations
of its members that nothing but the missing unit had kept out.  And the policy that
suppresses every implementation leaves the definitions that implement nothing.

Each change acts on one rule of the chain, and `Unexcused` says what the chain asks, so
the three equivalences for `Unexcused` carry the whole argument.  Candidates keep their
order under every change; what is said about them as lists is then said about reports,
because sorting keeps sublists.

## Main results

* `unexcused_addReference_iff`, `unexcused_cover_iff`, `unexcused_always_iff` — what
  each change does to the rules.
* `report_reacts` — what each change does to the report.
-/

namespace DeadSymbols

namespace Detector

/-! ## What a change does to the rules -/

theorem isUsed_addReference (g : SymbolGraph) (r : Reference) (id : SymbolId) :
    (g.addReference r).isUsed id = (decide (id = r.target) || g.isUsed id) := by
  rw [Bool.eq_iff_iff, Bool.or_eq_true, decide_eq_true_iff]
  simp only [SymbolGraph.isUsed, Ledger.has_eq_true_iff]
  exact Ledger.mem_keys_put g.references r.target id r

/-- A reference excuses the implementations of its target. -/
theorem unexcused_addReference_iff (g : SymbolGraph) (r : Reference) (policy : Policy)
    (d : Definition) :
    Unexcused (g.addReference r) policy d ↔
      Unexcused g policy d ∧ d.declaration ≠ some r.target := by
  constructor
  · rintro ⟨named, notLocal, notTuple, notImplementation, notAssociated⟩
    have hmember : ∀ member, d.declaration = some member → policy = .resolve ∧
        member ≠ r.target ∧ g.isUsed member = false ∧
        g.covered.contains member.unit = true := by
      intro member hdecl
      obtain ⟨hpolicy, hused, hcovered⟩ := notImplementation member hdecl
      rw [isUsed_addReference, Bool.or_eq_false_iff, decide_eq_false_iff_not] at hused
      exact ⟨hpolicy, hused.1, hused.2, hcovered⟩
    refine ⟨⟨named, notLocal, notTuple, ?_, notAssociated⟩, ?_⟩
    · intro member hdecl
      obtain ⟨hpolicy, _, hused, hcovered⟩ := hmember member hdecl
      exact ⟨hpolicy, hused, hcovered⟩
    · intro hdecl
      exact (hmember r.target hdecl).2.1 rfl
  · rintro ⟨⟨named, notLocal, notTuple, notImplementation, notAssociated⟩, hne⟩
    refine ⟨named, notLocal, notTuple, ?_, notAssociated⟩
    intro member hdecl
    obtain ⟨hpolicy, hused, hcovered⟩ := notImplementation member hdecl
    have hmember : member ≠ r.target := by
      rintro rfl
      exact hne hdecl
    refine ⟨hpolicy, ?_, hcovered⟩
    rw [isUsed_addReference, Bool.or_eq_false_iff, decide_eq_false_iff_not]
    exact ⟨hmember, hused⟩

/-- The policy that suppresses every implementation lets the others pass as before. -/
theorem unexcused_always_iff (g : SymbolGraph) (d : Definition) :
    Unexcused g .always d ↔ Unexcused g .resolve d ∧ d.declaration = none := by
  constructor
  · rintro ⟨named, notLocal, notTuple, notImplementation, notAssociated⟩
    have hnone : d.declaration = none := by
      cases hdecl : d.declaration with
      | none => rfl
      | some member => cases (notImplementation member hdecl).1
    refine ⟨⟨named, notLocal, notTuple, ?_, notAssociated⟩, hnone⟩
    simp [hnone]
  · rintro ⟨⟨named, notLocal, notTuple, _, notAssociated⟩, hnone⟩
    refine ⟨named, notLocal, notTuple, ?_, notAssociated⟩
    simp [hnone]

/-- The definition implements a member of a unit that is not covered, nothing refers to
the member, and no other rule that needs no source applies. -/
structure OnlyForeign (g : SymbolGraph) (unit : UnitId) (d : Definition) : Prop where
  named : d.name.toList.head? ≠ some '_'
  notLocal : d.kind ≠ "Local"
  notTupleVariant : d.kind ≠ "TupleVariant"
  member : ∃ member, d.declaration = some member ∧ member.unit = unit ∧
    g.isUsed member = false
  notCovered : unit ∉ g.covered
  notAssociatedType : d.kind = "Type" →
    ∀ id parent, d.parent = some id → g.definitions.get? id = some parent →
      parent.kind ≠ "Trait"

/-- A covered unit no longer excuses the implementations of its members. -/
theorem unexcused_cover_iff (g : SymbolGraph) (unit : UnitId) (d : Definition) :
    Unexcused (g.cover unit) .resolve d ↔
      Unexcused g .resolve d ∨ OnlyForeign g unit d := by
  have hdefinitions : (g.cover unit).definitions = g.definitions := by
    unfold SymbolGraph.cover
    split <;> rfl
  have hisUsed : ∀ id, (g.cover unit).isUsed id = g.isUsed id := by
    intro id
    unfold SymbolGraph.cover
    split <;> rfl
  have hcovers : ∀ v, (g.cover unit).covered.contains v = true ↔
      v = unit ∨ g.covered.contains v = true := by
    intro v
    rw [List.contains_iff_mem, List.contains_iff_mem, SymbolGraph.mem_covered_cover]
  constructor
  · rintro ⟨named, notLocal, notTuple, notImplementation, notAssociated⟩
    rw [hdefinitions] at notAssociated
    by_cases hforeign : OnlyForeign g unit d
    · exact Or.inr hforeign
    · refine Or.inl ⟨named, notLocal, notTuple, ?_, notAssociated⟩
      intro member hdecl
      obtain ⟨_, hused, hcovered⟩ := notImplementation member hdecl
      rw [hisUsed] at hused
      refine ⟨rfl, hused, ?_⟩
      by_contra hnot
      -- The unit of the member is the new one, and then it was all that was missing.
      have hunit : member.unit = unit := ((hcovers _).1 hcovered).resolve_right hnot
      rw [List.contains_iff_mem] at hnot
      exact hforeign ⟨named, notLocal, notTuple, ⟨member, hdecl, hunit, hused⟩,
        hunit ▸ hnot, notAssociated⟩
  · rintro (⟨named, notLocal, notTuple, notImplementation, notAssociated⟩ | hforeign)
    · refine ⟨named, notLocal, notTuple, ?_, hdefinitions ▸ notAssociated⟩
      intro member hdecl
      obtain ⟨_, hused, hcovered⟩ := notImplementation member hdecl
      exact ⟨rfl, (hisUsed member).trans hused, (hcovers _).2 (Or.inr hcovered)⟩
    · obtain ⟨named, notLocal, notTuple, ⟨declared, hdeclared, hunit, hunused⟩, _,
        notAssociated⟩ := hforeign
      refine ⟨named, notLocal, notTuple, ?_, hdefinitions ▸ notAssociated⟩
      intro member hdecl
      obtain rfl : declared = member := Option.some.inj (hdeclared.symm.trans hdecl)
      exact ⟨rfl, (hisUsed declared).trans hunused, (hcovers _).2 (Or.inl hunit)⟩

/-! ## What a change does to the list -/

/-- The definitions that a report lists, in the order of the graph. -/
def reported (g : SymbolGraph) (policy : Policy)
    (lookup : Option (UnitId → Span → Bool)) : List Definition :=
  (candidates g).filter (survives g policy lookup)

theorem survives_eq_true_iff (g : SymbolGraph) (policy : Policy)
    (lookup : Option (UnitId → Span → Bool)) (d : Definition) :
    survives g policy lookup d = true ↔
      Unexcused g policy d ∧ isMuted lookup d = false := by
  rw [survives, Bool.and_eq_true, Option.isNone_iff_eq_none, graphReason_eq_none_iff,
    Bool.not_eq_true']

theorem candidates_cover (g : SymbolGraph) (unit : UnitId) :
    candidates (g.cover unit) = candidates g := by
  unfold SymbolGraph.cover
  split <;> rfl

/-- A reference takes its target from the candidates. -/
theorem candidates_addReference {g : SymbolGraph} (hg : g.SelfKeyed) (r : Reference) :
    candidates (g.addReference r) = (candidates g).filter fun d => d.id ≠ r.target := by
  have hentries : (g.definitions.entries.filter fun e => !(g.addReference r).isUsed e.1) =
      (g.definitions.entries.filter fun e => !g.isUsed e.1).filter
        fun e => e.2.id ≠ r.target := by
    rw [List.filter_filter]
    refine List.filter_congr ?_
    intro e he
    rw [isUsed_addReference, hg e.1 e.2 he, Bool.not_or]
    by_cases h : e.2.id = r.target <;> simp [h]
  show (g.definitions.entries.filter fun e => !(g.addReference r).isUsed e.1).map (·.2) = _
  rw [hentries, candidates, List.filter_map]
  rfl

theorem reported_addReference {g : SymbolGraph} (hg : g.SelfKeyed) (r : Reference)
    (policy : Policy) (lookup : Option (UnitId → Span → Bool)) :
    reported (g.addReference r) policy lookup =
      (reported g policy lookup).filter fun d =>
        d.id ≠ r.target ∧ d.declaration ≠ some r.target := by
  rw [reported, reported, candidates_addReference hg, List.filter_filter,
    List.filter_filter]
  refine List.filter_congr ?_
  intro d _
  rw [Bool.eq_iff_iff]
  simp only [Bool.and_eq_true, survives_eq_true_iff, unexcused_addReference_iff,
    decide_eq_true_iff]
  constructor
  · rintro ⟨⟨⟨hrules, hdecl⟩, hmuted⟩, hid⟩
    exact ⟨⟨hid, hdecl⟩, hrules, hmuted⟩
  · rintro ⟨⟨hid, hdecl⟩, hrules, hmuted⟩
    exact ⟨⟨⟨hrules, hdecl⟩, hmuted⟩, hid⟩

theorem reported_always (g : SymbolGraph) (lookup : Option (UnitId → Span → Bool)) :
    reported g .always lookup =
      (reported g .resolve lookup).filter fun d => d.declaration = none := by
  rw [reported, reported, List.filter_filter]
  refine List.filter_congr ?_
  intro d _
  rw [Bool.eq_iff_iff]
  simp only [Bool.and_eq_true, survives_eq_true_iff, unexcused_always_iff,
    decide_eq_true_iff]
  constructor
  · rintro ⟨⟨hrules, hdecl⟩, hmuted⟩
    exact ⟨hdecl, hrules, hmuted⟩
  · rintro ⟨hdecl, hrules, hmuted⟩
    exact ⟨⟨hrules, hdecl⟩, hmuted⟩

theorem survives_cover_iff (g : SymbolGraph) (unit : UnitId)
    (lookup : Option (UnitId → Span → Bool)) (d : Definition) :
    survives (g.cover unit) .resolve lookup d = true ↔
      survives g .resolve lookup d = true ∨
        OnlyForeign g unit d ∧ isMuted lookup d = false := by
  rw [survives_eq_true_iff, survives_eq_true_iff, unexcused_cover_iff]
  exact or_and_right

/-- A definition that only its member keeps out of the report is not in it. -/
theorem OnlyForeign.survives_eq_false {g : SymbolGraph} {unit : UnitId} {d : Definition}
    (h : OnlyForeign g unit d) (lookup : Option (UnitId → Span → Bool)) :
    survives g .resolve lookup d = false := by
  rw [Bool.eq_false_iff]
  intro hsurvives
  obtain ⟨member, hdecl, rfl, _⟩ := h.member
  have hrules := ((survives_eq_true_iff g .resolve lookup d).1 hsurvives).1
  have hcovered := (hrules.notImplementation member hdecl).2.2
  rw [List.contains_iff_mem] at hcovered
  exact h.notCovered hcovered

/-- What is reported once a unit is covered is what was reported before, and the
definitions that only the missing unit kept out. -/
theorem reported_cover (g : SymbolGraph) (unit : UnitId)
    (lookup : Option (UnitId → Span → Bool)) :
    ∃ added : List Definition, added.Sublist (candidates g) ∧
      (∀ d, d ∈ added ↔
        d ∈ candidates g ∧ OnlyForeign g unit d ∧ isMuted lookup d = false) ∧
      (reported (g.cover unit) .resolve lookup).Perm
        (reported g .resolve lookup ++ added) := by
  have hold : (reported (g.cover unit) .resolve lookup).filter
      (survives g .resolve lookup) = reported g .resolve lookup := by
    rw [reported, candidates_cover, List.filter_filter, reported]
    refine List.filter_congr ?_
    intro d _
    rw [Bool.eq_iff_iff, Bool.and_eq_true, survives_cover_iff]
    exact and_iff_left_of_imp Or.inl
  refine ⟨(reported (g.cover unit) .resolve lookup).filter
    fun d => !survives g .resolve lookup d, ?_, ?_, ?_⟩
  · have hcandidates : (reported (g.cover unit) .resolve lookup).Sublist (candidates g) := by
      rw [reported, candidates_cover]
      exact List.filter_sublist
    exact List.filter_sublist.trans hcandidates
  · intro d
    rw [List.mem_filter, reported, candidates_cover, List.mem_filter, survives_cover_iff,
      Bool.not_eq_true']
    constructor
    · rintro ⟨⟨hd, hnew⟩, hnot⟩
      exact ⟨hd, hnew.resolve_left (Bool.eq_false_iff.1 hnot)⟩
    · rintro ⟨hd, hforeign, hmuted⟩
      exact ⟨⟨hd, Or.inr ⟨hforeign, hmuted⟩⟩, hforeign.survives_eq_false lookup⟩
  · rw [← hold]
    exact (List.filter_append_perm _ _).symm

theorem reported_cover_always (g : SymbolGraph) (unit : UnitId)
    (lookup : Option (UnitId → Span → Bool)) :
    reported (g.cover unit) .always lookup = reported g .always lookup := by
  rw [reported_always, reported_always, reported, reported, candidates_cover,
    List.filter_filter, List.filter_filter]
  refine List.filter_congr ?_
  intro d _
  -- What covering adds implements a member, so none of it is left.
  rw [Bool.eq_iff_iff]
  simp only [Bool.and_eq_true, survives_cover_iff, decide_eq_true_iff]
  constructor
  · rintro ⟨hnone, hsurvives | ⟨hforeign, _⟩⟩
    · exact ⟨hnone, hsurvives⟩
    · obtain ⟨member, hdecl, _⟩ := hforeign.member
      rw [hnone] at hdecl
      cases hdecl
  · rintro ⟨hnone, hsurvives⟩
    exact ⟨hnone, Or.inl hsurvives⟩

/-! ## What a change does to the report -/

/-- The report on a graph, with a pure lookup of macro input. -/
def reportWith (g : SymbolGraph) (policy : Policy)
    (lookup : Option (UnitId → Span → Bool)) (workers : Option Int) : List Finding :=
  (report g policy (.ofLookup lookup) workers : Id (List Finding))

theorem reportWith_eq (g : SymbolGraph) (policy : Policy)
    (lookup : Option (UnitId → Span → Bool)) (workers : Option Int) :
    reportWith g policy lookup workers =
      Finding.inOrder ((reported g policy lookup).map finding) :=
  report_ofLookup g policy lookup workers

theorem reportWith_sublist {g g' : SymbolGraph} {policy policy' : Policy}
    {lookup : Option (UnitId → Span → Bool)} (workers : Option Int)
    (h : (reported g policy lookup).Sublist (reported g' policy' lookup)) :
    (reportWith g policy lookup workers).Sublist (reportWith g' policy' lookup workers) := by
  rw [reportWith_eq, reportWith_eq]
  exact Finding.inOrder_sublist (h.map finding)

/-- How the report on a graph reacts to a reference, to a covered unit and to the
policy. -/
structure Reacts (g : SymbolGraph) (lookup : Option (UnitId → Span → Bool))
    (workers : Option Int) : Prop where
  /-- A report is the list of the definitions that are reported, put in order. -/
  listed : ∀ g' policy, reportWith g' policy lookup workers =
    Finding.inOrder ((reported g' policy lookup).map finding)
  /-- A reference takes out its target and the implementations of its target. -/
  reference : ∀ policy r, reported (g.addReference r) policy lookup =
    (reported g policy lookup).filter fun d =>
      d.id ≠ r.target ∧ d.declaration ≠ some r.target
  reference_sublist : ∀ policy r,
    (reportWith (g.addReference r) policy lookup workers).Sublist
      (reportWith g policy lookup workers)
  /-- A covered unit puts in the implementations of its members that only the missing
  unit kept out. -/
  cover : ∀ unit, ∃ added : List Definition, added.Sublist (candidates g) ∧
    (∀ d, d ∈ added ↔
      d ∈ candidates g ∧ OnlyForeign g unit d ∧ isMuted lookup d = false) ∧
    (reported (g.cover unit) .resolve lookup).Perm (reported g .resolve lookup ++ added)
  cover_always : ∀ unit,
    reportWith (g.cover unit) .always lookup workers = reportWith g .always lookup workers
  cover_sublist : ∀ policy unit, (reportWith g policy lookup workers).Sublist
    (reportWith (g.cover unit) policy lookup workers)
  /-- The stricter policy keeps the definitions that implement nothing. -/
  always : reported g .always lookup =
    (reported g .resolve lookup).filter fun d => d.declaration = none
  always_sublist : (reportWith g .always lookup workers).Sublist
    (reportWith g .resolve lookup workers)

/-- The report on every graph whose definitions stand under their identities reacts in
this way, with every lookup of macro input and every number of workers. -/
theorem report_reacts {g : SymbolGraph} (hg : g.SelfKeyed)
    (lookup : Option (UnitId → Span → Bool)) (workers : Option Int) :
    Reacts g lookup workers := by
  have hcover : ∀ unit, reportWith (g.cover unit) .always lookup workers =
      reportWith g .always lookup workers := by
    intro unit
    rw [reportWith_eq, reportWith_eq, reported_cover_always]
  refine
    { listed := fun g' policy => reportWith_eq g' policy lookup workers
      reference := fun policy r => reported_addReference hg r policy lookup
      reference_sublist := ?_
      cover := fun unit => reported_cover g unit lookup
      cover_always := hcover
      cover_sublist := ?_
      always := reported_always g lookup
      always_sublist := ?_ }
  · intro policy r
    apply reportWith_sublist
    rw [reported_addReference hg]
    exact List.filter_sublist
  · intro policy unit
    cases policy with
    | resolve =>
        apply reportWith_sublist
        rw [reported, reported, candidates_cover]
        refine List.monotone_filter_right _ ?_
        intro d hd
        exact (survives_cover_iff g unit lookup d).2 (Or.inl hd)
    | always => rw [hcover unit]
  · apply reportWith_sublist
    rw [reported_always]
    exact List.filter_sublist

/-- A program that implements a method of a library which is not covered, and whose
entry function is called. -/
def memberGraph : SymbolGraph :=
  let place (line : Int) : Span := ⟨"src/main.rs", line, 1, line, 9⟩
  let program : Dump :=
    ⟨"draw.json", ⟨⟨"draw", ⟨2, 2⟩, [⟨1, "shape", ⟨1, 1⟩⟩]⟩, "/work/draw"⟩,
      [⟨"Function", "main", ⟨0, 1⟩, place 1, none, none⟩,
       ⟨"Method", "area", ⟨0, 2⟩, place 3, none, some ⟨1, 7⟩⟩,
       ⟨"Function", "scale", ⟨0, 3⟩, place 9, none, none⟩],
      []⟩
  (SymbolGraph.empty.addUnit program).graph.addReference
    ⟨"Function", ⟨⟨2, 2⟩, 1⟩, place 12⟩

theorem report_reacts_memberGraph :
    Reacts memberGraph none (some 2) ∧ Reacts (memberGraph.cover ⟨1, 1⟩) none (some 2) ∧
      (reported memberGraph .resolve none).map Definition.name = ["scale"] ∧
      (reported (memberGraph.cover ⟨1, 1⟩) .resolve none).map Definition.name =
        ["area", "scale"] := by
  have hself : memberGraph.SelfKeyed :=
    SymbolGraph.selfKeyed_after [.addUnit _, .addReference _]
  -- Covering a unit leaves the definitions as they are.
  have hcovered : (memberGraph.cover ⟨1, 1⟩).SelfKeyed := hself
  exact ⟨report_reacts hself none (some 2), report_reacts hcovered none (some 2),
    by decide +kernel, by decide +kernel⟩

end Detector

end DeadSymbols
