import Mathlib
import DeadSymbols.Proofs.Batches
import DeadSymbols.Proofs.RegionLookup

/-!
# Reports made in any order

Workers that share one cache take batches of candidates in an order that nobody
fixes.  `reportInOrder` is the report made by evaluating the batches in a given order
and putting their findings back in the order of the batches; with the batches in
their own order it is the report (`reportInOrder_range`).

Which keys the evaluation of a batch asks for, and which of its candidates it keeps,
is fixed by the files and the cache that all batches start from.  So every order asks
for the same keys and puts together the same findings, and the cache is left with the
same answers.

## Main results

* `reportInOrder_range` — the order of the batches is one of the orders.
* `report_schedule_independent` — one outcome for all numbers of workers and all
  orders.
-/

namespace DeadSymbols.Detector

open RegionCache

/-- An order in which `n` batches are worked on, each of them once. -/
structure Schedule (n : Nat) where
  order : List Nat
  perm : order.Perm (List.range n)

/-- The schedule that takes batches as they stand. -/
def Schedule.inTurn (n : Nat) : Schedule n := ⟨List.range n, .refl _⟩

section

variable {m : Type → Type} [Monad m]

/-- The findings of batches that are evaluated in an order, each with the number of
its batch. -/
def evaluateInOrder (g : SymbolGraph) (policy : Policy) (source : Source m)
    (bs : List (List Definition)) : List Nat → m (List (Nat × List Finding))
  | [] => pure []
  | i :: order => do
    let found ← evaluate g policy source (bs.getD i [])
    let rest ← evaluateInOrder g policy source bs order
    return (i, found) :: rest

/-- Numbered findings, put together by the numbers from a first one on. -/
def collect (first count : Nat) (parts : List (Nat × List Finding)) : List Finding :=
  (List.range' first count).flatMap fun i => (parts.lookup i).getD []

/-- The report on a graph, made by evaluating the batches in an order. -/
def reportInOrder (g : SymbolGraph) (policy : Policy) (source : Source m)
    (workers : Option Int) (order : List Nat) : m (List Finding) := do
  let bs := batches workers (candidates g)
  let parts ← evaluateInOrder g policy source bs order
  return Finding.inOrder (collect 0 bs.length parts)

private theorem collect_cons (first count : Nat) (found : List Finding)
    (parts : List (Nat × List Finding)) :
    collect first (count + 1) ((first, found) :: parts) =
      found ++ collect (first + 1) count parts := by
  have hrest : ∀ i ∈ List.range' (first + 1) count,
      (((first, found) :: parts).lookup i).getD [] = (parts.lookup i).getD [] := by
    intro i hi
    have hne : i ≠ first := by
      rw [List.mem_range'_1] at hi
      omega
    rw [List.lookup_cons, beq_false_of_ne hne]
  rw [collect, List.range'_succ, List.flatMap_cons, List.lookup_cons_self,
    Option.getD_some, List.flatMap_congr hrest]
  rfl

private theorem evaluateInOrder_range' [LawfulMonad m] (g : SymbolGraph)
    (policy : Policy) (source : Source m) {β : Type} (before bs : List (List Definition))
    (k : List Finding → m β) :
    (do
      let parts ← evaluateInOrder g policy source (before ++ bs)
        (List.range' before.length bs.length)
      k (collect before.length bs.length parts)) =
      evaluateBatches g policy source bs >>= k := by
  induction bs generalizing before k with
  | nil => simp [evaluateInOrder, evaluateBatches, collect]
  | cons b bs ih =>
      have hhead : (before ++ b :: bs).getD before.length [] = b := by
        simp
      have hsplit : before ++ b :: bs = (before ++ [b]) ++ bs := by simp
      have hnext : before.length + 1 = (before ++ [b]).length := by simp
      rw [List.length_cons, List.range'_succ, evaluateInOrder, hhead, evaluateBatches]
      simp only [bind_assoc, pure_bind, collect_cons]
      refine bind_congr fun found => ?_
      rw [hsplit, hnext]
      exact ih (before ++ [b]) fun rest => k (found ++ rest)

/-- A report is made by evaluating the batches in turn. -/
theorem reportInOrder_range [LawfulMonad m] (g : SymbolGraph) (policy : Policy)
    (source : Source m) (workers : Option Int) :
    reportInOrder g policy source workers
        (Schedule.inTurn (batches workers (candidates g)).length).order =
      report g policy source workers := by
  have h := evaluateInOrder_range' g policy source [] (batches workers (candidates g))
    (fun found => pure (Finding.inOrder found))
  rw [List.nil_append, List.length_nil, ← List.range_eq_range'] at h
  exact h

end

/-! ## What every order asks for and finds -/

variable {parse : Source.Parser}

private theorem flatMap_range_getD {α β : Type} (f : List α → List β)
    (bs : List (List α)) :
    (List.range bs.length).flatMap (fun i => f (bs.getD i [])) = bs.flatMap f := by
  have hbs : (List.range bs.length).map (fun i => bs.getD i []) = bs := by
    apply List.ext_getElem
    · simp
    · intro i hi _
      have hlt : i < bs.length := by simpa using hi
      simp [hlt]
  conv_rhs => rw [← hbs, List.flatMap_map]

theorem found_flatten (g : SymbolGraph) (policy : Policy)
    (lookup : UnitId → Span → Bool) (bs : List (List Definition)) :
    found g policy lookup bs.flatten = bs.flatMap (found g policy lookup) := by
  induction bs with
  | nil => rfl
  | cons b bs ih =>
      rw [List.flatten_cons, List.flatMap_cons, ← ih, found, List.filter_append,
        List.map_append]
      rfl

theorem asked_flatten (g : SymbolGraph) (policy : Policy)
    (bs : List (List Definition)) :
    asked g policy bs.flatten = bs.flatMap (asked g policy) := by
  induction bs with
  | nil => rfl
  | cons b bs ih => rw [List.flatten_cons, List.flatMap_cons, ← ih, asked_append]

private theorem asks_evaluateInOrder (parse : Source.Parser) (g : SymbolGraph)
    (policy : Policy) (bs : List (List Definition)) (order : List Nat) (c : RegionCache)
    (w : World) :
    Asks parse (evaluateInOrder g policy (RegionCache.source parse) bs order) c w
      (order.flatMap fun i => asked g policy (bs.getD i []))
      (order.map fun i => (i, found g policy (inside parse w.files c) (bs.getD i []))) := by
  induction order generalizing c w with
  | nil => exact .pure [] c w
  | cons i order ih =>
      rw [evaluateInOrder, List.flatMap_cons, List.map_cons]
      refine (asks_evaluate g policy (bs.getD i []) c w).bind ?_
      intro c' w' hfiles hremembers
      have hrest := ih c' w'
      rw [hfiles, hremembers.inside_eq] at hrest
      exact hrest.bind_pure ((i, found g policy (inside parse w.files c) (bs.getD i [])) :: ·)

private theorem collect_schedule {n : Nat} (s : Schedule n) (f : Nat → List Finding) :
    collect 0 n (s.order.map fun i => (i, f i)) = (List.range n).flatMap f := by
  rw [collect, ← List.range_eq_range']
  refine List.flatMap_congr ?_
  intro i hi
  rw [List.lookup_graph f (s.perm.mem_iff.2 hi), Option.getD_some]

/-- In whatever order the batches are evaluated, the report asks for the keys of all
candidates and lists those that a pure lookup keeps. -/
theorem asks_reportInOrder (parse : Source.Parser) (g : SymbolGraph) (policy : Policy)
    (workers : Option Int) (s : Schedule (batches workers (candidates g)).length)
    (c : RegionCache) (w : World) :
    Asks parse (reportInOrder g policy (RegionCache.source parse) workers s.order) c w
      (asked g policy (candidates g))
      (Finding.inOrder (found g policy (inside parse w.files c) (candidates g))) := by
  have hflatten := flatten_batches workers (candidates g)
  have hrun :=
    asks_evaluateInOrder parse g policy (batches workers (candidates g)) s.order c w
  have hreport := hrun.bind_pure fun parts =>
    Finding.inOrder (collect 0 (batches workers (candidates g)).length parts)
  rw [collect_schedule, flatMap_range_getD, ← found_flatten, hflatten] at hreport
  refine hreport.congr ?_
  intro k
  rw [(s.perm.flatMap_right _).mem_iff, flatMap_range_getD, ← asked_flatten, hflatten]

/-- So does the report itself. -/
theorem asks_report (parse : Source.Parser) (g : SymbolGraph) (policy : Policy)
    (workers : Option Int) (c : RegionCache) (w : World) :
    Asks parse (report g policy (RegionCache.source parse) workers) c w
      (asked g policy (candidates g))
      (Finding.inOrder (found g policy (inside parse w.files c) (candidates g))) := by
  have hinTurn := asks_reportInOrder parse g policy workers (.inTurn _) c w
  rw [reportInOrder_range] at hinTurn
  exact hinTurn

/-! ## One outcome -/

/-- What a session with a cache comes to: a list and what the cache then remembers for
each key, or nothing if the session fails. -/
abbrev Outcome := Option (List Finding × (UnitId × String → Option RegionSet))

/-- A session, started with a cache in a world, comes to an outcome and changes neither
the files nor where they are looked for. -/
def ComesTo (x : Lookup (List Finding)) (c : RegionCache) (w : World) : Outcome → Prop
  | some (found, sets) => ∃ c' w', (x.run c).run.run w = (.ok (found, c'), w') ∧
      c'.root = c.root ∧ w'.files = w.files ∧ ∀ k, c'.sets.get? k = sets k
  | none => ∃ e w', (x.run c).run.run w = (.error e, w')

/-- The outcome of asking for keys and then giving a list. -/
def outcome (parse : Source.Parser) (files : FileTree) (c : RegionCache)
    (ks : List (UnitId × String))
    (found : List Finding) : Outcome :=
  if ks.all fun k => (known parse files c k).toOption.isSome then
    some (found, fun k =>
      if k ∈ ks then (known parse files c k).toOption else c.sets.get? k)
  else none

private theorem outcome_of_answers {files : FileTree} {c : RegionCache}
    {ks : List (UnitId × String)} (h : ∀ k ∈ ks, ∃ set, known parse files c k = .ok set)
    (found : List Finding) :
    outcome parse files c ks found = some (found, fun k =>
      if k ∈ ks then (known parse files c k).toOption else c.sets.get? k) := by
  refine if_pos (List.all_eq_true.2 ?_)
  intro k hk
  obtain ⟨set, hset⟩ := h k hk
  rw [hset]
  rfl

private theorem outcome_of_error {files : FileTree} {c : RegionCache}
    {ks : List (UnitId × String)} {k : UnitId × String} (hk : k ∈ ks) {e : Error}
    (h : known parse files c k = .error e) (found : List Finding) :
    outcome parse files c ks found = none := by
  refine if_neg ?_
  intro hall
  have hsome := List.all_eq_true.1 hall k hk
  rw [h] at hsome
  contradiction

/-- A session that asks for keys comes to their outcome. -/
theorem comesTo_outcome {x : Lookup (List Finding)} {c : RegionCache}
    {w : World} {ks : List (UnitId × String)} {found : List Finding}
    (hx : Asks parse x c w ks found) : ComesTo x c w (outcome parse w.files c ks found) := by
  cases hx with
  | answered c' records answers run remembers =>
      rw [outcome_of_answers answers]
      exact ⟨c', _, run, remembers.root, rfl, remembers.sets⟩
  | failed k e w' mem error run =>
      rw [outcome_of_error mem error]
      exact ⟨e, w', run⟩

/-- A session that asks a question that is refused fails. -/
theorem comesTo_none_of_refuses (hparse : parse.Lawful) {x : Lookup (List Finding)}
    {c : RegionCache} {w : World} {ks : List (UnitId × String)} {found : List Finding}
    {k : UnitId × String} (hx : Asks parse x c w ks found) (hk : k ∈ ks)
    (h : c.Refuses k) : ComesTo x c w none := by
  have hcomes := comesTo_outcome hx
  rwa [outcome_of_error hk (known_of_refuses hparse w.files h)] at hcomes

/-- The batches of a list for some workers: consecutive slices of a quarter of a
worker's share each, rounded up, that make up the list, at most four for each
worker. -/
structure IsDivision (workers : Int) (items : List Definition)
    (bs : List (List Definition)) : Prop where
  flatten : bs.flatten = items
  length_le : (bs.length : Int) ≤ 4 * workers
  slices : ∀ i, bs[i]? =
    let size := max 1 (items.length ⌈/⌉ (4 * workers.toNat))
    if i * size < items.length then some ((items.drop (i * size)).take size) else none

private theorem isDivision_batches {workers : Int} {items : List Definition}
    (hworkers : 2 ≤ workers) (hitems : 2 ≤ items.length) :
    IsDivision workers items (batches (some workers) items) := by
  refine ⟨flatten_batches _ _, length_batches_le hworkers hitems, ?_⟩
  intro i
  rw [getElem?_batches hworkers hitems, batchSize_eq_ceilDiv]

/-- A report made through a shared cache comes to one outcome, whatever the number of
workers and in whatever order the batches are evaluated: the same list and the same
answers in the cache.

The outcome is the list that a pure lookup in the same files gives, unless the question
for the source of a candidate is refused, because its path has the character that no
path may hold; then there is no report.  With two workers or more, and two candidates or
more, the batches divide the candidates. -/
theorem report_schedule_independent (hparse : parse.Lawful) (g : SymbolGraph)
    (policy : Policy) (c : RegionCache) (w : World) :
    (∃ one : Outcome,
      (∀ workers, ComesTo (report g policy (RegionCache.source parse) workers) c w one) ∧
      (∀ workers (s : Schedule (batches workers (candidates g)).length),
        ComesTo (reportInOrder g policy (RegionCache.source parse) workers s.order) c w
          one) ∧
      ((∀ k ∈ asked g policy (candidates g), ¬c.Refuses k) →
        ∃ sets, one = some
          ((report g policy (.ofLookup (some (inside parse w.files c))) none :
            Id (List Finding)), sets)) ∧
      ((∃ k ∈ asked g policy (candidates g), c.Refuses k) → one = none)) ∧
    ∀ workers : Int, 2 ≤ workers → 2 ≤ (candidates g).length →
      IsDivision workers (candidates g) (batches (some workers) (candidates g)) := by
  have hscheduled : ∀ workers (s : Schedule (batches workers (candidates g)).length),
      ComesTo (reportInOrder g policy (RegionCache.source parse) workers s.order) c w
        (outcome parse w.files c (asked g policy (candidates g))
          (Finding.inOrder (found g policy (inside parse w.files c) (candidates g)))) :=
    fun workers s => comesTo_outcome (asks_reportInOrder parse g policy workers s c w)
  refine ⟨⟨_, ?_, hscheduled, ?_, ?_⟩, fun workers => isDivision_batches⟩
  · intro workers
    have hinTurn := hscheduled workers (.inTurn _)
    rw [reportInOrder_range] at hinTurn
    exact hinTurn
  · intro hasked
    rw [outcome_of_answers fun k hk => exists_known hparse w.files (hasked k hk),
      report_ofLookup]
    exact ⟨_, rfl⟩
  · rintro ⟨k, hk, hrefuses⟩
    exact outcome_of_error hk (known_of_refuses hparse w.files hrefuses) _

/-- Two functions in one file, the second of them in the input of a macro. -/
def sampleGraph : SymbolGraph :=
  let function (name : String) (index line : Int) : Definition :=
    ⟨"Function", name, ⟨⟨1, 1⟩, index⟩, ⟨"lib.rs", line, 4, line, 8⟩, none, none⟩
  (SymbolGraph.empty.addDefinition (function "area" 1 1)).addDefinition
    (function "edge" 2 3)

/-- The file that the two functions are in. -/
def sampleSources : FileTree :=
  ⟨[], [(["lib.rs"], .file (Text.toBytes "fn area();\nshapes! (\nfn edge();\n);\n"))]⟩

theorem asked_sampleGraph : asked sampleGraph .resolve (candidates sampleGraph) =
    [(⟨1, 1⟩, "lib.rs"), (⟨1, 1⟩, "lib.rs")] := by
  decide +kernel

theorem report_schedule_independent_sampleGraph :
    ∃ found sets,
      ComesTo (report sampleGraph .resolve (RegionCache.source Source.parser) none)
        (.fresh .here) ⟨sampleSources, []⟩ (some (found, sets)) ∧
      ComesTo (reportInOrder sampleGraph .resolve (RegionCache.source Source.parser)
        (some 2) [1, 0]) (.fresh .here) ⟨sampleSources, []⟩ (some (found, sets)) := by
  have hlength : (batches (some 2) (candidates sampleGraph)).length = 2 := by
    decide +kernel
  obtain ⟨⟨one, hreport, hscheduled, hreturns, _⟩, _⟩ :=
    report_schedule_independent Source.parser_lawful sampleGraph .resolve (.fresh .here)
      ⟨sampleSources, []⟩
  have hasked : ∀ k ∈ asked sampleGraph .resolve (candidates sampleGraph),
      ¬(RegionCache.fresh .here).Refuses k := by
    rw [asked_sampleGraph]
    decide +kernel
  obtain ⟨sets, rfl⟩ := hreturns hasked
  have hperm :
      [1, 0].Perm (List.range (batches (some 2) (candidates sampleGraph)).length) := by
    rw [hlength]
    decide
  exact ⟨_, sets, hreport none, hscheduled (some 2) ⟨[1, 0], hperm⟩⟩

/-- A report on files of ordinary names can fail, with one worker and with two. -/
theorem no_report_nulRoot :
    sampleGraph.definitions.values.map (·.span.file) = ["lib.rs", "lib.rs"] ∧
      ComesTo (report sampleGraph .resolve (RegionCache.source Source.parser) (some 1))
        (.fresh nulRoot) ⟨sampleSources, []⟩ none ∧
      ComesTo (report sampleGraph .resolve (RegionCache.source Source.parser) (some 2))
        (.fresh nulRoot) ⟨sampleSources, []⟩ none := by
  have hnone (workers : Option Int) :
      ComesTo (report sampleGraph .resolve (RegionCache.source Source.parser) workers)
        (.fresh nulRoot) ⟨sampleSources, []⟩ none :=
    comesTo_none_of_refuses Source.parser_lawful (asks_report _ _ _ workers _ _)
      (asked_sampleGraph ▸ List.mem_cons_self) (by decide +kernel)
  exact ⟨by decide +kernel, hnone (some 1), hnone (some 2)⟩

end DeadSymbols.Detector
