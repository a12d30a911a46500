import Mathlib
import DeadSymbols.Proofs.RegionHistory
import DeadSymbols.Proofs.Schedule

/-!
# Which sources a report consults

A report looks at a source only to ask about a definition that nothing refers to and
that no rule of the graph excuses.  `Consults` says which definitions these are, and
`sourceKey` under which key the answer is remembered.  A report that starts with an
empty cache leaves exactly the keys of these definitions in it, whatever the number of
workers and the order of the batches.

What is read at a path depends on one entry of the tree and on which entries are
directories.  So source files can be written, made and removed elsewhere without any
difference to what is read at the consulted paths (`toOption_read_of_changedOutside`),
and hence to the report.

## Main results

* `FileTree.toOption_read_of_changedOutside` — reading in a changed tree.
* `Detector.mem_asked_iff` — which keys are asked for.
* `Detector.consulted_exactly` — what the cache holds, and what cannot matter.
-/

namespace DeadSymbols

/-- What a file holds; a directory holds nothing. -/
def Entry.content? : Entry → Option Text.Bytes
  | .file content => some content
  | .directory => none

namespace FileTree

variable {t t' : FileTree} {p : Path}

/-! ## Reading in a changed tree -/

/-- The second tree is the first with source files written, made or removed.  Both are
seen from one location.  Where they differ neither has a directory, and none of the
given paths leads there. -/
structure ChangedOutside (paths : Path → Prop) (t t' : FileTree) : Prop where
  cwd : t'.cwd = t.cwd
  elsewhere : ∀ place, t'.entry? place = t.entry? place ∨
    t.entry? place ≠ some .directory ∧ t'.entry? place ≠ some .directory ∧
      ∀ p, paths p → t.locate p ≠ .ok place

private theorem toOption_walk_cons {start : Location} (name : String)
    (rest : List String) (h : t.entry? start ≠ some .directory) :
    (t.walk start (name :: rest)).toOption = none := by
  rw [walk]
  cases hentry : t.entry? start with
  | none => rfl
  | some entry =>
      cases entry with
      | file content => rfl
      | directory => exact absurd hentry h

/-- A walk that arrives goes through directories only, so other entries do not matter to
it. -/
theorem toOption_walk_congr
    (h : ∀ place, t'.entry? place = t.entry? place ∨
      t.entry? place ≠ some .directory ∧ t'.entry? place ≠ some .directory)
    (start : Location) (names : List String) :
    (t'.walk start names).toOption = (t.walk start names).toOption := by
  induction names generalizing start with
  | nil => rfl
  | cons name rest ih =>
      rcases h start with hsame | ⟨hold, hnew⟩
      · rw [walk, walk, hsame]
        cases t.entry? start with
        | none => rfl
        | some entry =>
            cases entry with
            | file content => rfl
            | directory =>
                dsimp only
                by_cases hlong : maxName < name.utf8ByteSize
                · rw [if_pos hlong, if_pos hlong]
                · rw [if_neg hlong, if_neg hlong]
                  by_cases hup : name = ".."
                  · rw [if_pos hup, if_pos hup]
                    exact ih start.dropLast
                  · rw [if_neg hup, if_neg hup]
                    exact ih (start ++ [name])
      · rw [toOption_walk_cons name rest hold, toOption_walk_cons name rest hnew]

theorem toOption_read (t : FileTree) (p : Path) :
    (t.read p).toOption =
      (t.locate p).toOption.bind fun place => (t.entry? place).bind Entry.content? := by
  rw [read, stat]
  cases t.locate p with
  | error fault => rfl
  | ok place =>
      show _ = (t.entry? place).bind Entry.content?
      cases hentry : t.entry? place with
      | none => simp only [hentry]; rfl
      | some entry => cases entry <;> simp only [hentry] <;> rfl

/-- Changes elsewhere do not show at a path. -/
theorem toOption_read_of_changedOutside {paths : Path → Prop}
    (h : ChangedOutside paths t t') (hp : paths p) :
    (t'.read p).toOption = (t.read p).toOption := by
  have hlocate : (t'.locate p).toOption = (t.locate p).toOption := by
    have hwalk := toOption_walk_congr
      (fun place => (h.elsewhere place).imp id fun hother => ⟨hother.1, hother.2.1⟩)
      (if p.isAbsolute then [] else t.cwd) p.parts
    rw [locate, locate, h.cwd]
    split
    · rfl
    · split
      · rfl
      · exact hwalk
  rw [toOption_read, toOption_read, hlocate]
  cases hplace : t.locate p with
  | error fault => rfl
  | ok place =>
      show (t'.entry? place).bind Entry.content? = (t.entry? place).bind Entry.content?
      rcases h.elsewhere place with hsame | ⟨_, _, hother⟩
      · rw [hsame]
      · exact absurd hplace (hother p hp)

end FileTree

namespace RegionCache

variable {parse : Source.Parser}

/-! ## What a key is answered -/

/-- What a file shows depends on what can be read at its path. -/
theorem shown_congr {files files' : FileTree} {path : Path}
    (h : (files'.read path).toOption = (files.read path).toOption) :
    shown parse files' path = shown parse files path := by
  rw [shown, shown]
  split
  · rfl
  · cases hread : files.read path <;> cases hread' : files'.read path <;>
      simp_all [Except.toOption]

/-- What a key is answered depends on what can be read at its path. -/
theorem toOption_known_congr {files files' : FileTree} {c : RegionCache}
    {k : UnitId × String}
    (h : (files'.read (pathOf c.root k)).toOption =
      (files.read (pathOf c.root k)).toOption) :
    (known parse files' c k).toOption = (known parse files c k).toOption := by
  rw [known, known]
  cases c.sets.get? k with
  | some set => rfl
  | none =>
      dsimp only
      rw [toOption_find, toOption_find, shown_congr h]

end RegionCache

namespace Detector

open RegionCache

variable {parse : Source.Parser}

/-! ## Which keys are asked for -/

/-- A report asks about the source of a definition: the definition is stored under an
identity that no reference targets, and no rule that needs no source applies to it. -/
structure Consults (g : SymbolGraph) (policy : Policy) (d : Definition) : Prop where
  stored : ∃ id, (id, d) ∈ g.definitions.entries ∧ id ∉ g.used
  unexcused : Unexcused g policy d

/-- The key under which the regions of a definition's source are remembered. -/
def sourceKey (d : Definition) : UnitId × String := (d.id.unit, d.span.file)

/-- Where the source of a definition is looked for. -/
def sourcePath (root : Path) (d : Definition) : Path := pathOf root (sourceKey d)

theorem mem_asked_iff {g : SymbolGraph} {policy : Policy} {k : UnitId × String} :
    k ∈ asked g policy (candidates g) ↔ ∃ d, Consults g policy d ∧ sourceKey d = k := by
  have hcandidate : ∀ d, d ∈ candidates g ↔
      ∃ id, (id, d) ∈ g.definitions.entries ∧ id ∉ g.used := by
    intro d
    simp [candidates, SymbolGraph.isUsed, SymbolGraph.used, ← Bool.not_eq_true,
      Ledger.has_eq_true_iff]
  simp only [asked, List.mem_map, List.mem_filter, Option.isNone_iff_eq_none,
    graphReason_eq_none_iff, hcandidate]
  constructor
  · rintro ⟨d, ⟨hstored, hunexcused⟩, rfl⟩
    exact ⟨d, ⟨hstored, hunexcused⟩, rfl⟩
  · rintro ⟨d, ⟨hstored, hunexcused⟩, rfl⟩
    exact ⟨d, ⟨hstored, hunexcused⟩, rfl⟩

/-! ## Reports -/

/-- The sessions that make the report on a graph: with any number of workers, batch by
batch in turn or in another order. -/
inductive Reports (parse : Source.Parser) (g : SymbolGraph) (policy : Policy) :
    Lookup (List Finding) → Prop
  | inTurn (workers : Option Int) :
      Reports parse g policy (report g policy (RegionCache.source parse) workers)
  | scheduled (workers : Option Int)
      (s : Schedule (batches workers (candidates g)).length) :
      Reports parse g policy (reportInOrder g policy (RegionCache.source parse) workers s.order)

theorem Reports.asks {g : SymbolGraph} {policy : Policy} {x : Lookup (List Finding)}
    (h : Reports parse g policy x) (c : RegionCache) (w : World) :
    Asks parse x c w (asked g policy (candidates g))
      (Finding.inOrder (found g policy (inside parse w.files c) (candidates g))) := by
  cases h with
  | inTurn workers => exact asks_report parse g policy workers c w
  | scheduled workers s => exact asks_reportInOrder parse g policy workers s c w

/-- If the consulted keys are answered the same, a report comes to the same. -/
theorem outcome_congr {g : SymbolGraph} {policy : Policy} {files files' : FileTree}
    {c : RegionCache} (h : ∀ k ∈ asked g policy (candidates g),
      (known parse files' c k).toOption = (known parse files c k).toOption) :
    outcome parse files' c (asked g policy (candidates g))
        (Finding.inOrder (found g policy (inside parse files' c) (candidates g))) =
      outcome parse files c (asked g policy (candidates g))
        (Finding.inOrder (found g policy (inside parse files c) (candidates g))) := by
  have hsurvives : ∀ d ∈ candidates g,
      survives g policy (some (inside parse files' c)) d =
        survives g policy (some (inside parse files c)) d := by
    intro d hd
    rw [survives, survives]
    cases hreason : graphReason g policy d with
    | some r => rw [Option.isNone_some, Bool.false_and, Bool.false_and]
    | none =>
        have hasked : (d.id.unit, d.span.file) ∈ asked g policy (candidates g) :=
          List.mem_map.2 ⟨d, List.mem_filter.2 ⟨hd, by rw [hreason]; rfl⟩, rfl⟩
        have hinside :
            inside parse files' c d.id.unit d.span = inside parse files c d.id.unit d.span := by
          rw [inside, inside, answer, answer, h _ hasked]
        rw [isMuted, isMuted, Option.any_some, Option.any_some, hinside]
  have hfound : found g policy (inside parse files' c) (candidates g) =
      found g policy (inside parse files c) (candidates g) := by
    rw [found, found, List.filter_congr hsurvives]
  have hsets : (fun k => if k ∈ asked g policy (candidates g) then
        (known parse files' c k).toOption else c.sets.get? k) =
      fun k => if k ∈ asked g policy (candidates g) then
        (known parse files c k).toOption else c.sets.get? k := by
    funext k
    by_cases hk : k ∈ asked g policy (candidates g)
    · rw [if_pos hk, if_pos hk, h k hk]
    · rw [if_neg hk, if_neg hk]
  have hall : ((asked g policy (candidates g)).all fun k =>
        (known parse files' c k).toOption.isSome) =
      (asked g policy (candidates g)).all fun k => (known parse files c k).toOption.isSome := by
    rw [Bool.eq_iff_iff, List.all_eq_true, List.all_eq_true]
    exact forall₂_congr fun k hk => by rw [h k hk]
  rw [outcome, outcome, hall, hfound, hsets]

/-- A report that is answered leaves the keys that it asked for in an empty cache, and no
others. -/
theorem mem_keys_of_remembers {files : FileTree} {root : Path} {c : RegionCache}
    {ks : List (UnitId × String)} (h : Remembers parse files (.fresh root) ks c)
    (hanswers : ∀ k ∈ ks, ∃ set, known parse files (.fresh root) k = .ok set)
    (k : UnitId × String) : k ∈ c.sets.keys ↔ k ∈ ks := by
  rw [Ledger.mem_keys_iff_get?, h.sets k]
  by_cases hk : k ∈ ks
  · obtain ⟨set, hset⟩ := hanswers k hk
    rw [if_pos hk, hset]
    exact ⟨fun _ => hk, fun _ => ⟨set, rfl⟩⟩
  · rw [if_neg hk]
    refine ⟨?_, fun h => absurd h hk⟩
    rintro ⟨set, hset⟩
    cases hset

/-- In an empty cache a question is refused because of its path. -/
theorem refuses_fresh_iff {root : Path} {k : UnitId × String} :
    (RegionCache.fresh root).Refuses k ↔ (pathOf root k).holdsNul = true :=
  ⟨fun h => h.2, fun h => ⟨rfl, h⟩⟩

/-- After a report that started with an empty cache, the cache holds the keys of the
definitions that the report asks about, and no others: of those that no reference
targets and no rule of the graph excuses.  Only if the path of a source that is asked
about has the character that no path may hold is there no report; then one of these
paths is refused.

Writing, making or removing source files that no consulted path leads to changes
nothing: the report comes to the same list and the same answers, or fails as before. -/
theorem consulted_exactly (hparse : parse.Lawful) (g : SymbolGraph) (policy : Policy)
    (root : Path) (files : FileTree) :
    ((∀ d, Consults g policy d → (sourcePath root d).holdsNul = false) →
      ∀ x, Reports parse g policy x → ∀ log, ∃ found c w,
        (x.run (.fresh root)).run.run ⟨files, log⟩ = (.ok (found, c), w) ∧
          ∀ k, k ∈ c.sets.keys ↔ ∃ d, Consults g policy d ∧ sourceKey d = k) ∧
    ((∃ d, Consults g policy d ∧ (sourcePath root d).holdsNul = true) →
      ∀ x, Reports parse g policy x → ∀ log, ∃ d w,
        Consults g policy d ∧ (sourcePath root d).holdsNul = true ∧
          (x.run (.fresh root)).run.run ⟨files, log⟩ =
            (.error (.refused ⟨.nul, sourcePath root d⟩), w)) ∧
    ∀ files', FileTree.ChangedOutside
        (fun p => ∃ d, Consults g policy d ∧ sourcePath root d = p) files files' →
      ∃ one, ∀ x, Reports parse g policy x → ∀ log,
        ComesTo x (.fresh root) ⟨files, log⟩ one ∧
          ComesTo x (.fresh root) ⟨files', log⟩ one := by
  refine ⟨?_, ?_, ?_⟩
  · intro hnul x hx log
    cases hx.asks (.fresh root) ⟨files, log⟩ with
    | answered c records answers run remembers =>
        refine ⟨_, c, _, run, fun k => ?_⟩
        rw [mem_keys_of_remembers remembers answers, mem_asked_iff]
    | failed k e w mem error run =>
        obtain ⟨d, hd, rfl⟩ := mem_asked_iff.1 mem
        have hanswers : ¬(RegionCache.fresh root).Refuses (sourceKey d) := by
          rw [refuses_fresh_iff, Bool.not_eq_true]
          exact hnul d hd
        obtain ⟨set, hset⟩ := exists_known hparse files hanswers
        rw [hset] at error
        contradiction
  · rintro ⟨d, hd, hnul⟩ x hx log
    cases hx.asks (.fresh root) ⟨files, log⟩ with
    | answered c records answers run remembers =>
        obtain ⟨set, hset⟩ := answers (sourceKey d) (mem_asked_iff.2 ⟨d, hd, rfl⟩)
        rw [known_of_refuses hparse files (refuses_fresh_iff.2 hnul)] at hset
        contradiction
    | failed k e w mem error run =>
        obtain ⟨d', hd', rfl⟩ := mem_asked_iff.1 mem
        by_cases hrefuses : (RegionCache.fresh root).Refuses (sourceKey d')
        · rw [known_of_refuses hparse files hrefuses] at error
          obtain rfl := Except.error.inj error
          exact ⟨d', w, hd', refuses_fresh_iff.1 hrefuses, run⟩
        · obtain ⟨set, hset⟩ := exists_known hparse files hrefuses
          rw [hset] at error
          contradiction
  · intro files' hchanged
    refine ⟨outcome parse files (.fresh root) (asked g policy (candidates g))
      (Finding.inOrder (found g policy (inside parse files (.fresh root))
        (candidates g))), ?_⟩
    intro x hx log
    have hsame : ∀ k ∈ asked g policy (candidates g),
        (known parse files' (.fresh root) k).toOption =
          (known parse files (.fresh root) k).toOption := by
      intro k hk
      obtain ⟨d, hd, rfl⟩ := mem_asked_iff.1 hk
      exact toOption_known_congr
        (FileTree.toOption_read_of_changedOutside hchanged ⟨d, hd, rfl⟩)
    refine ⟨comesTo_outcome (hx.asks (.fresh root) ⟨files, log⟩), ?_⟩
    rw [← outcome_congr hsame]
    exact comesTo_outcome (hx.asks (.fresh root) ⟨files', log⟩)

/-- Three functions in three files: one that nothing uses, one whose name excuses it, and
one that is used. -/
def sparseGraph : SymbolGraph :=
  let function (name file : String) (slot : Int) : Definition :=
    ⟨"Function", name, ⟨⟨1, 1⟩, slot⟩, ⟨file, 2, 4, 2, 8⟩, none, none⟩
  (((SymbolGraph.empty.addDefinition (function "edge" "lib.rs" 1)).addDefinition
    (function "_spare" "spare.rs" 2)).addDefinition (function "area" "area.rs" 3)).addReference
      ⟨"Function", ⟨⟨1, 1⟩, 3⟩, ⟨"lib.rs", 9, 1, 9, 5⟩⟩

theorem asked_sparseGraph : asked sparseGraph .resolve (candidates sparseGraph) =
    [(⟨1, 1⟩, "lib.rs")] := by
  decide +kernel

theorem consults_sparseGraph_iff {k : UnitId × String} :
    (∃ d, Consults sparseGraph .resolve d ∧ sourceKey d = k) ↔ k = (⟨1, 1⟩, "lib.rs") := by
  rw [← mem_asked_iff, asked_sparseGraph, List.mem_singleton]

/-- The file of the unused function, with a file beside it that is not consulted. -/
def macroFileBeside : FileTree :=
  ⟨[], macroFile.entries ++ [(["spare.rs"], .file (Text.toBytes "fn _spare();\n"))]⟩

theorem changedOutside_macroFileBeside :
    FileTree.ChangedOutside
      (fun p => ∃ d, Consults sparseGraph .resolve d ∧ sourcePath .here d = p)
      macroFile macroFileBeside := by
  refine ⟨rfl, ?_⟩
  intro place
  by_cases hplace : place = ["spare.rs"]
  · subst hplace
    refine .inr ⟨by decide +kernel, by decide +kernel, ?_⟩
    rintro p ⟨d, hd, rfl⟩
    rw [sourcePath, consults_sparseGraph_iff.1 ⟨d, hd, rfl⟩]
    decide +kernel
  · left
    rw [FileTree.entry?, FileTree.entry?, macroFileBeside, List.lookup_append,
      List.lookup_cons, beq_false_of_ne hplace, List.lookup_nil, Option.or_none]

/-- Only the first of the three files is consulted, and it makes no difference whether
there is a second. -/
theorem consulted_exactly_sparseGraph :
    (∃ found c w, ((report sparseGraph .resolve (RegionCache.source Source.parser)
        (some 4)).run (.fresh .here)).run.run ⟨macroFile, []⟩ = (.ok (found, c), w) ∧
      ∀ k, k ∈ c.sets.keys ↔ k = (⟨1, 1⟩, "lib.rs")) ∧
    ∃ one,
      ComesTo (report sparseGraph .resolve (RegionCache.source Source.parser) (some 4))
        (.fresh .here) ⟨macroFile, []⟩ one ∧
      ComesTo (report sparseGraph .resolve (RegionCache.source Source.parser) (some 4))
        (.fresh .here) ⟨macroFileBeside, []⟩ one := by
  obtain ⟨hkeys, _, hframe⟩ :=
    consulted_exactly Source.parser_lawful sparseGraph .resolve .here macroFile
  constructor
  · have hnul : ∀ d, Consults sparseGraph .resolve d →
        (sourcePath .here d).holdsNul = false := by
      intro d hd
      rw [sourcePath, consults_sparseGraph_iff.1 ⟨d, hd, rfl⟩]
      exact holdsNul_pathOf (by decide) (by decide)
    obtain ⟨found, c, w, hrun, hcached⟩ := hkeys hnul _ (.inTurn (some 4)) []
    refine ⟨found, c, w, hrun, fun k => ?_⟩
    rw [hcached, consults_sparseGraph_iff]
  · obtain ⟨one, hone⟩ := hframe macroFileBeside changedOutside_macroFileBeside
    exact ⟨one, hone _ (.inTurn (some 4)) []⟩

/-- Files of ordinary names can have no report that leaves their keys: one of them is asked
for, and the report fails. -/
theorem nothing_consulted_nulRoot :
    sparseGraph.definitions.values.map (·.span.file) = ["lib.rs", "spare.rs", "area.rs"] ∧
      asked sparseGraph .resolve (candidates sparseGraph) = [(⟨1, 1⟩, "lib.rs")] ∧
      ComesTo (report sparseGraph .resolve (RegionCache.source Source.parser) (some 4))
        (.fresh nulRoot) ⟨macroFile, []⟩ none := by
  refine ⟨by decide +kernel, asked_sparseGraph, ?_⟩
  exact comesTo_none_of_refuses Source.parser_lawful (asks_report _ _ _ _ _ _)
    (asked_sparseGraph ▸ List.mem_cons_self) (by decide +kernel)

end Detector

end DeadSymbols
