import Mathlib
import DeadSymbols.Proofs.RegionLookup

/-!
# The first question decides

Files come and go while a cache of regions is in use.  A history is a list of events:
files and directories are made, files are removed, and the cache is asked, for the
regions of a file or about a span.  Whatever happens in between, a question is answered
from the files as they were when its key, a unit and the name of a file, was first
asked for.  A file that could not be read then has no regions, for that unit and from
then on.

One kind of question has no answer: one about a path that cannot be handed to the
system, which is decided by the name of the file and the directory that names start
from.  It fails, and nothing is remembered about it.

`Faithful` is what a history leaves behind: the cache holds what `firstShown` says, and
nothing else.  One event keeps it (`Faithful.step`), so every history does
(`faithful_after`).

## Main results

* `Faithful.known` — what a question finds.
* `Faithful.step` — one event.
* `answers_from_first` — all histories.
-/

namespace DeadSymbols

namespace RegionCache

/-! ## Histories -/

/-- What can happen around a cache. -/
inductive Event
  /-- A file is written or a directory made, with the directories above it. -/
  | create (path : Path) (entry : Entry)
  /-- A file is removed. -/
  | remove (path : Path)
  /-- The cache is asked for the regions of a file. -/
  | regions (unit : UnitId) (file : String)
  /-- The cache is asked whether a span lies in a region. -/
  | inRegion (unit : UnitId) (span : Span)

/-- What a question is answered. -/
inductive Answer
  | regions (set : RegionSet)
  | inRegion (inside : Bool)
  deriving DecidableEq

/-- A cache in a world. -/
structure Situation where
  cache : RegionCache
  world : World

/-- What a session with the cache comes to, and the situation after it. -/
def Situation.ask {α : Type} (s : Situation) (x : Lookup α) : Except Error α × Situation :=
  match (x.run s.cache).run.run s.world with
  | (.ok (a, c), w) => (.ok a, ⟨c, w⟩)
  | (.error e, w) => (.error e, ⟨s.cache, w⟩)

namespace Event

/-- The key that an event asks for. -/
def key? : Event → Option (UnitId × String)
  | .regions unit file => some (unit, file)
  | .inRegion unit span => some (unit, span.file)
  | .create _ _ | .remove _ => none

/-- The files after an event; what cannot be done leaves them as they are. -/
def change (files : FileTree) : Event → FileTree
  | .create path entry => (files.create path entry).toOption.getD files
  | .remove path => (files.remove path).toOption.getD files
  | .regions _ _ | .inRegion _ _ => files

/-- What an event is answered, if it asks something, and the situation after it. -/
def step (parse : Source.Parser) (s : Situation) :
    Event → Except Error (Option Answer) × Situation
  | .regions unit file =>
    let (outcome, s') := s.ask (lookup parse unit file)
    (outcome.map fun set => some (.regions set), s')
  | .inRegion unit span =>
    let (outcome, s') := s.ask (RegionCache.inRegion parse unit span)
    (outcome.map fun inside => some (.inRegion inside), s')
  | e => (.ok none, { s with world := { s.world with files := e.change s.world.files } })

/-- What an event is to be answered by regions. -/
def answerFrom (set : RegionSet) : Event → Option Answer
  | .regions _ _ => some (.regions set)
  | .inRegion _ span => some (.inRegion (set.containing span).isSome)
  | .create _ _ | .remove _ => none

end Event

/-- The situation after a history. -/
def Situation.after (parse : Source.Parser) (s : Situation) (events : List Event) :
    Situation :=
  events.foldl (fun s e => (e.step parse s).2) s

/-- The files after a history. -/
def filesAfter (files : FileTree) (events : List Event) : FileTree :=
  events.foldl Event.change files

/-! ## The first question -/

/-- What the file of a key showed at the first question that it had an answer to. -/
def firstShown (parse : Source.Parser) (root : Path) (k : UnitId × String)
    (files : FileTree) : List Event → Option RegionSet
  | [] => none
  | e :: rest =>
    (if e.key? = some k then shown parse files (pathOf root k) else none).or
      (firstShown parse root k (e.change files) rest)

variable {parse : Source.Parser}

section FirstShown

variable {root : Path} {k : UnitId × String} {files : FileTree} {past : List Event}
  {e : Event}

theorem firstShown_concat (root : Path) (k : UnitId × String) (files : FileTree)
    (past : List Event) (e : Event) :
    firstShown parse root k files (past ++ [e]) =
      (firstShown parse root k files past).or
        (if e.key? = some k then shown parse (filesAfter files past) (pathOf root k)
          else none) := by
  induction past generalizing files with
  | nil => exact Option.or_none
  | cons e' past ih =>
      rw [List.cons_append, firstShown, firstShown, ih (e'.change files), Option.or_assoc]
      rfl

theorem firstShown_concat_of_ne (h : e.key? ≠ some k) :
    firstShown parse root k files (past ++ [e]) = firstShown parse root k files past := by
  rw [firstShown_concat, if_neg h, Option.or_none]

/-- Nothing was shown for a key that was not asked for. -/
theorem firstShown_eq_none (h : ∀ e ∈ past, e.key? ≠ some k) :
    firstShown parse root k files past = none := by
  induction past generalizing files with
  | nil => rfl
  | cons e past ih =>
      obtain ⟨he, hpast⟩ := List.forall_mem_cons.1 h
      rw [firstShown, if_neg he, Option.none_or]
      exact ih hpast

/-- Nothing is shown for a key whose questions are refused. -/
theorem firstShown_of_holdsNul (hparse : parse.Lawful)
    (h : (pathOf root k).holdsNul = true) : firstShown parse root k files past = none := by
  induction past generalizing files with
  | nil => rfl
  | cons e past ih =>
      rw [firstShown, (shown_eq_none_iff hparse).2 h, ite_self, Option.none_or]
      exact ih

/-- What the first question finds stays. -/
theorem firstShown_of_first {before later : List Event} {first : Event} {set : RegionSet}
    (hkey : first.key? = some k) (hbefore : ∀ e ∈ before, e.key? ≠ some k)
    (h : shown parse (filesAfter files before) (pathOf root k) = some set) :
    firstShown parse root k files (before ++ first :: later) = some set := by
  induction before generalizing files with
  | nil =>
      rw [List.nil_append, firstShown, if_pos hkey]
      exact Option.or_eq_some_iff.2 (.inl h)
  | cons e before ih =>
      obtain ⟨he, hrest⟩ := List.forall_mem_cons.1 hbefore
      rw [List.cons_append, firstShown, if_neg he, Option.none_or]
      exact ih hrest h

/-- A key that was asked for was asked for a first time. -/
theorem exists_first (h : k ∈ past.filterMap Event.key?) :
    ∃ before first later, past = before ++ first :: later ∧ first.key? = some k ∧
      ∀ e ∈ before, e.key? ≠ some k := by
  obtain ⟨e, hmem, hkey⟩ := List.mem_filterMap.1 h
  have hfind : (past.find? fun e => e.key? = some k).isSome = true :=
    List.find?_isSome.2 ⟨e, hmem, decide_eq_true hkey⟩
  obtain ⟨first, hfirst⟩ := Option.isSome_iff_exists.1 hfind
  obtain ⟨hfirstKey, before, later, rfl, hbefore⟩ := List.find?_eq_some_iff_append.1 hfirst
  refine ⟨before, first, later, rfl, of_decide_eq_true hfirstKey, ?_⟩
  intro e' hmem'
  simpa using hbefore e' hmem'

/-- Something was shown for every key that was asked for, unless its questions are
refused. -/
theorem exists_firstShown_iff (hparse : parse.Lawful) :
    (∃ set, firstShown parse root k files past = some set) ↔
      k ∈ past.filterMap Event.key? ∧ (pathOf root k).holdsNul = false := by
  constructor
  · rintro ⟨set, hset⟩
    have hasked : k ∈ past.filterMap Event.key? := by
      by_contra hnot
      have hnever : ∀ e ∈ past, e.key? ≠ some k :=
        fun e hmem hkey => hnot (List.mem_filterMap.2 ⟨e, hmem, hkey⟩)
      rw [firstShown_eq_none hnever] at hset
      contradiction
    refine ⟨hasked, ?_⟩
    rw [← Bool.not_eq_true]
    intro hnul
    rw [firstShown_of_holdsNul hparse hnul] at hset
    contradiction
  · rintro ⟨hasked, hnul⟩
    obtain ⟨before, first, later, rfl, hkey, hbefore⟩ := exists_first hasked
    obtain ⟨set, hset⟩ := exists_shown hparse (filesAfter files before) hnul
    exact ⟨set, firstShown_of_first hkey hbefore hset⟩

end FirstShown

/-! ## One question -/

/-- The situation with an answer written to the cache and records to the log. -/
def Situation.remember (s : Situation) (k : UnitId × String) (set : RegionSet)
    (records : List Log.Record) : Situation :=
  ⟨{ s.cache with sets := s.cache.sets.put k set },
    { s.world with log := s.world.log ++ records }⟩

/-- A question with an answer is answered by it, and the answer is remembered. -/
theorem step_of_known {s : Situation} {e : Event} {k : UnitId × String} {set : RegionSet}
    (hkey : e.key? = some k) (h : known parse s.world.files s.cache k = .ok set) :
    ∃ records, e.step parse s = (.ok (e.answerFrom set), s.remember k set records) := by
  cases e with
  | create path entry => contradiction
  | remove path => contradiction
  | regions unit file =>
      obtain rfl := Option.some.inj hkey
      obtain ⟨records, hrun⟩ := run_lookup_of_known h
      refine ⟨records, ?_⟩
      rw [Event.step, Situation.ask, hrun]
      rfl
  | inRegion unit span =>
      obtain rfl := Option.some.inj hkey
      obtain ⟨records, hrun⟩ := run_lookup_of_known h
      cases hcontaining : set.containing span with
      | none =>
          refine ⟨records, ?_⟩
          rw [Event.step, Situation.ask, RegionCache.inRegion,
            Session.run_lookup_bind_ok hrun, Event.answerFrom, hcontaining]
          rfl
      | some r =>
          refine ⟨records ++ [mutedRecord span r], ?_⟩
          rw [Event.step, Situation.ask, RegionCache.inRegion,
            Session.run_lookup_bind_ok hrun, Event.answerFrom, hcontaining,
            Situation.remember, ← List.append_assoc]
          rfl

/-- A question without an answer fails and leaves no trace. -/
theorem step_of_unknown {s : Situation} {e : Event} {k : UnitId × String} {err : Error}
    (hkey : e.key? = some k) (h : known parse s.world.files s.cache k = .error err) :
    e.step parse s = (.error err, s) := by
  cases e with
  | create path entry => contradiction
  | remove path => contradiction
  | regions unit file =>
      obtain rfl := Option.some.inj hkey
      rw [Event.step, Situation.ask, run_lookup_of_unknown h]
      rfl
  | inRegion unit span =>
      obtain rfl := Option.some.inj hkey
      rw [Event.step, Situation.ask, RegionCache.inRegion,
        Session.run_lookup_bind_error (run_lookup_of_unknown h)]
      rfl

/-- A question does not touch the files. -/
theorem change_of_key {e : Event} {k : UnitId × String} (hkey : e.key? = some k)
    (files : FileTree) : e.change files = files := by
  cases e with
  | create path entry => contradiction
  | remove path => contradiction
  | regions unit file => rfl
  | inRegion unit span => rfl

theorem step_of_no_key {e : Event} (hkey : e.key? = none) (s : Situation) :
    (e.step parse s).2 = { s with world := { s.world with files := e.change s.world.files } } := by
  cases e with
  | create path entry => rfl
  | remove path => rfl
  | regions unit file => contradiction
  | inRegion unit span => contradiction

/-! ## What a history leaves behind -/

/-- A situation after a history. -/
structure Faithful (parse : Source.Parser) (root : Path) (files : FileTree)
    (past : List Event) (s : Situation) : Prop where
  sameRoot : s.cache.root = root
  sameFiles : s.world.files = filesAfter files past
  keyed : s.cache.sets.Keyed
  holds : ∀ k, s.cache.sets.get? k = firstShown parse root k files past

namespace Faithful

variable {root : Path} {files : FileTree} {past : List Event} {s : Situation} {e : Event}
  {k : UnitId × String} {set : RegionSet}

/-- A question finds what was first shown for its key, up to the question itself. -/
theorem known (h : Faithful parse root files past s) (hparse : parse.Lawful)
    (hkey : e.key? = some k) :
    known parse s.world.files s.cache k =
      (firstShown parse root k files (past ++ [e])).elim
        (.error (.refused ⟨.nul, pathOf root k⟩)) .ok := by
  rw [known_eq hparse, h.holds k, h.sameRoot, h.sameFiles, firstShown_concat, if_pos hkey]

theorem filesAfter_concat (h : Faithful parse root files past s) (hkey : e.key? = some k) :
    s.world.files = filesAfter files (past ++ [e]) := by
  rw [filesAfter, List.foldl_append]
  exact h.sameFiles.trans (change_of_key hkey _).symm

/-- A question says nothing about other keys. -/
theorem holds_of_ne (h : Faithful parse root files past s) (hkey : e.key? = some k)
    {k' : UnitId × String} (hne : k' ≠ k) :
    s.cache.sets.get? k' = firstShown parse root k' files (past ++ [e]) := by
  have hother : e.key? ≠ some k' := by
    rw [hkey]
    exact fun heq => hne (Option.some.inj heq).symm
  rw [firstShown_concat_of_ne hother, h.holds k']

/-- A question with an answer. -/
theorem remember (h : Faithful parse root files past s) (hkey : e.key? = some k)
    (hfirst : firstShown parse root k files (past ++ [e]) = some set)
    (records : List Log.Record) :
    Faithful parse root files (past ++ [e]) (s.remember k set records) where
  sameRoot := h.sameRoot
  sameFiles := h.filesAfter_concat hkey
  keyed := h.keyed.put k set
  holds := by
    intro k'
    by_cases hk : k' = k
    · subst hk
      exact (Ledger.get?_put_self _ k' set).trans hfirst.symm
    · exact (Ledger.get?_put_ne _ set hk).trans (h.holds_of_ne hkey hk)

/-- A question without an answer. -/
theorem forget (h : Faithful parse root files past s) (hkey : e.key? = some k)
    (hfirst : firstShown parse root k files (past ++ [e]) = none) :
    Faithful parse root files (past ++ [e]) s where
  sameRoot := h.sameRoot
  sameFiles := h.filesAfter_concat hkey
  keyed := h.keyed
  holds := by
    intro k'
    by_cases hk : k' = k
    · subst hk
      rw [firstShown_concat, Option.or_eq_none_iff] at hfirst
      rw [h.holds k', hfirst.1, firstShown_concat, hfirst.1, hfirst.2]
      rfl
    · exact h.holds_of_ne hkey hk

/-- One event. -/
theorem step (h : Faithful parse root files past s) (hparse : parse.Lawful) :
    Faithful parse root files (past ++ [e]) (e.step parse s).2 := by
  cases hkey : e.key? with
  | some k =>
      have hknown := h.known hparse hkey
      cases hfirst : firstShown parse root k files (past ++ [e]) with
      | some set =>
          rw [hfirst] at hknown
          obtain ⟨records, hstep⟩ := step_of_known hkey hknown
          rw [hstep]
          exact h.remember hkey hfirst records
      | none =>
          rw [hfirst] at hknown
          rw [step_of_unknown hkey hknown]
          exact h.forget hkey hfirst
  | none =>
      rw [step_of_no_key hkey]
      refine ⟨h.sameRoot, ?_, h.keyed, ?_⟩
      · rw [filesAfter, List.foldl_append]
        exact congrArg (Event.change · e) h.sameFiles
      · intro k
        rw [firstShown_concat_of_ne (by simp [hkey])]
        exact h.holds k

/-- The cache holds the keys that were asked for, except those whose questions are
refused. -/
theorem mem_keys_iff (h : Faithful parse root files past s) (hparse : parse.Lawful) :
    k ∈ s.cache.sets.keys ↔
      k ∈ past.filterMap Event.key? ∧ (pathOf root k).holdsNul = false := by
  rw [Ledger.mem_keys_iff_get?, h.holds k, exists_firstShown_iff hparse]

theorem size_eq (h : Faithful parse root files past s) (hparse : parse.Lawful) :
    s.cache.sets.size = ((past.filterMap Event.key?).dedup.filter fun k =>
      !(pathOf root k).holdsNul).length := by
  rw [← Ledger.length_keys]
  refine ((List.perm_ext_iff_of_nodup h.keyed ((List.nodup_dedup _).filter _)).2 ?_).length_eq
  intro k
  rw [h.mem_keys_iff hparse, List.mem_filter, List.mem_dedup, Bool.not_eq_true']

/-- A question is answered from what was first shown for its key. -/
theorem answer_of_first (h : Faithful parse root files past s) (hparse : parse.Lawful)
    (hkey : e.key? = some k)
    (hfirst : firstShown parse root k files (past ++ [e]) = some set) :
    (e.step parse s).1 = .ok (e.answerFrom set) := by
  have hknown := h.known hparse hkey
  rw [hfirst] at hknown
  obtain ⟨records, hstep⟩ := step_of_known hkey hknown
  rw [hstep]

/-- A question about a path that cannot be handed to the system fails and leaves no
trace. -/
theorem step_of_holdsNul (h : Faithful parse root files past s) (hparse : parse.Lawful)
    (hkey : e.key? = some k) (hnul : (pathOf root k).holdsNul = true) :
    e.step parse s = (.error (.refused ⟨.nul, pathOf root k⟩), s) := by
  have hknown := h.known hparse hkey
  rw [firstShown_of_holdsNul hparse hnul] at hknown
  exact step_of_unknown hkey hknown

end Faithful

/-- A cache that was never asked, among some files. -/
def Situation.fresh (root : Path) (files : FileTree) : Situation :=
  ⟨.fresh root, ⟨files, []⟩⟩

/-- Every history. -/
theorem faithful_after (hparse : parse.Lawful) (root : Path) (files : FileTree)
    (past : List Event) :
    Faithful parse root files past ((Situation.fresh root files).after parse past) := by
  induction past using List.reverseRecOn with
  | nil => exact ⟨rfl, rfl, Ledger.keyed_empty, fun k => rfl⟩
  | append_singleton past e ih =>
      rw [Situation.after, List.foldl_append]
      exact ih.step hparse

/-- After every history a question is answered from the files as they were when its key
was first asked for, be it now or earlier: from the regions of the file, or from none if
it could not be read.  The one exception is a path that cannot be handed to the system:
the question fails and changes nothing.  The cache holds as many keys as were asked for
so far, with the same exception. -/
theorem answers_from_first (hparse : parse.Lawful) (root : Path) (files : FileTree)
    (past : List Event) :
    (∀ (e : Event) k, e.key? = some k → (pathOf root k).holdsNul = false →
      ∃ before first later set, past ++ [e] = before ++ first :: later ∧
        first.key? = some k ∧ (∀ e' ∈ before, e'.key? ≠ some k) ∧
        shown parse (filesAfter files before) (pathOf root k) = some set ∧
        (e.step parse ((Situation.fresh root files).after parse past)).1 =
          .ok (e.answerFrom set)) ∧
    (∀ (e : Event) k, e.key? = some k → (pathOf root k).holdsNul = true →
      e.step parse ((Situation.fresh root files).after parse past) =
        (.error (.refused ⟨.nul, pathOf root k⟩),
          (Situation.fresh root files).after parse past)) ∧
    ((Situation.fresh root files).after parse past).cache.sets.size =
      ((past.filterMap Event.key?).dedup.filter fun k =>
        !(pathOf root k).holdsNul).length := by
  have hfaithful := faithful_after hparse root files past
  refine ⟨?_, fun e k => hfaithful.step_of_holdsNul hparse, hfaithful.size_eq hparse⟩
  intro e k hkey hnul
  have hasked : k ∈ (past ++ [e]).filterMap Event.key? :=
    List.mem_filterMap.2 ⟨e, List.mem_append_right past (List.mem_singleton_self e), hkey⟩
  obtain ⟨before, first, later, hsplit, hfirstKey, hbefore⟩ := exists_first hasked
  obtain ⟨set, hset⟩ := exists_shown hparse (filesAfter files before) hnul
  refine ⟨before, first, later, set, hsplit, hfirstKey, hbefore, hset, ?_⟩
  refine hfaithful.answer_of_first hparse hkey ?_
  rw [hsplit]
  exact firstShown_of_first hfirstKey hbefore hset

/-- A file with a function in the input of a macro. -/
def macroFile : FileTree :=
  ⟨[], [(["lib.rs"], .file (Text.toBytes "shapes! (\nfn edge();\n);\n"))]⟩

/-- The function is asked about, and then the file is removed. -/
def removal : List Event :=
  [.inRegion ⟨1, 1⟩ ⟨"lib.rs", 2, 4, 2, 8⟩, .remove (Path.ofString "lib.rs")]

/-- The unit that asked before is answered from the file, another unit from its
absence. -/
theorem answers_from_first_removal :
    ((Situation.fresh .here macroFile).after Source.parser removal).cache.sets.size = 1 ∧
      (∃ set, shown Source.parser macroFile (Path.ofString "lib.rs") = some set ∧
        ((Event.regions ⟨1, 1⟩ "lib.rs").step Source.parser
          ((Situation.fresh .here macroFile).after Source.parser removal)).1 =
            .ok (some (.regions set))) ∧
      ((Event.regions ⟨2, 2⟩ "lib.rs").step Source.parser
        ((Situation.fresh .here macroFile).after Source.parser removal)).1 =
          .ok (some (.regions .empty)) := by
  obtain ⟨hanswers, _, hsize⟩ :=
    answers_from_first Source.parser_lawful .here macroFile removal
  refine ⟨hsize.trans (by decide +kernel), ?_, by decide +kernel⟩
  obtain ⟨before, first, later, set, hsplit, _, hbefore, hset, hanswer⟩ :=
    hanswers (.regions ⟨1, 1⟩ "lib.rs") (⟨1, 1⟩, "lib.rs") rfl (by decide +kernel)
  -- The question came first, so its file is the one that was there from the start.
  cases before with
  | nil => exact ⟨set, hset, hanswer⟩
  | cons e before =>
      obtain ⟨rfl, _⟩ := List.cons.inj hsplit
      exact absurd rfl (hbefore _ List.mem_cons_self)

/-- A question about a file of an ordinary name can fail, and then the key that was asked
for is not in the cache. -/
theorem refused_nulRoot :
    ((Event.regions ⟨1, 1⟩ "lib.rs").step Source.parser
        (Situation.fresh nulRoot macroFile)).1 =
          .error (.refused ⟨.nul, pathOf nulRoot (⟨1, 1⟩, "lib.rs")⟩) ∧
      ((Situation.fresh nulRoot macroFile).after Source.parser
        [.regions ⟨1, 1⟩ "lib.rs"]).cache.sets.size = 0 ∧
      Char.ofNat 0 ∉ "lib.rs".toList := by
  decide +kernel

end RegionCache

end DeadSymbols
