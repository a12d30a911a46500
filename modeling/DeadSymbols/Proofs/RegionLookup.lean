import Mathlib
import DeadSymbols.Proofs.DetectorReport
import DeadSymbols.Proofs.Listing
import DeadSymbols.Proofs.RegionOrder
import DeadSymbols.Proofs.Sessions
import DeadSymbols.Region.Cache

/-!
# Looking regions up

A lookup answers from the cache or from the files, and what it answers it remembers.
What the cache does not know yet is determined by the files, so the answer for a key
is fixed before the first lookup: `RegionCache.known` gives it, and no lookup changes
it (`RegionCache.Remembers.known`).  After any number of lookups the cache holds the
answers for the keys that were asked for and is unchanged elsewhere, in whatever order
they came.

Evaluating candidates through the cache is thus evaluating them with a pure lookup,
as long as every file that is asked for has an answer.  With a lawful parser the one
question without an answer is about a path that cannot be handed to the system
(`RegionCache.known_eq`).

## Main results

* `RegionCache.Remembers.known`, `RegionCache.Remembers.trans` — lookups do not
  disturb each other.
* `RegionCache.Asks.bind` — a session asks for what its parts ask for.
* `RegionCache.shown_eq_none_iff` — which files show regions.
* `RegionCache.known_eq` — where an answer comes from, and when there is none.
* `Detector.asks_evaluate` — candidates evaluated through the cache.
-/

namespace DeadSymbols

namespace Session

variable {α β : Type} {c c' : RegionCache} {w w' : World} {e : Error}

/-! ## Running lookups -/

theorem run_lookup_bind_ok {x : RegionCache.Lookup α} {f : α → RegionCache.Lookup β}
    {a : α} (h : (x.run c).run.run w = (.ok (a, c'), w')) :
    ((x >>= f).run c).run.run w = ((f a).run c').run.run w' := by
  rw [StateT.run_bind]
  exact run_bind_ok h

theorem run_lookup_bind_error {x : RegionCache.Lookup α} {f : α → RegionCache.Lookup β}
    (h : (x.run c).run.run w = (.error e, w')) :
    ((x >>= f).run c).run.run w = (.error e, w') := by
  rw [StateT.run_bind]
  exact run_bind_error h

@[simp] theorem run_lookup_pure (a : α) (c : RegionCache) (w : World) :
    ((pure a : RegionCache.Lookup α).run c).run.run w = (.ok (a, c), w) := rfl

theorem run_lookup_notes (records : List Log.Record) (c : RegionCache) (w : World) :
    ((liftM (notes records) : RegionCache.Lookup Unit).run c).run.run w =
      (.ok ((), c), { w with log := w.log ++ records }) := rfl

end Session

namespace RegionCache

/-- What a lookup of a key gives: what the cache remembers, or what the file has. -/
def known (parse : Source.Parser) (files : FileTree) (c : RegionCache)
    (k : UnitId × String) : Except Error RegionSet :=
  match c.sets.get? k with
  | some set => .ok set
  | none => (find parse files (pathOf c.root k)).map (·.1)

/-- The second cache is the first after lookups of some keys. -/
structure Remembers (parse : Source.Parser) (files : FileTree) (c : RegionCache)
    (asked : List (UnitId × String)) (c' : RegionCache) : Prop where
  root : c'.root = c.root
  sets : ∀ k, c'.sets.get? k =
    if k ∈ asked then (known parse files c k).toOption else c.sets.get? k

variable {parse : Source.Parser}

namespace Remembers

variable {files : FileTree} {c c' c'' : RegionCache} {ks ks' : List (UnitId × String)}

theorem refl (files : FileTree) (c : RegionCache) : Remembers parse files c [] c :=
  ⟨rfl, by simp⟩

/-- Lookups change no answer. -/
theorem known (h : Remembers parse files c ks c') (k : UnitId × String) :
    RegionCache.known parse files c' k = RegionCache.known parse files c k := by
  have hsets := h.sets k
  by_cases hk : k ∈ ks
  · rw [if_pos hk] at hsets
    cases hknown : RegionCache.known parse files c k with
    | ok set =>
        rw [hknown] at hsets
        rw [RegionCache.known, hsets]
        rfl
    | error e =>
        -- Nothing was remembered, neither then nor now.
        have hnone : c.sets.get? k = none := by
          cases hget : c.sets.get? k with
          | none => rfl
          | some set => simp [RegionCache.known, hget] at hknown
        rw [hknown] at hsets
        rw [← hknown, RegionCache.known, RegionCache.known, hsets, hnone, h.root]
        rfl
  · rw [if_neg hk] at hsets
    rw [RegionCache.known, RegionCache.known, hsets, h.root]

theorem trans (h : Remembers parse files c ks c') (h' : Remembers parse files c' ks' c'') :
    Remembers parse files c (ks ++ ks') c'' := by
  refine ⟨h'.root.trans h.root, ?_⟩
  intro k
  rw [h'.sets, h.known, h.sets]
  by_cases hk : k ∈ ks
  · by_cases hk' : k ∈ ks' <;> simp [hk, hk']
  · by_cases hk' : k ∈ ks' <;> simp [hk, hk']

/-- Only which keys were asked for matters. -/
theorem congr (h : Remembers parse files c ks c') (hks : ∀ k, k ∈ ks ↔ k ∈ ks') :
    Remembers parse files c ks' c' := by
  refine ⟨h.root, ?_⟩
  intro k
  simp only [h.sets k, hks]

end Remembers

/-! ## What a session asks for -/

/-- The set that a lookup of a key gives, if it gives one. -/
def answer (parse : Source.Parser) (files : FileTree) (c : RegionCache)
    (k : UnitId × String) : RegionSet :=
  (known parse files c k).toOption.getD .empty

/-- Whether a span of a unit lies in one of the regions that a lookup gives. -/
def inside (parse : Source.Parser) (files : FileTree) (c : RegionCache) (unit : UnitId)
    (span : Span) : Bool :=
  ((answer parse files c (unit, span.file)).containing span).isSome

theorem Remembers.inside_eq {files : FileTree} {c c' : RegionCache}
    {ks : List (UnitId × String)} (h : Remembers parse files c ks c') :
    inside parse files c' = inside parse files c := by
  funext unit span
  rw [inside, inside, answer, answer, h.known]

/-- What becomes of a session that asks for some keys and then has a value.  If every
key has an answer the session gives its value and the answers are remembered;
otherwise it fails with the error of one of the keys. -/
inductive Asks (parse : Source.Parser) {α : Type} (x : Lookup α) (c : RegionCache)
    (w : World) (ks : List (UnitId × String)) (a : α) : Prop
  | answered (c' : RegionCache) (records : List Log.Record)
      (answers : ∀ k ∈ ks, ∃ set, known parse w.files c k = .ok set)
      (run : (x.run c).run.run w = (.ok (a, c'), { w with log := w.log ++ records }))
      (remembers : Remembers parse w.files c ks c')
  | failed (k : UnitId × String) (e : Error) (w' : World) (mem : k ∈ ks)
      (error : known parse w.files c k = .error e)
      (run : (x.run c).run.run w = (.error e, w'))

namespace Asks

variable {α β : Type} {x : Lookup α} {f : α → Lookup β} {c : RegionCache} {w : World}
  {ks ks' : List (UnitId × String)} {a : α} {b : β}

/-- A session that continues with the value of another asks for the keys of both. -/
theorem bind (hx : Asks parse x c w ks a)
    (hf : ∀ c' w', w'.files = w.files → Remembers parse w.files c ks c' →
      Asks parse (f a) c' w' ks' b) :
    Asks parse (x >>= f) c w (ks ++ ks') b := by
  cases hx with
  | failed k e w' mem error run =>
      exact .failed k e w' (List.mem_append_left _ mem) error
        (Session.run_lookup_bind_error run)
  | answered c' records answers run remembers =>
      have hrun := Session.run_lookup_bind_ok (f := f) run
      cases hf c' { w with log := w.log ++ records } rfl remembers with
      | failed k e w' mem error run' =>
          rw [remembers.known] at error
          exact .failed k e w' (List.mem_append_right _ mem) error (hrun.trans run')
      | answered c'' records' answers' run' remembers' =>
          refine .answered c'' (records ++ records') ?_ ?_ (remembers.trans remembers')
          · intro k hk
            rcases List.mem_append.1 hk with hk | hk
            · exact answers k hk
            · rw [← remembers.known]
              exact answers' k hk
          · rw [hrun, run', List.append_assoc]

theorem pure (a : α) (c : RegionCache) (w : World) :
    Asks parse (Pure.pure a) c w [] a := by
  refine .answered c [] (by simp) ?_ (.refl w.files c)
  rw [Session.run_lookup_pure, List.append_nil]

theorem bind_pure (hx : Asks parse x c w ks a) (f : α → β) :
    Asks parse (x >>= fun a => Pure.pure (f a)) c w ks (f a) := by
  have hbind := hx.bind (f := fun a => Pure.pure (f a)) (fun c' w' _ _ => pure (f a) c' w')
  rw [List.append_nil] at hbind
  exact hbind

theorem notes (records : List Log.Record) (c : RegionCache) (w : World) :
    Asks parse (Session.notes records) c w [] () :=
  .answered c records (by simp) (Session.run_lookup_notes records c w)
    (.refl w.files c)

/-- Only which keys are asked for matters. -/
theorem congr (h : Asks parse x c w ks a) (hks : ∀ k, k ∈ ks ↔ k ∈ ks') :
    Asks parse x c w ks' a := by
  cases h with
  | failed k e w' mem error run => exact .failed k e w' ((hks k).1 mem) error run
  | answered c' records answers run remembers =>
      exact .answered c' records (fun k hk => answers k ((hks k).2 hk)) run
        (remembers.congr hks)

end Asks

private theorem remembers_put {files : FileTree} {c : RegionCache}
    {k : UnitId × String} {set : RegionSet} (h : known parse files c k = .ok set) :
    Remembers parse files c [k] { c with sets := c.sets.put k set } := by
  refine ⟨rfl, ?_⟩
  intro k'
  rw [Ledger.get?_put]
  by_cases hk : k' = k
  · subst hk
    rw [if_pos rfl, if_pos (List.mem_singleton_self _), h]
    rfl
  · simp [hk]

private theorem run_lookup (parse : Source.Parser) (unit : UnitId) (file : String)
    (c : RegionCache) (w : World) :
    ((lookup parse unit file).run c).run.run w =
      match regions parse w.files c unit file with
      | .error e => (.error e, w)
      | .ok (set, c', records) =>
        (.ok (set, c'), { w with log := w.log ++ records }) := by
  have hstart : ((lookup parse unit file).run c).run.run w =
      ((match regions parse w.files c unit file with
        | .error e => throw e
        | .ok (set, c', records) => do
          Session.notes records
          StateT.set c'
          return set : Lookup RegionSet).run c).run.run w := rfl
  rw [hstart]
  cases regions parse w.files c unit file with
  | error e => rfl
  | ok found => rfl

/-- A lookup that has an answer gives it and writes it to the cache.  If the cache had
it already, that changes nothing. -/
theorem run_lookup_of_known {unit : UnitId} {file : String} {c : RegionCache} {w : World}
    {set : RegionSet} (h : known parse w.files c (unit, file) = .ok set) :
    ∃ records, ((lookup parse unit file).run c).run.run w =
      (.ok (set, { c with sets := c.sets.put (unit, file) set }),
        { w with log := w.log ++ records }) := by
  have hrun := run_lookup parse unit file c w
  rw [regions] at hrun
  rw [known] at h
  cases hget : c.sets.get? (unit, file) with
  | some known =>
      rw [hget] at hrun h
      obtain rfl := Except.ok.inj h
      rw [Ledger.put_of_get? hget]
      exact ⟨[], hrun⟩
  | none =>
      rw [hget] at hrun h
      cases hfind : find parse w.files (pathOf c.root (unit, file)) with
      | error e =>
          rw [hfind] at h
          contradiction
      | ok found =>
          rw [hfind] at hrun h
          obtain rfl := Except.ok.inj h
          exact ⟨found.2, hrun⟩

/-- A lookup that has no answer fails and changes nothing. -/
theorem run_lookup_of_unknown {unit : UnitId} {file : String} {c : RegionCache}
    {w : World} {e : Error} (h : known parse w.files c (unit, file) = .error e) :
    ((lookup parse unit file).run c).run.run w = (.error e, w) := by
  rw [run_lookup, regions]
  rw [known] at h
  cases hget : c.sets.get? (unit, file) with
  | some known =>
      rw [hget] at h
      contradiction
  | none =>
      rw [hget] at h
      cases hfind : find parse w.files (pathOf c.root (unit, file)) with
      | error e' =>
          rw [hfind] at h
          obtain rfl := Except.error.inj h
          rfl
      | ok found =>
          rw [hfind] at h
          contradiction

/-- A lookup asks for one key. -/
theorem asks_lookup (unit : UnitId) (file : String) (c : RegionCache) (w : World) :
    Asks parse (lookup parse unit file) c w [(unit, file)]
      (answer parse w.files c (unit, file)) := by
  cases hknown : known parse w.files c (unit, file) with
  | error e =>
      exact .failed (unit, file) e w (List.mem_singleton_self _) hknown
        (run_lookup_of_unknown hknown)
  | ok set =>
      obtain ⟨records, hrun⟩ := run_lookup_of_known hknown
      rw [answer, hknown]
      exact .answered _ records (by simp [hknown]) hrun (remembers_put hknown)

/-- To ask whether a span lies in a region is to ask for the key of its file. -/
theorem asks_inRegion (unit : UnitId) (span : Span) (c : RegionCache) (w : World) :
    Asks parse (inRegion parse unit span) c w [(unit, span.file)]
      (inside parse w.files c unit span) := by
  rw [inRegion, ← List.append_nil [(unit, span.file)]]
  refine (asks_lookup unit span.file c w).bind ?_
  intro c' w' _ _
  rw [inside]
  cases (answer parse w.files c (unit, span.file)).containing span with
  | none => exact .pure false c' w'
  | some r => exact (Asks.notes [mutedRecord span r] c' w').bind_pure fun _ => true

/-! ## Keys with an answer -/

/-- What the file at a path shows: its regions, or that it has none if it cannot be read.
A path that cannot be handed to the system shows nothing. -/
def shown (parse : Source.Parser) (files : FileTree) (path : Path) : Option RegionSet :=
  if path.holdsNul then none
  else
    match files.read path with
    | .ok content => RegionSet.ofList? (Region.ofSource parse content)
    | .error _ => some .empty

/-- With a lawful parser every file that can be asked for shows its regions. -/
theorem shown_eq_none_iff (hparse : parse.Lawful) {files : FileTree} {path : Path} :
    shown parse files path = none ↔ path.holdsNul = true := by
  rw [shown]
  split
  · next hnul => simp [hnul]
  · next hnul =>
      refine ⟨?_, fun h => absurd h hnul⟩
      split
      · next content _ =>
          obtain ⟨set, hset⟩ := Region.exists_ofList?_search hparse content
          rw [Region.ofSource, Region.collect, hset]
          exact fun h => absurd h (Option.some_ne_none set)
      · exact fun h => absurd h (Option.some_ne_none _)

theorem exists_shown (hparse : parse.Lawful) (files : FileTree) {path : Path}
    (h : path.holdsNul = false) : ∃ set, shown parse files path = some set := by
  refine Option.ne_none_iff_exists'.1 ?_
  rw [ne_eq, shown_eq_none_iff hparse, h]
  exact Bool.false_ne_true

/-- What is found is what is shown. -/
theorem toOption_find (parse : Source.Parser) (files : FileTree) (path : Path) :
    ((find parse files path).map (·.1)).toOption = shown parse files path := by
  rw [find, shown]
  cases hread : files.read path with
  | error e =>
      dsimp only
      rw [FileTree.isSystem_of_read_eq_error hread]
      cases path.holdsNul <;> rfl
  | ok content =>
      have hnul : path.holdsNul = false := FileTree.holdsNul_of_read_eq_ok hread
      rw [hnul]
      dsimp only [Region.ofSource, Region.collect, Bool.false_eq_true, if_false]
      cases RegionSet.ofList?
        (Region.inOrder (Region.search content (parse content))) <;> rfl

/-- A path that cannot be handed to the system is refused. -/
theorem find_of_holdsNul {path : Path} (h : path.holdsNul = true) (files : FileTree) :
    find parse files path = .error (.refused ⟨.nul, path⟩) := by
  rw [find, FileTree.read_of_holdsNul h]
  rfl

/-- A key is known from the cache or from its file.  A file that cannot be read has the
empty answer, and a path that cannot be handed to the system has none. -/
theorem known_eq (hparse : parse.Lawful) {files : FileTree} {c : RegionCache}
    {k : UnitId × String} :
    known parse files c k =
      ((c.sets.get? k).or (shown parse files (pathOf c.root k))).elim
        (.error (.refused ⟨.nul, pathOf c.root k⟩)) .ok := by
  rw [known]
  cases c.sets.get? k with
  | some set => rfl
  | none =>
      have hshown := toOption_find parse files (pathOf c.root k)
      rw [Option.none_or, ← hshown]
      cases hfind : find parse files (pathOf c.root k) with
      | ok found => rfl
      | error e =>
          rw [hfind] at hshown
          have hnul := (shown_eq_none_iff hparse).1 hshown.symm
          rw [find_of_holdsNul hnul] at hfind
          obtain rfl := Except.error.inj hfind
          rfl

/-- A question for the key is refused: the cache knows no answer, and the path of the
file cannot be handed to the system. -/
def Refuses (c : RegionCache) (k : UnitId × String) : Prop :=
  c.sets.get? k = none ∧ (pathOf c.root k).holdsNul = true

instance (c : RegionCache) (k : UnitId × String) : Decidable (c.Refuses k) :=
  inferInstanceAs (Decidable (_ ∧ _))

/-- A directory whose name has the character that no path may hold: every question about
a relative name is refused there. -/
def nulRoot : Path := Path.ofString "\x00"

/-- A key has an answer unless its question is refused. -/
theorem exists_known (hparse : parse.Lawful) (files : FileTree) {c : RegionCache}
    {k : UnitId × String} (h : ¬c.Refuses k) : ∃ set, known parse files c k = .ok set := by
  rw [known_eq hparse]
  cases hfound : (c.sets.get? k).or (shown parse files (pathOf c.root k)) with
  | some set => exact ⟨set, rfl⟩
  | none =>
      rw [Option.or_eq_none_iff, shown_eq_none_iff hparse] at hfound
      exact absurd hfound h

theorem known_of_refuses (hparse : parse.Lawful) (files : FileTree) {c : RegionCache}
    {k : UnitId × String} (h : c.Refuses k) :
    known parse files c k = .error (.refused ⟨.nul, pathOf c.root k⟩) := by
  rw [known_eq hparse, h.1, (shown_eq_none_iff hparse).2 h.2]
  rfl

/-- No question about a file is refused if neither its name nor the directory that names
start from has the character that no path may hold. -/
theorem holdsNul_pathOf {root : Path} {k : UnitId × String} (hroot : root.holdsNul = false)
    (hfile : Char.ofNat 0 ∉ k.2.toList) : (pathOf root k).holdsNul = false :=
  Path.holdsNul_join_ofString hroot hfile

end RegionCache

namespace Detector

open RegionCache

variable {parse : Source.Parser}

/-! ## Evaluating candidates through the cache -/

/-- The keys that are asked for when candidates are evaluated: those of the candidates
that no other rule suppresses. -/
def asked (g : SymbolGraph) (policy : Policy) (ds : List Definition) :
    List (UnitId × String) :=
  (ds.filter fun d => (graphReason g policy d).isNone).map fun d =>
    (d.id.unit, d.span.file)

theorem asked_append (g : SymbolGraph) (policy : Policy) (ds es : List Definition) :
    asked g policy (ds ++ es) = asked g policy ds ++ asked g policy es := by
  rw [asked, List.filter_append, List.map_append]
  rfl

/-- The findings among candidates, given whether spans lie in macro input. -/
def found (g : SymbolGraph) (policy : Policy) (lookup : UnitId → Span → Bool)
    (ds : List Definition) : List Finding :=
  (ds.filter (survives g policy (some lookup))).map finding

private theorem asks_reason (g : SymbolGraph) (policy : Policy) (d : Definition)
    (c : RegionCache) (w : World) :
    Asks parse (reason g policy (RegionCache.source parse) d) c w (asked g policy [d])
      ((graphReason g policy d).or
        (if inside parse w.files c d.id.unit d.span then some .macroInput else none)) := by
  cases hreason : graphReason g policy d with
  | some r =>
      rw [reason, hreason, asked, List.filter_cons, hreason]
      exact .pure (some r) c w
  | none =>
      rw [reason, hreason, asked, List.filter_cons, hreason]
      exact (asks_inRegion d.id.unit d.span c w).bind_pure fun muted =>
        if muted then some Reason.macroInput else none

/-- Candidates evaluated through the cache ask for their keys and are kept as with a
pure lookup. -/
theorem asks_evaluate (g : SymbolGraph) (policy : Policy) (ds : List Definition)
    (c : RegionCache) (w : World) :
    Asks parse (evaluate g policy (RegionCache.source parse) ds) c w (asked g policy ds)
      (found g policy (inside parse w.files c) ds) := by
  induction ds generalizing c w with
  | nil => exact .pure [] c w
  | cons d ds ih =>
      rw [evaluate, ← List.singleton_append, asked_append]
      refine (asks_reason g policy d c w).bind ?_
      intro c' w' hfiles hremembers
      have hinside : inside parse w'.files c' = inside parse w.files c := by
        rw [hfiles, hremembers.inside_eq]
      have hkept := ih c' w'
      -- The note about a suppressed candidate asks for nothing.
      have hnoted : ∀ r, Asks parse (do
          (RegionCache.source parse).note d r
          evaluate g policy (RegionCache.source parse) ds) c' w' ([] ++ asked g policy ds)
          (found g policy (inside parse w'.files c') ds) := by
        intro r
        refine (Asks.notes [suppressedRecord d r] c' w').bind ?_
        intro c'' w'' hfiles' hremembers'
        rw [← hremembers'.inside_eq, ← hfiles']
        exact ih c'' w''
      rw [hinside] at hkept hnoted
      rw [List.singleton_append, found, List.filter_cons, survives, isMuted,
        Option.any_some]
      cases graphReason g policy d with
      | some r => exact hnoted r
      | none =>
          cases inside parse w.files c d.id.unit d.span with
          | true => exact hnoted .macroInput
          | false => exact hkept.bind_pure (finding d :: ·)

end Detector

end DeadSymbols
