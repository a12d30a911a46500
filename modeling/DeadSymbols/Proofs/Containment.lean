import Mathlib
import DeadSymbols.Proofs.RegionOrder
import DeadSymbols.Proofs.ReportOrder

/-!
# The region that holds a span

A set of regions answers a span with the first region, in the order of keys, whose
keys hold the start of the span and whose ends enclose it.  Here the answer is
described without the set, by the list of regions it was made from: it is the least
region that holds the span (`Region.Holds`), and there is no answer exactly if no
region does.

The order of a set is that of the keys of both ends, then of the ends themselves
(`Region.rank`).  It tells any two regions apart, so the first match in any list in
this order is the same as long as the matches are.  Asking for the half-open intervals
at a key first and for enclosure afterwards therefore gives the same answer.

Between columns that a line has room for, keys are in reading order.  The question
about keys then follows from the one about ends, and what is left is enclosure.

## Main results

* `find?_eq_some_iff_of_pairwise` — the first match in a list sorted by a key.
* `RegionSet.containing_eq_some_iff` — the answer is the least region that holds the
  span.
* `RegionSet.containing_eq_find?` — the same from the intervals at a key.
* `RegionSet.containment_exact` — refusal and answer of every list of regions.
-/

namespace DeadSymbols

/-- The first match in a list sorted by a key that tells its members apart is the
least match. -/
theorem find?_eq_some_iff_of_pairwise {α β : Type} [LinearOrder β] {key : α → β}
    (hkey : Function.Injective key) {xs : List α}
    (hsorted : xs.Pairwise fun a b => key a ≤ key b) (p : α → Bool) (a : α) :
    xs.find? p = some a ↔
      (a ∈ xs ∧ p a = true) ∧ ∀ b ∈ xs, p b = true → key a ≤ key b := by
  induction xs with
  | nil => simp
  | cons x xs ih =>
      rw [List.pairwise_cons] at hsorted
      obtain ⟨hx, hxs⟩ := hsorted
      by_cases hp : p x = true
      · rw [List.find?_cons_of_pos hp]
        constructor
        · intro h
          obtain rfl := Option.some.inj h
          refine ⟨⟨List.mem_cons_self, hp⟩, ?_⟩
          intro b hb _
          rcases List.mem_cons.1 hb with rfl | hb
          · exact le_rfl
          · exact hx b hb
        · rintro ⟨⟨ha, _⟩, hleast⟩
          have hle : key a ≤ key x := hleast x List.mem_cons_self hp
          rcases List.mem_cons.1 ha with rfl | ha
          · rfl
          · rw [hkey (le_antisymm (hx a ha) hle)]
      · rw [List.find?_cons_of_neg hp, ih hxs]
        have hne : ∀ b, p b = true → (b ∈ x :: xs ↔ b ∈ xs) := by
          intro b hb
          have hbx : b ≠ x := fun h => hp (h ▸ hb)
          simp [hbx]
        constructor
        · rintro ⟨⟨ha, hpa⟩, hleast⟩
          exact ⟨⟨(hne a hpa).2 ha, hpa⟩, fun b hb hpb => hleast b ((hne b hpb).1 hb) hpb⟩
        · rintro ⟨⟨ha, hpa⟩, hleast⟩
          exact ⟨⟨(hne a hpa).1 ha, hpa⟩, fun b hb hpb => hleast b ((hne b hpb).2 hb) hpb⟩

/-! ## Positions as pairs -/

namespace Position

/-- Line and column, in reading order. -/
def pair (p : Position) : Int ×ₗ Int := toLex (p.line, p.column)

theorem le_iff_pair_le (p q : Position) : p.le q = true ↔ p.pair ≤ q.pair := by
  rw [le_iff, pair, pair, Prod.Lex.toLex_le_toLex]

theorem pair_injective : Function.Injective pair := by
  intro p q h
  have hpair : (p.line, p.column) = (q.line, q.column) := toLex.injective h
  cases p
  cases q
  simpa using hpair

end Position

namespace Region

/-! ## The order of a set -/

/-- Both ends of a region, in reading order. -/
def ends (r : Region) : (Int ×ₗ Int) ×ₗ Int ×ₗ Int := toLex (r.start.pair, r.stop.pair)

theorem ends_injective : Function.Injective ends := by
  intro a b h
  have hends : (a.start.pair, a.stop.pair) = (b.start.pair, b.stop.pair) := toLex.injective h
  have hstart := Position.pair_injective (Prod.mk.inj hends).1
  have hstop := Position.pair_injective (Prod.mk.inj hends).2
  cases a
  cases b
  simp_all

/-- A region by the keys of its ends, then by its ends. -/
def rank (r : Region) : Int ×ₗ Int ×ₗ (Int ×ₗ Int) ×ₗ Int ×ₗ Int :=
  toLex (r.start.key, toLex (r.stop.key, r.ends))

theorem rank_injective : Function.Injective rank := by
  intro a b h
  simp only [rank, EmbeddingLike.apply_eq_iff_eq, Prod.mk.injEq] at h
  exact ends_injective h.2.2

theorem keyLe_iff_rank_le (a b : Region) : a.keyLe b = true ↔ a.rank ≤ b.rank := by
  have hcompare : compare a.rank b.rank =
      (compare a.start.key b.start.key).then
        ((compare a.stop.key b.stop.key).then (compare a b)) := rfl
  rw [keyLe, ← hcompare, ← compare_le_iff_le, Ordering.isLE_iff_ne_gt]

/-! ## Holding a span -/

/-- The region starts no later and ends no earlier than the span. -/
structure Encloses (r : Region) (s : Span) : Prop where
  start_le : r.start.pair ≤ s.start.pair
  le_stop : s.stop.pair ≤ r.stop.pair

/-- The keys of the region hold the start of the span, and its ends enclose it. -/
structure Holds (r : Region) (s : Span) : Prop extends Encloses r s where
  key_le : r.start.key ≤ s.start.key
  le_key : s.start.key ≤ r.stop.key

theorem encloses_iff (r : Region) (s : Span) : r.encloses s = true ↔ r.Encloses s := by
  rw [encloses, Bool.and_eq_true, Position.le_iff_pair_le, Position.le_iff_pair_le]
  exact ⟨fun h => ⟨h.1, h.2⟩, fun h => ⟨h.start_le, h.le_stop⟩⟩

theorem holds_iff (r : Region) (s : Span) :
    (r.holdsKey s.start && r.encloses s) = true ↔ r.Holds s := by
  rw [Bool.and_eq_true, encloses_iff, holdsKey, Bool.and_eq_true, decide_eq_true_eq,
    decide_eq_true_eq]
  exact ⟨fun h => ⟨h.2, h.1.1, h.1.2⟩, fun h => ⟨⟨h.key_le, h.le_key⟩, h.toEncloses⟩⟩

/-- Between columns that a line has room for, a region holds what it encloses. -/
theorem Encloses.holds {r : Region} {s : Span} (h : r.Encloses s)
    (hrstart : r.start.InStride) (hrstop : r.stop.InStride) (hsstart : s.start.InStride)
    (hforward : s.start.pair ≤ s.stop.pair) : r.Holds s where
  toEncloses := h
  key_le := Position.key_le_key hrstart hsstart ((Position.le_iff_pair_le _ _).2 h.start_le)
  le_key := Position.key_le_key hsstart hrstop
    ((Position.le_iff_pair_le _ _).2 (hforward.trans h.le_stop))

end Region

namespace RegionSet

/-! ## Sets from lists -/

/-- A list makes a set unless one of its regions stops before it starts. -/
theorem ofList?_eq_none_iff (rs : List Region) :
    ofList? rs = none ↔ ∃ r ∈ rs, r.stop.key < r.start.key := by
  rw [ofList?]
  split
  · next h => simpa [Region.isInverted] using h
  · next h => simpa [Region.isInverted] using h

/-- A set has the regions of its list, in the order of their ranks. -/
theorem regions_of_ofList? {rs : List Region} {set : RegionSet}
    (h : ofList? rs = some set) :
    (∀ r, r ∈ set.regions ↔ r ∈ rs) ∧
      set.regions.Pairwise fun a b => a.rank ≤ b.rank := by
  rw [ofList?] at h
  split at h
  · contradiction
  · obtain rfl := Option.some.inj h
    constructor
    · intro r
      rw [List.mem_mergeSort, List.mem_eraseDups]
    · exact pairwise_mergeSort_of_key Region.keyLe_iff_rank_le rs.eraseDups

variable {rs : List Region} {set : RegionSet}

/-- The answer to a span is the least region that holds it. -/
theorem containing_eq_some_iff (h : ofList? rs = some set) (s : Span) (r : Region) :
    set.containing s = some r ↔
      (r ∈ rs ∧ r.Holds s) ∧ ∀ r' ∈ rs, r'.Holds s → r.rank ≤ r'.rank := by
  obtain ⟨hmem, hsorted⟩ := regions_of_ofList? h
  rw [containing, find?_eq_some_iff_of_pairwise Region.rank_injective hsorted]
  simp only [hmem, Region.holds_iff]

/-- There is no answer exactly if no region holds the span. -/
theorem containing_eq_none_iff (h : ofList? rs = some set) (s : Span) :
    set.containing s = none ↔ ∀ r ∈ rs, ¬r.Holds s := by
  obtain ⟨hmem, _⟩ := regions_of_ofList? h
  rw [containing, List.find?_eq_none]
  simp only [hmem, Region.holds_iff]

theorem isSome_containing_iff (h : ofList? rs = some set) (s : Span) :
    (set.containing s).isSome = true ↔ ∃ r ∈ rs, r.Holds s := by
  rw [Option.isSome_iff_ne_none, ne_eq, containing_eq_none_iff h]
  push Not
  rfl

/-- Whatever lists, in the order of ranks, the regions whose half-open intervals of
keys have the start of the span in them, the answer is the first of these that encloses
the span. -/
theorem containing_eq_find? (h : ofList? rs = some set) (s : Span) {hits : List Region}
    (hhits : ∀ r, r ∈ hits ↔
      r ∈ rs ∧ r.start.key ≤ s.start.key ∧ s.start.key < r.stop.key + 1)
    (hsorted : hits.Pairwise fun a b => a.rank ≤ b.rank) :
    set.containing s = hits.find? fun r => r.encloses s := by
  have hholds : ∀ r, r ∈ rs ∧ r.Holds s ↔ r ∈ hits ∧ r.encloses s = true := by
    intro r
    rw [hhits, Region.encloses_iff, Int.lt_add_one_iff]
    constructor
    · rintro ⟨hr, hholds⟩
      exact ⟨⟨hr, hholds.key_le, hholds.le_key⟩, hholds.toEncloses⟩
    · rintro ⟨⟨hr, hstart, hstop⟩, hencloses⟩
      exact ⟨hr, hencloses, hstart, hstop⟩
  apply Option.ext
  intro r
  rw [containing_eq_some_iff h,
    find?_eq_some_iff_of_pairwise Region.rank_injective hsorted, hholds]
  refine and_congr_right fun _ => forall_congr' fun r' => ?_
  rw [← and_imp, ← and_imp, hholds]

/-- What a list of regions answers.  The list is refused exactly if some region stops
before it starts.  Otherwise the answer to a span is the least region that holds it, as
a search among the intervals at its key finds it, and there is none if no region does.
Between columns that a line has room for, there is an answer exactly if some region
encloses the span. -/
theorem containment_exact (rs : List Region) :
    (ofList? rs = none ↔ ∃ r ∈ rs, r.stop.key < r.start.key) ∧
      ∀ set, ofList? rs = some set → ∀ s : Span,
        (set.containing s = none ↔ ∀ r ∈ rs, ¬r.Holds s) ∧
        (∀ r, set.containing s = some r ↔
          (r ∈ rs ∧ r.Holds s) ∧ ∀ r' ∈ rs, r'.Holds s → r.rank ≤ r'.rank) ∧
        (∀ hits : List Region,
          (∀ r, r ∈ hits ↔
            r ∈ rs ∧ r.start.key ≤ s.start.key ∧ s.start.key < r.stop.key + 1) →
          (hits.Pairwise fun a b => a.rank ≤ b.rank) →
          set.containing s = hits.find? fun r => r.encloses s) ∧
        ((∀ r ∈ rs, r.start.InStride ∧ r.stop.InStride) →
          s.start.InStride → s.stop.InStride → s.start.pair ≤ s.stop.pair →
          ((set.containing s).isSome = true ↔ ∃ r ∈ rs, r.Encloses s)) := by
  refine ⟨ofList?_eq_none_iff rs, fun set hset s => ⟨containing_eq_none_iff hset s,
    containing_eq_some_iff hset s, fun hits => containing_eq_find? hset s, ?_⟩⟩
  intro hrs hstart _ hforward
  rw [isSome_containing_iff hset]
  constructor
  · rintro ⟨r, hr, hholds⟩
    exact ⟨r, hr, hholds.toEncloses⟩
  · rintro ⟨r, hr, hencloses⟩
    exact ⟨r, hr, hencloses.holds (hrs r hr).1 (hrs r hr).2 hstart hforward⟩

/-- Regions one inside the other, one that is a single position, and one that only
touches the span. -/
def nestedRegions : List Region :=
  [⟨⟨1, 1⟩, ⟨9, 1⟩⟩, ⟨⟨2, 5⟩, ⟨2, 5⟩⟩, ⟨⟨2, 5⟩, ⟨4, 3⟩⟩, ⟨⟨4, 3⟩, ⟨6, 2⟩⟩]

/-- A span with the ends of the third of them. -/
def nestedSpan : Span := ⟨"a.rs", 2, 5, 4, 3⟩

theorem containment_exact_nestedRegions :
    ∃ set, ofList? nestedRegions = some set ∧
      (∀ r ∈ nestedRegions, r.start.InStride ∧ r.stop.InStride) ∧
      nestedSpan.start.pair ≤ nestedSpan.stop.pair ∧
      set.containing nestedSpan = some ⟨⟨1, 1⟩, ⟨9, 1⟩⟩ ∧
      ((set.containing nestedSpan).isSome = true ↔
        ∃ r ∈ nestedRegions, r.Encloses nestedSpan) := by
  obtain ⟨hrefused, hanswer⟩ := containment_exact nestedRegions
  have hset : ofList? nestedRegions ≠ none := by
    rw [ne_eq, hrefused]
    decide
  obtain ⟨set, hset⟩ := Option.ne_none_iff_exists'.1 hset
  obtain ⟨-, -, hfirst, hencloses⟩ := hanswer set hset nestedSpan
  have hstride : ∀ r ∈ nestedRegions, r.start.InStride ∧ r.stop.InStride := by
    simp [nestedRegions, Position.InStride]
  have hforward : nestedSpan.start.pair ≤ nestedSpan.stop.pair := by decide
  refine ⟨set, hset, hstride, hforward, ?_, ?_⟩
  · rw [hfirst (nestedRegions.filter fun r => r.holdsKey nestedSpan.start)]
    · decide
    · intro r
      rw [List.mem_filter, Region.holdsKey, Bool.and_eq_true, decide_eq_true_eq,
        decide_eq_true_eq, Int.lt_add_one_iff]
    · decide
  · exact hencloses hstride (by simp [nestedSpan, Span.start, Position.InStride])
      (by simp [nestedSpan, Span.stop, Position.InStride]) hforward

end RegionSet

end DeadSymbols
