import Mathlib
import DeadSymbols.Ledger

/-!
# Reading a ledger back

A ledger is written key by key and read through `get?`, `has`, `keys` and
`entries`.  This module says once what each of them sees after one write and
after a list of writes, so that a caller never opens `putList`.

A ledger that was only ever written to holds each key once (`Keyed`).  On such a
ledger membership among the entries and reading by key are the same thing, and
what is read under a key is the last value written under it.

## Main results

* `get?_put`, `mem_keys_put` — one write changes what is read under its key and
  nothing else.
* `get?_putAll` — after a list of writes a key holds the last value written
  under it, or what it held before.
* `lastWrite?_eq_some_iff` — the last value under a key, said without the
  ledger: it is written and no later write has the key.
* `mem_entries_iff_get?` — in a ledger with one entry for each key, an entry is
  what is read under its key.
* `putAll_of_lastWrite?` — writes whose last values are already there change
  nothing, not even the order of the entries; so a list of writes that is written
  twice is as good as written once (`putAll_putAll`).
-/

namespace DeadSymbols.Ledger

variable {α β : Type}

/-- The ledger holds each key once. -/
def Keyed (l : Ledger α β) : Prop := l.keys.Nodup

theorem keyed_empty : (empty : Ledger α β).Keyed := List.nodup_nil

theorem length_keys (l : Ledger α β) : l.keys.length = l.size := by
  rw [keys, List.length_map, size]

theorem Keyed.nodup_entries {l : Ledger α β} (h : l.Keyed) : l.entries.Nodup :=
  List.Nodup.of_map Prod.fst h

/-- Ledgers with one entry for each key and the same keys have the same size. -/
theorem size_eq {l l' : Ledger α β} (hl : l.Keyed) (hl' : l'.Keyed)
    (h : ∀ key, key ∈ l.keys ↔ key ∈ l'.keys) : l.size = l'.size := by
  rw [← length_keys, ← length_keys]
  exact ((List.perm_ext_iff_of_nodup hl hl').mpr h).length_eq

variable [DecidableEq α]

/-! ## One write -/

private theorem lookup_putList (key other : α) (value : β) (es : List (α × β)) :
    (putList key value es).lookup other =
      if other = key then some value else es.lookup other := by
  induction es with
  | nil =>
      by_cases h : other = key
      · simp [putList, h]
      · have hb : (other == key) = false := by simpa using h
        simp only [putList, List.lookup_cons, hb, List.lookup_nil, if_neg h]
  | cons e es ih =>
      obtain ⟨k, v⟩ := e
      by_cases h : other = k
      · subst h
        by_cases hk : other = key
        · simp [putList, hk]
        · simp [putList, hk]
      · have hb : (other == k) = false := by simpa using h
        by_cases hk : k = key
        · subst hk
          simp only [putList, ↓reduceIte, List.lookup_cons, hb, if_neg h]
        · simp only [putList, if_neg hk, List.lookup_cons, hb, ih]

/-- A write is read back under its key and leaves every other key alone. -/
theorem get?_put (l : Ledger α β) (key other : α) (value : β) :
    (l.put key value).get? other =
      if other = key then some value else l.get? other :=
  lookup_putList key other value l.entries

theorem get?_put_self (l : Ledger α β) (key : α) (value : β) :
    (l.put key value).get? key = some value := by
  rw [get?_put, if_pos rfl]

theorem get?_put_ne (l : Ledger α β) {key other : α} (value : β)
    (h : other ≠ key) : (l.put key value).get? other = l.get? other := by
  rw [get?_put, if_neg h]

@[simp] theorem get?_empty (key : α) :
    (empty : Ledger α β).get? key = none := rfl

private theorem map_fst_putList (key : α) (value : β) (es : List (α × β)) :
    (putList key value es).map Prod.fst =
      if key ∈ es.map Prod.fst then es.map Prod.fst
      else es.map Prod.fst ++ [key] := by
  induction es with
  | nil => simp [putList]
  | cons e es ih =>
      obtain ⟨k, v⟩ := e
      by_cases hk : k = key
      · subst hk
        simp [putList]
      · have hne : key ≠ k := fun h => hk h.symm
        simp only [putList, if_neg hk, List.map_cons, ih, List.mem_cons, hne,
          false_or]
        split <;> simp

/-- A new key goes to the end; a known key stays where it is. -/
theorem keys_put (l : Ledger α β) (key : α) (value : β) :
    (l.put key value).keys =
      if key ∈ l.keys then l.keys else l.keys ++ [key] :=
  map_fst_putList key value l.entries

theorem mem_keys_put (l : Ledger α β) (key other : α) (value : β) :
    other ∈ (l.put key value).keys ↔ other = key ∨ other ∈ l.keys := by
  rw [keys_put]
  split
  · next h =>
      constructor
      · exact Or.inr
      · rintro (rfl | hmem)
        · exact h
        · exact hmem
  · rw [List.mem_append, List.mem_singleton]
    exact Or.comm

/-! ## Ledgers with one entry for each key -/

/-- Writing keeps the keys apart. -/
theorem Keyed.put {l : Ledger α β} (h : l.Keyed) (key : α) (value : β) :
    (l.put key value).Keyed := by
  unfold Keyed
  rw [keys_put]
  split
  · exact h
  · next hnew =>
      rw [List.nodup_append]
      refine ⟨h, List.nodup_singleton key, ?_⟩
      intro a ha b hb hab
      rw [List.mem_singleton] at hb
      subst hab
      exact hnew (hb ▸ ha)

@[simp] theorem has_eq_true_iff (l : Ledger α β) (key : α) :
    l.has key = true ↔ key ∈ l.keys := by
  simp only [has, keys, List.any_eq_true, List.mem_map, decide_eq_true_eq]

theorem mem_keys_iff_get? (l : Ledger α β) (key : α) :
    key ∈ l.keys ↔ ∃ value, l.get? key = some value := by
  rw [← Option.isSome_iff_exists, get?, List.lookup_isSome_iff]
  simp only [keys, List.mem_map, beq_iff_eq]
  constructor
  · rintro ⟨e, he, rfl⟩
    exact ⟨e, he, rfl⟩
  · rintro ⟨e, he, rfl⟩
    exact ⟨e, he, rfl⟩

/-- In a ledger with one entry for each key, an entry is what is read under its
key. -/
theorem mem_entries_iff_get? {l : Ledger α β} (h : l.Keyed) (key : α)
    (value : β) : (key, value) ∈ l.entries ↔ l.get? key = some value := by
  rw [get?, List.lookup_eq_some_iff]
  constructor
  · intro hmem
    obtain ⟨before, after, heq⟩ := List.append_of_mem hmem
    refine ⟨before, after, heq, ?_⟩
    intro e he
    have hkeys : (before.map Prod.fst ++ key :: after.map Prod.fst).Nodup := by
      simpa [Keyed, keys, heq] using h
    have happ := (List.nodup_append.mp hkeys).2.2
    have hne : e.1 ≠ key :=
      happ e.1 (List.mem_map_of_mem he) key List.mem_cons_self
    simpa using hne.symm
  · rintro ⟨before, after, heq, -⟩
    rw [heq]
    exact List.mem_append_right before List.mem_cons_self

/-! ## Many writes -/

/-- The ledger after a list of writes. -/
def putAll (l : Ledger α β) (writes : List (α × β)) : Ledger α β :=
  writes.foldl (fun l w => l.put w.1 w.2) l

theorem putAll_nil (l : Ledger α β) : l.putAll [] = l := rfl

theorem putAll_cons (l : Ledger α β) (w : α × β) (ws : List (α × β)) :
    l.putAll (w :: ws) = (l.put w.1 w.2).putAll ws := rfl

theorem putAll_append (l : Ledger α β) (ws vs : List (α × β)) :
    l.putAll (ws ++ vs) = (l.putAll ws).putAll vs :=
  List.foldl_append

/-- The last value that a list of writes puts under a key. -/
def lastWrite? (key : α) : List (α × β) → Option β
  | [] => none
  | w :: rest =>
    (lastWrite? key rest).or (if w.1 = key then some w.2 else none)

/-- No value is put under a key that no write has. -/
theorem lastWrite?_eq_none_iff (key : α) (ws : List (α × β)) :
    lastWrite? key ws = none ↔ ∀ w ∈ ws, w.1 ≠ key := by
  induction ws with
  | nil => simp [lastWrite?]
  | cons w ws ih =>
      rw [lastWrite?, Option.or_eq_none_iff, ih, List.forall_mem_cons]
      by_cases h : w.1 = key
      · simp [h]
      · simp [h]

/-- The last value under a key is one that is written under it with no write of
that key after it. -/
theorem lastWrite?_eq_some_iff (key : α) (value : β) (ws : List (α × β)) :
    lastWrite? key ws = some value ↔
      ∃ before after, ws = before ++ (key, value) :: after ∧
        ∀ w ∈ after, w.1 ≠ key := by
  induction ws with
  | nil => simp [lastWrite?]
  | cons w ws ih =>
      rw [lastWrite?, Option.or_eq_some_iff]
      constructor
      · rintro (hrest | ⟨hnone, hhere⟩)
        · obtain ⟨before, after, rfl, hafter⟩ := ih.mp hrest
          exact ⟨w :: before, after, rfl, hafter⟩
        · split at hhere
          · next hkey =>
              obtain rfl := Option.some.inj hhere
              subst hkey
              exact ⟨[], ws, rfl, (lastWrite?_eq_none_iff w.1 ws).mp hnone⟩
          · exact absurd hhere (by simp)
      · rintro ⟨before, after, heq, hafter⟩
        cases before with
        | nil =>
            rw [List.nil_append, List.cons.injEq] at heq
            obtain ⟨rfl, rfl⟩ := heq
            refine Or.inr ⟨(lastWrite?_eq_none_iff key ws).mpr hafter, ?_⟩
            exact if_pos rfl
        | cons b before =>
            rw [List.cons_append, List.cons.injEq] at heq
            obtain ⟨rfl, rfl⟩ := heq
            exact Or.inl (ih.mpr ⟨before, after, rfl, hafter⟩)

/-- After a list of writes a key holds the last value written under it, and a key
that was not written holds what it held before. -/
theorem get?_putAll (l : Ledger α β) (key : α) (ws : List (α × β)) :
    (l.putAll ws).get? key = (lastWrite? key ws).or (l.get? key) := by
  induction ws generalizing l with
  | nil => rfl
  | cons w ws ih =>
      rw [putAll_cons, ih, lastWrite?, Option.or_assoc]
      congr 1
      by_cases h : w.1 = key
      · subst h
        rw [get?_put_self, if_pos rfl, Option.some_or]
      · rw [get?_put_ne l w.2 (Ne.symm h), if_neg h, Option.none_or]

theorem mem_keys_putAll (l : Ledger α β) (key : α) (ws : List (α × β)) :
    key ∈ (l.putAll ws).keys ↔ (∃ w ∈ ws, w.1 = key) ∨ key ∈ l.keys := by
  induction ws generalizing l with
  | nil => simp [putAll_nil]
  | cons w ws ih =>
      rw [putAll_cons, ih, mem_keys_put, List.exists_mem_cons_iff]
      constructor
      · rintro (h | h | h)
        · exact Or.inl (Or.inr h)
        · exact Or.inl (Or.inl h.symm)
        · exact Or.inr h
      · rintro ((h | h) | h)
        · exact Or.inr (Or.inl h.symm)
        · exact Or.inl h
        · exact Or.inr (Or.inr h)

theorem Keyed.putAll {l : Ledger α β} (h : l.Keyed) (ws : List (α × β)) :
    (l.putAll ws).Keyed := by
  induction ws generalizing l with
  | nil => exact h
  | cons w ws ih => exact ih (h.put w.1 w.2)

/-- A ledger filled by a list of writes holds exactly the last writes. -/
theorem get?_putAll_empty_iff (key : α) (value : β) (ws : List (α × β)) :
    ((empty : Ledger α β).putAll ws).get? key = some value ↔
      ∃ before after, ws = before ++ (key, value) :: after ∧
        ∀ w ∈ after, w.1 ≠ key := by
  rw [get?_putAll, get?_empty, Option.or_none, lastWrite?_eq_some_iff]

/-- Where some items of a list make a write, a key holds what the last item that
writes it makes. -/
theorem get?_putAll_filterMap_iff {γ : Type} (f : γ → Option (α × β)) (key : α)
    (value : β) (items : List γ) :
    ((empty : Ledger α β).putAll (items.filterMap f)).get? key = some value ↔
      ∃ before item after, items = before ++ item :: after ∧
        f item = some (key, value) ∧
        ∀ later ∈ after, ∀ w, f later = some w → w.1 ≠ key := by
  rw [get?_putAll_empty_iff]
  constructor
  · rintro ⟨before, after, heq, hafter⟩
    obtain ⟨items₁, items₂, rfl, -, htail⟩ := List.filterMap_eq_append_iff.mp heq
    obtain ⟨silent, item, items₃, rfl, -, hitem, rfl⟩ :=
      List.filterMap_eq_cons_iff.mp htail
    refine ⟨items₁ ++ silent, item, items₃, by rw [List.append_assoc], hitem, ?_⟩
    intro later hlater w hw
    exact hafter w (List.mem_filterMap.mpr ⟨later, hlater, hw⟩)
  · rintro ⟨before, item, after, rfl, hitem, hafter⟩
    refine ⟨before.filterMap f, after.filterMap f, ?_, ?_⟩
    · rw [List.filterMap_append, List.filterMap_cons_some hitem]
    · intro w hw
      obtain ⟨later, hlater, hw⟩ := List.mem_filterMap.mp hw
      exact hafter later hlater w hw

/-- A ledger filled with values that carry their keys holds, under a key, the
last value with that key. -/
theorem get?_putAll_map_iff (keyOf : β → α) (key : α) (value : β)
    (values : List β) :
    ((empty : Ledger α β).putAll (values.map fun v => (keyOf v, v))).get? key =
        some value ↔
      keyOf value = key ∧
        ∃ before after, values = before ++ value :: after ∧
          ∀ v ∈ after, keyOf v ≠ key := by
  rw [← List.filterMap_eq_map', get?_putAll_filterMap_iff]
  constructor
  · rintro ⟨before, item, after, rfl, hitem, hafter⟩
    obtain ⟨rfl, rfl⟩ := Prod.mk.inj (Option.some.inj hitem)
    exact ⟨rfl, before, after, rfl, fun v hv => hafter v hv _ rfl⟩
  · rintro ⟨rfl, before, after, rfl, hafter⟩
    refine ⟨before, value, after, rfl, rfl, ?_⟩
    rintro v hv w ⟨⟩
    exact hafter v hv

/-- A ledger filled with values that carry their keys has every value under its key. -/
theorem key_eq_of_mem_putAll_map {keyOf : β → α} {values : List β} {key : α} {value : β}
    (h : (key, value) ∈
      ((empty : Ledger α β).putAll (values.map fun v => (keyOf v, v))).entries) :
    key = keyOf value := by
  rw [mem_entries_iff_get? (keyed_empty.putAll _), get?_putAll_map_iff keyOf] at h
  exact h.1.symm

/-- A ledger filled by a list of writes has as many keys as there are among the
writes. -/
theorem size_putAll_empty (ws : List (α × β)) :
    ((empty : Ledger α β).putAll ws).size = (ws.map Prod.fst).toFinset.card := by
  have hkeyed : ((empty : Ledger α β).putAll ws).Keyed := keyed_empty.putAll ws
  rw [← length_keys, ← List.toFinset_card_of_nodup hkeyed]
  congr 1
  ext key
  rw [List.mem_toFinset, List.mem_toFinset, mem_keys_putAll, List.mem_map]
  simp [keys, empty]

/-! ## Writing new keys -/

private theorem putList_of_not_mem {key : α} {es : List (α × β)}
    (h : key ∉ es.map Prod.fst) (value : β) :
    putList key value es = es ++ [(key, value)] := by
  induction es with
  | nil => rfl
  | cons e es ih =>
      rw [List.map_cons, List.mem_cons, not_or] at h
      obtain ⟨hne, hrest⟩ := h
      rw [putList, if_neg (Ne.symm hne), ih hrest, List.cons_append]

/-- Writes to new keys, no two to the same one, are the new entries. -/
theorem entries_putAll_of_nodup {l : Ledger α β} {ws : List (α × β)}
    (h : (l.keys ++ ws.map Prod.fst).Nodup) : (l.putAll ws).entries = l.entries ++ ws := by
  induction ws generalizing l with
  | nil => rw [putAll_nil, List.append_nil]
  | cons w ws ih =>
      have hnew : w.1 ∉ l.keys := by
        intro hmem
        exact List.disjoint_of_nodup_append h hmem List.mem_cons_self
      have hentries : (l.put w.1 w.2).entries = l.entries ++ [w] :=
        putList_of_not_mem hnew w.2
      have hrest : ((l.put w.1 w.2).keys ++ ws.map Prod.fst).Nodup := by
        rw [keys, hentries, List.map_append, List.append_assoc]
        exact h
      rw [putAll_cons, ih hrest, hentries, List.append_assoc, List.singleton_append]

/-! ## Writing again -/

private theorem putList_putList (key : α) (value value' : β) (es : List (α × β)) :
    putList key value' (putList key value es) = putList key value' es := by
  induction es with
  | nil => simp [putList]
  | cons e es ih =>
      obtain ⟨k, v⟩ := e
      by_cases hk : k = key
      · simp [putList, hk]
      · simp [putList, hk, ih]

/-- A value written over another leaves no trace of it. -/
theorem put_put (l : Ledger α β) (key : α) (value value' : β) :
    (l.put key value).put key value' = l.put key value' := by
  rw [put, put, put, putList_putList]

private theorem putList_comm {key other : α} (hne : key ≠ other) (value value' : β)
    {es : List (α × β)} (hknown : key ∈ es.map Prod.fst) :
    putList other value' (putList key value es) =
      putList key value (putList other value' es) := by
  induction es with
  | nil => cases hknown
  | cons e es ih =>
      obtain ⟨k, v⟩ := e
      by_cases hk : k = key
      · subst hk
        simp [putList, hne]
      · have hrest : key ∈ es.map Prod.fst := by
          rw [List.map_cons, List.mem_cons] at hknown
          exact hknown.resolve_left fun h => hk h.symm
        by_cases ho : k = other
        · subst ho
          simp [putList, hk]
        · simp [putList, hk, ho, ih hrest]

/-- A known key can be written before or after another one.  A new key cannot: it
takes its place when it is first written. -/
theorem put_comm {l : Ledger α β} {key other : α} (hknown : key ∈ l.keys)
    (hne : key ≠ other) (value value' : β) :
    (l.put key value).put other value' = (l.put other value').put key value := by
  rw [put, put, put, put, putList_comm hne value value' hknown]

private theorem putList_of_lookup {key : α} {value : β} {es : List (α × β)}
    (h : es.lookup key = some value) : putList key value es = es := by
  induction es with
  | nil => cases h
  | cons e es ih =>
      obtain ⟨k, v⟩ := e
      by_cases hk : k = key
      · subst hk
        rw [List.lookup_cons_self, Option.some.injEq] at h
        rw [putList, if_pos rfl, h]
      · have hb : (key == k) = false := by simpa using Ne.symm hk
        rw [List.lookup_cons, hb] at h
        rw [putList, if_neg hk, ih h]

/-- To write what is already there changes nothing. -/
theorem put_of_get? {l : Ledger α β} {key : α} {value : β}
    (h : l.get? key = some value) : l.put key value = l := by
  rw [put, putList_of_lookup h]

/-- A write to a known key that is written again later leaves no trace. -/
theorem putAll_put_of_rewritten {l : Ledger α β} {key : α} {ws : List (α × β)}
    (hknown : key ∈ l.keys) (hlater : ∃ w ∈ ws, w.1 = key) (value : β) :
    (l.put key value).putAll ws = l.putAll ws := by
  induction ws generalizing l with
  | nil => simp at hlater
  | cons w ws ih =>
      rw [putAll_cons, putAll_cons]
      by_cases hw : w.1 = key
      · rw [hw, put_put]
      · have hrest : ∃ w ∈ ws, w.1 = key := by
          rw [List.exists_mem_cons_iff] at hlater
          exact hlater.resolve_left hw
        have hstill : key ∈ (l.put w.1 w.2).keys :=
          (mem_keys_put l w.1 key w.2).mpr (Or.inr hknown)
        rw [put_comm hknown (Ne.symm hw)]
        exact ih hstill hrest

/-- Writes of which the last under each key is already there change nothing, whatever
the writes before them put under their keys in between. -/
theorem putAll_of_lastWrite? {l : Ledger α β} {ws : List (α × β)}
    (h : ∀ key value, lastWrite? key ws = some value → l.get? key = some value) :
    l.putAll ws = l := by
  induction ws with
  | nil => rfl
  | cons w ws ih =>
      have hrest : l.putAll ws = l := by
        refine ih ?_
        intro key value hlast
        refine h key value ?_
        rw [lastWrite?, hlast, Option.some_or]
      rw [putAll_cons]
      -- The first write either is the last under its key, and then it is already
      -- there, or it is overwritten by a later one.
      cases hlast : lastWrite? w.1 ws with
      | none =>
          have hhere : l.get? w.1 = some w.2 := by
            refine h w.1 w.2 ?_
            rw [lastWrite?, hlast, Option.none_or, if_pos rfl]
          rw [put_of_get? hhere, hrest]
      | some value =>
          have hlater : ∃ w' ∈ ws, w'.1 = w.1 := by
            by_contra hno
            push Not at hno
            rw [(lastWrite?_eq_none_iff w.1 ws).mpr hno] at hlast
            cases hlast
          have hget : l.get? w.1 = some value := by
            refine h w.1 value ?_
            rw [lastWrite?, hlast, Option.some_or]
          have hknown : w.1 ∈ l.keys := (mem_keys_iff_get? l w.1).mpr ⟨value, hget⟩
          rw [putAll_put_of_rewritten hknown hlater, hrest]

/-- To write a list a second time changes nothing. -/
theorem putAll_putAll (l : Ledger α β) (ws : List (α × β)) :
    (l.putAll ws).putAll ws = l.putAll ws := by
  refine putAll_of_lastWrite? ?_
  intro key value hlast
  rw [get?_putAll, hlast, Option.some_or]

/-- Writes to known keys leave the keys as they are. -/
theorem keys_putAll_of_known {l : Ledger α β} {ws : List (α × β)}
    (h : ∀ w ∈ ws, w.1 ∈ l.keys) : (l.putAll ws).keys = l.keys := by
  induction ws generalizing l with
  | nil => rfl
  | cons w ws ih =>
      have hkeys : (l.put w.1 w.2).keys = l.keys := by
        rw [keys_put, if_pos (h w List.mem_cons_self)]
      have hrest : ∀ w' ∈ ws, w'.1 ∈ (l.put w.1 w.2).keys := by
        intro w' hw'
        rw [hkeys]
        exact h w' (List.mem_cons_of_mem w hw')
      rw [putAll_cons, ih hrest, hkeys]

/-- To write some of a list again leaves the keys as they are. -/
theorem keys_putAll_again (l : Ledger α β) {ws vs : List (α × β)} (h : vs ⊆ ws) :
    ((l.putAll ws).putAll vs).keys = (l.putAll ws).keys := by
  refine keys_putAll_of_known ?_
  intro w hw
  exact (mem_keys_putAll l w.1 ws).mpr (Or.inl ⟨w, h hw, rfl⟩)

/-! ## Ledgers that are read alike -/

/-- Ledgers with one entry for each key that are read alike have the same entries, if
not in the same order. -/
theorem entries_perm {l l' : Ledger α β} (hl : l.Keyed) (hl' : l'.Keyed)
    (h : ∀ key, l.get? key = l'.get? key) : l.entries.Perm l'.entries := by
  refine (List.perm_ext_iff_of_nodup hl.nodup_entries hl'.nodup_entries).mpr ?_
  rintro ⟨key, value⟩
  rw [mem_entries_iff_get? hl, mem_entries_iff_get? hl', h]

end DeadSymbols.Ledger
