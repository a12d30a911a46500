import Mathlib
import DeadSymbols.Proofs.DetectorReport
import DeadSymbols.Proofs.Representation

/-!
# Printed identities

A report names a definition by the printed form of its identity: two numbers in base
sixteen, with nothing between them, then the slot.  The two numbers can be told apart
because each takes sixteen places, as long as it has no more than 64 bits.  In a fixed
width, digits are in the order of the numbers, so printed units are sorted as the pairs
that they stand for.

A graph holds one definition for each identity.  A report lists some of its definitions,
whatever the source answers and however it comes to its answers (`satisfiesM_report`), so
no finding is listed twice, and the printed identity leads back to the definition.

## Main results

* `Text.strictMonoOn_padLeft_hexDigits` — digits in a fixed width.
* `UnitId.display_lt_iff`, `UnitId.display_inj` — printed units.
* `SymbolId.display_inj` — printed symbols.
* `Detector.printed_identities_distinguish` — all of this, and what it means for a
  report.
-/

namespace DeadSymbols

/-- Where the first parts have one length, lists are compared by the first parts, then
by the rest. -/
theorem append_lt_append_iff {α : Type} [LinearOrder α] {xs ys : List α}
    (h : xs.length = ys.length) (as bs : List α) :
    xs ++ as < ys ++ bs ↔ xs < ys ∨ xs = ys ∧ as < bs := by
  induction xs generalizing ys with
  | nil =>
      obtain rfl := List.length_eq_zero_iff.mp h.symm
      simp
  | cons x xs ih =>
      cases ys with
      | nil => simp at h
      | cons y ys =>
          rw [List.cons_append, List.cons_append, List.cons_lt_cons_iff,
            List.cons_lt_cons_iff, ih (Nat.succ.inj h), List.cons.injEq]
          tauto

namespace Text

/-! ## Digits in a fixed width -/

/-- The digits before the last are those of the number without its last digit. -/
theorem padLeft_hexDigits_succ {width : Nat} (hwidth : 0 < width) (n : Nat) :
    padLeft (width + 1) '0' (hexDigits n) =
      padLeft width '0' (hexDigits (n / 16)) ++ [Nat.digitChar (n % 16)] := by
  unfold padLeft hexDigits
  by_cases hn : n < 16
  · -- One digit, and all places before it are filled up.
    have hzero : List.replicate (width - 1) '0' ++ ['0'] = List.replicate width '0' := by
      rw [← List.replicate_succ', Nat.sub_add_cancel hwidth]
    rw [Nat.toDigits_of_lt_base hn, Nat.div_eq_of_lt hn, Nat.mod_eq_of_lt hn,
      Nat.toDigits_zero, List.length_singleton, List.length_singleton, hzero,
      Nat.add_sub_cancel]
  · rw [Nat.toDigits_of_base_le (by decide) (by omega), List.length_append,
      List.length_singleton, Nat.add_sub_add_right, List.append_assoc]

/-- A number that has no more digits than the width takes the width. -/
theorem length_padLeft_hexDigits {width n : Nat} (hwidth : 0 < width)
    (hn : n < 16 ^ width) : (padLeft width '0' (hexDigits n)).length = width := by
  have hlength : (hexDigits n).length ≤ width :=
    (Nat.length_toDigits_le_iff (by decide) hwidth).mpr hn
  rw [padLeft, List.length_append, List.length_replicate]
  omega

private theorem digitChar_lt_digitChar :
    ∀ d < 16, ∀ e < 16, d < e → Nat.digitChar d < Nat.digitChar e := by
  decide

/-- In a fixed width, digits are in the order of the numbers. -/
theorem strictMonoOn_padLeft_hexDigits {width : Nat} (hwidth : 0 < width) :
    StrictMonoOn (fun n => padLeft width '0' (hexDigits n)) (Set.Iio (16 ^ width)) := by
  induction width, hwidth using Nat.le_induction with
  | base =>
      intro n hn m hm hlt
      have hn : n < 16 := hn
      have hm : m < 16 := hm
      have hone : ∀ k < 16, padLeft 1 '0' (hexDigits k) = [Nat.digitChar k] := by
        intro k hk
        rw [padLeft, hexDigits, Nat.toDigits_of_lt_base hk]
        rfl
      show padLeft 1 '0' (hexDigits n) < padLeft 1 '0' (hexDigits m)
      rw [hone n hn, hone m hm, List.cons_lt_cons_iff]
      exact Or.inl (digitChar_lt_digitChar n hn m hm hlt)
  | succ width hwidth ih =>
      intro n hn m hm hlt
      have hn' : n / 16 < 16 ^ width := by
        rw [Nat.div_lt_iff_lt_mul (by decide), ← Nat.pow_succ]
        exact hn
      have hm' : m / 16 < 16 ^ width := by
        rw [Nat.div_lt_iff_lt_mul (by decide), ← Nat.pow_succ]
        exact hm
      have hlength : (padLeft width '0' (hexDigits (n / 16))).length =
          (padLeft width '0' (hexDigits (m / 16))).length := by
        rw [length_padLeft_hexDigits hwidth hn', length_padLeft_hexDigits hwidth hm']
      show padLeft (width + 1) '0' (hexDigits n) < padLeft (width + 1) '0' (hexDigits m)
      rw [padLeft_hexDigits_succ hwidth, padLeft_hexDigits_succ hwidth,
        append_lt_append_iff hlength]
      -- The numbers differ before their last digits, or only there.
      rcases Nat.lt_or_eq_of_le (Nat.div_le_div_right hlt.le : n / 16 ≤ m / 16) with hdiv | hdiv
      · exact Or.inl (ih hn' hm' hdiv)
      · refine Or.inr ⟨by rw [hdiv], ?_⟩
        rw [List.cons_lt_cons_iff]
        exact Or.inl (digitChar_lt_digitChar _ (Nat.mod_lt n (by decide)) _
          (Nat.mod_lt m (by decide)) (by omega))

section Word

variable {n m : Int}

private theorem hexPadded_eq (hn : 0 ≤ n) :
    hexPadded 16 n = padLeft 16 '0' (hexDigits n.natAbs) := by
  rw [hexPadded, if_neg (by omega)]

private theorem natAbs_mem (hn : 0 ≤ n) (hn' : n < 2 ^ 64) :
    n.natAbs ∈ Set.Iio (16 ^ 16) := by
  show n.natAbs < 16 ^ 16
  omega

theorem length_hexPadded (hn : 0 ≤ n) (hn' : n < 2 ^ 64) : (hexPadded 16 n).length = 16 := by
  rw [hexPadded_eq hn]
  exact length_padLeft_hexDigits (by decide) (natAbs_mem hn hn')

/-- Numbers of 64 bits in sixteen places are in their order. -/
theorem hexPadded_lt_iff (hn : 0 ≤ n) (hn' : n < 2 ^ 64) (hm : 0 ≤ m) (hm' : m < 2 ^ 64) :
    hexPadded 16 n < hexPadded 16 m ↔ n < m := by
  have hmono := @strictMonoOn_padLeft_hexDigits 16 (by decide)
  have hiff := hmono.lt_iff_lt (natAbs_mem hn hn') (natAbs_mem hm hm')
  rw [hexPadded_eq hn, hexPadded_eq hm, hiff]
  omega

/-- Numbers of 64 bits in sixteen places are told apart. -/
theorem hexPadded_inj (hn : 0 ≤ n) (hn' : n < 2 ^ 64) (hm : 0 ≤ m) (hm' : m < 2 ^ 64) :
    hexPadded 16 n = hexPadded 16 m ↔ n = m := by
  have hmono := @strictMonoOn_padLeft_hexDigits 16 (by decide)
  have hiff := hmono.injOn.eq_iff (natAbs_mem hn hn') (natAbs_mem hm hm')
  rw [hexPadded_eq hn, hexPadded_eq hm, hiff]
  omega

end Word

end Text

/-! ## Printed identities -/

/-- Both numbers of the unit have 64 bits. -/
def UnitId.IsWide (u : UnitId) : Prop :=
  (0 ≤ u.high ∧ u.high < 2 ^ 64) ∧ 0 ≤ u.low ∧ u.low < 2 ^ 64

instance (u : UnitId) : Decidable u.IsWide :=
  inferInstanceAs (Decidable ((0 ≤ u.high ∧ u.high < 2 ^ 64) ∧ 0 ≤ u.low ∧ u.low < 2 ^ 64))

namespace UnitId

variable {u v : UnitId}

theorem length_display (hu : u.IsWide) : u.display.toList.length = 32 := by
  obtain ⟨⟨hhigh, hhigh'⟩, hlow, hlow'⟩ := hu
  rw [display, String.toList_ofList, List.length_append, Text.length_hexPadded hhigh hhigh',
    Text.length_hexPadded hlow hlow']

/-- Printed units are in the order of their pairs of numbers. -/
theorem display_lt_iff (hu : u.IsWide) (hv : v.IsWide) :
    u.display < v.display ↔ u.high < v.high ∨ u.high = v.high ∧ u.low < v.low := by
  obtain ⟨⟨huhigh, huhigh'⟩, hulow, hulow'⟩ := hu
  obtain ⟨⟨hvhigh, hvhigh'⟩, hvlow, hvlow'⟩ := hv
  have hlength : (Text.hexPadded 16 u.high).length = (Text.hexPadded 16 v.high).length := by
    rw [Text.length_hexPadded huhigh huhigh', Text.length_hexPadded hvhigh hvhigh']
  rw [String.lt_iff_toList_lt, display, display, String.toList_ofList, String.toList_ofList,
    append_lt_append_iff hlength, Text.hexPadded_lt_iff huhigh huhigh' hvhigh hvhigh',
    Text.hexPadded_inj huhigh huhigh' hvhigh hvhigh',
    Text.hexPadded_lt_iff hulow hulow' hvlow hvlow']

/-- Printed units are told apart. -/
theorem display_inj (hu : u.IsWide) (hv : v.IsWide) : u.display = v.display ↔ u = v := by
  refine ⟨?_, fun h => by rw [h]⟩
  intro h
  have hlt := display_lt_iff hu hv
  have hgt := display_lt_iff hv hu
  rw [h] at hlt hgt
  simp only [lt_irrefl, false_iff] at hlt hgt
  obtain ⟨high, low⟩ := u
  obtain ⟨high', low'⟩ := v
  rw [UnitId.mk.injEq]
  dsimp only at hlt hgt
  omega

-- A number of more than 64 bits takes a seventeenth place, and then the two run together.
example : (⟨0x10000000000000001, 0⟩ : UnitId).display =
    (⟨0x1000000000000000, 0x10000000000000000⟩ : UnitId).display := by
  decide

end UnitId

/-- Printed symbols of units with 64 bits are told apart. -/
theorem SymbolId.display_inj {a b : SymbolId} (ha : a.unit.IsWide) (hb : b.unit.IsWide) :
    a.display = b.display ↔ a = b := by
  refine ⟨?_, fun h => by rw [h]⟩
  intro h
  have hlists : a.unit.display.toList ++ (":" ++ toString a.slot).toList =
      b.unit.display.toList ++ (":" ++ toString b.slot).toList := by
    rw [← String.toList_append, ← String.toList_append, ← String.append_assoc,
      ← String.append_assoc]
    exact congrArg String.toList h
  have hlength : a.unit.display.toList.length = b.unit.display.toList.length := by
    rw [UnitId.length_display ha, UnitId.length_display hb]
  -- The units take the same places, so what follows them is the slots.
  obtain ⟨hunit, hslot⟩ := List.append_inj hlists hlength
  have hunit : a.unit = b.unit := (UnitId.display_inj ha hb).mp (String.toList_injective hunit)
  have hslot : a.slot = b.slot := by
    rw [String.toList_append, String.toList_append] at hslot
    have hprinted := String.toList_injective (List.append_cancel_left hslot)
    rw [Int.toString_eq_repr, Int.toString_eq_repr] at hprinted
    exact Int.repr_injective hprinted
  obtain ⟨unit, slot⟩ := a
  obtain ⟨unit', slot'⟩ := b
  rw [SymbolId.mk.injEq]
  exact ⟨hunit, hslot⟩

namespace SymbolGraph

/-- The definitions of a graph stand under distinct keys. -/
theorem keyed_after (ops : List Operation) : (after ops).definitions.Keyed := by
  obtain ⟨ds, rs, h⟩ := exists_wrote ops
  rw [h.after.1]
  exact Ledger.keyed_empty.putAll _

/-- Definitions of a graph are told apart by their identities. -/
theorem eq_of_id_eq {ops : List Operation} {d d' : Definition}
    (hd : d ∈ (after ops).definitions.values) (hd' : d' ∈ (after ops).definitions.values)
    (h : d.id = d'.id) : d = d' := by
  have hget : ∀ e ∈ (after ops).definitions.values,
      (after ops).definitions.get? e.id = some e := by
    intro e he
    obtain ⟨⟨id, e'⟩, hmem, rfl⟩ := List.mem_map.mp he
    obtain rfl := selfKeyed_after ops id e' hmem
    exact (Ledger.mem_entries_iff_get? (keyed_after ops) e'.id e').mp hmem
  have hsame := hget d hd
  rw [h, hget d' hd'] at hsame
  exact (Option.some.inj hsame).symm

end SymbolGraph

namespace Detector

/-! ## Reports -/

section Monad

variable {m : Type → Type} [Monad m] [LawfulMonad m]

/-- The findings among candidates are those about some of them, in their order. -/
theorem satisfiesM_evaluate (g : SymbolGraph) (policy : Policy) (source : Source m)
    (ds : List Definition) :
    SatisfiesM (fun found => ∃ es : List Definition, es.Sublist ds ∧ found = es.map finding)
      (evaluate g policy source ds) := by
  induction ds with
  | nil => exact SatisfiesM.pure ⟨[], List.Sublist.refl [], rfl⟩
  | cons d ds ih =>
      rw [evaluate]
      refine SatisfiesM.trivial.bind fun reason? _ => ?_
      cases reason? with
      | none =>
          refine ih.bind fun found hfound => ?_
          obtain ⟨es, hes, rfl⟩ := hfound
          exact SatisfiesM.pure ⟨d :: es, hes.cons_cons d, rfl⟩
      | some r =>
          refine SatisfiesM.trivial.bind fun _ _ => ih.imp ?_
          rintro found ⟨es, hes, rfl⟩
          exact ⟨es, hes.cons d, rfl⟩

/-- A report lists findings about some of the candidates, whatever the source does. -/
theorem satisfiesM_report (g : SymbolGraph) (policy : Policy) (source : Source m)
    (workers : Option Int) :
    SatisfiesM (fun found => ∃ ds : List Definition, ds.Sublist (candidates g) ∧
      found.Perm (ds.map finding)) (report g policy source workers) := by
  rw [report_eq]
  refine (satisfiesM_evaluate g policy source (candidates g)).bind fun found hfound => ?_
  obtain ⟨ds, hds, rfl⟩ := hfound
  exact SatisfiesM.pure ⟨ds, hds, Finding.inOrder_perm _⟩

end Monad

/-- The findings are all different, and each leads back to one definition of the graph,
which is the only one with the printed identity. -/
structure Distinguishes (g : SymbolGraph) (found : List Finding) : Prop where
  nodup : found.Nodup
  definition : ∀ f ∈ found, ∃ d ∈ g.definitions.values, f = finding d ∧
    ∀ d' ∈ g.definitions.values, d'.id.display = f.symbol → d' = d

/-- Findings about some of the candidates are told apart. -/
theorem distinguishes_of_sublist {ops : List SymbolGraph.Operation}
    (hwide : ∀ d ∈ (SymbolGraph.after ops).definitions.values, d.id.unit.IsWide)
    {ds : List Definition} (hds : ds.Sublist (candidates (SymbolGraph.after ops)))
    {found : List Finding} (hfound : found.Perm (ds.map finding)) :
    Distinguishes (SymbolGraph.after ops) found := by
  have hvalues : ∀ d ∈ ds, d ∈ (SymbolGraph.after ops).definitions.values := by
    intro d hd
    exact (List.filter_sublist.map Prod.snd).mem (hds.mem hd)
  have hids : (ds.map Definition.id).Nodup :=
    List.Nodup.sublist (hds.map Definition.id)
      (nodup_ids_of_keys (SymbolGraph.keyed_after ops) (SymbolGraph.selfKeyed_after ops))
  have hsymbol : ∀ d ∈ ds, ∀ d' ∈ (SymbolGraph.after ops).definitions.values,
      d'.id.display = d.id.display → d' = d := by
    intro d hd d' hd' hdisplay
    have hid := (SymbolId.display_inj (hwide d' hd') (hwide d (hvalues d hd))).mp hdisplay
    exact SymbolGraph.eq_of_id_eq hd' (hvalues d hd) hid
  constructor
  · rw [hfound.nodup_iff]
    refine List.Nodup.map_on ?_ hids.of_map
    intro d hd d' hd' hsame
    exact hsymbol d' hd' d (hvalues d hd) (congrArg Finding.symbol hsame)
  · intro f hf
    obtain ⟨d, hd, rfl⟩ := List.mem_map.mp (hfound.mem_iff.mp hf)
    exact ⟨d, hvalues d hd, rfl, hsymbol d hd⟩

/-- Printed identities tell definitions apart.  Units whose numbers have 64 bits are
printed differently if they are different, and in their order by code points if they are
sorted by their numbers.  Symbols of such units are printed differently if their units or
their slots differ, and slots may be any integers.  So in every graph that has only such
units, a report lists nothing twice and the printed identity of a finding is that of one
definition, whatever the source is asked and whatever it does. -/
theorem printed_identities_distinguish :
    (∀ u v : UnitId, u.IsWide → v.IsWide →
      (u.display = v.display → u = v) ∧
        (u.display < v.display ↔ u.high < v.high ∨ u.high = v.high ∧ u.low < v.low)) ∧
    (∀ a b : SymbolId, a.unit.IsWide → b.unit.IsWide → a.display = b.display → a = b) ∧
    ∀ ops : List SymbolGraph.Operation,
      (∀ d ∈ (SymbolGraph.after ops).definitions.values, d.id.unit.IsWide) →
      ∀ (m : Type → Type) [Monad m] [LawfulMonad m] (policy : Policy) (source : Source m)
        (workers : Option Int),
        SatisfiesM (Distinguishes (SymbolGraph.after ops))
          (report (SymbolGraph.after ops) policy source workers) := by
  refine ⟨?_, ?_, ?_⟩
  · intro u v hu hv
    exact ⟨(UnitId.display_inj hu hv).mp, UnitId.display_lt_iff hu hv⟩
  · intro a b ha hb h
    exact (SymbolId.display_inj ha hb).mp h
  · intro ops hwide m _ _ policy source workers
    refine (satisfiesM_report (SymbolGraph.after ops) policy source workers).imp ?_
    rintro found ⟨ds, hds, hfound⟩
    exact distinguishes_of_sublist hwide hds hfound

/-- Definitions that are alike in all but their identities. -/
def likeOperations : List SymbolGraph.Operation :=
  [⟨⟨2 ^ 64 - 1, 0⟩, 1⟩, ⟨⟨2 ^ 64 - 1, 0⟩, -1⟩, ⟨⟨0, 2 ^ 64 - 1⟩, -1⟩].map fun id =>
    .addDefinition ⟨"Function", "draw", id, ⟨"src/lib.rs", 1, 1, 1, 9⟩, none, none⟩

/-- All three are reported, and told apart. -/
theorem printed_identities_distinguish_likeOperations :
    (⟨0, 2 ^ 64 - 1⟩ : UnitId).display < (⟨2 ^ 64 - 1, 0⟩ : UnitId).display ∧
    (⟨⟨0, 2 ^ 64 - 1⟩, -1⟩ : SymbolId).display ≠ (⟨⟨0, 2 ^ 64 - 1⟩, 1⟩ : SymbolId).display ∧
    (∀ d ∈ (SymbolGraph.after likeOperations).definitions.values, d.id.unit.IsWide) ∧
    ∃ found, (report (SymbolGraph.after likeOperations) .resolve (Source.ofLookup none)
        (some 2) : Id (List Finding)) = found ∧
      found.length = 3 ∧ Distinguishes (SymbolGraph.after likeOperations) found := by
  obtain ⟨hunits, hsymbols, hreport⟩ := printed_identities_distinguish
  have hlow : (⟨0, 2 ^ 64 - 1⟩ : UnitId).IsWide := by decide +kernel
  have hhigh : (⟨2 ^ 64 - 1, 0⟩ : UnitId).IsWide := by decide +kernel
  have hwide : ∀ d ∈ (SymbolGraph.after likeOperations).definitions.values,
      d.id.unit.IsWide := by
    decide +kernel
  refine ⟨(hunits _ _ hlow hhigh).2.mpr (by decide +kernel), ?_, hwide, _, rfl, ?_,
    SatisfiesM_Id_eq.mp (hreport likeOperations hwide Id .resolve (Source.ofLookup none) (some 2))⟩
  · intro h
    have hslot := congrArg SymbolId.slot (hsymbols _ _ hlow hlow h)
    contradiction
  · rw [report_ofLookup, (Finding.inOrder_perm _).length_eq]
    decide +kernel

end Detector

end DeadSymbols
