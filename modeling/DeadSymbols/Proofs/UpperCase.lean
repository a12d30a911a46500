import Mathlib
import DeadSymbols.Text.Letter

/-!
# Upper case is a normal form

Some code points are letters that have an upper case of their own, and some are an upper case
or a part of one.  No code point is of both kinds: as sets of bits the two kinds have nothing
in common.  Writing a text in upper case therefore changes it once at most, and it never leaves
an empty text.

## Main results

* `upperImages_disjoint_upperSources` — no code point is of both kinds.
* `upperCase_upperCase`, `upperCase_ne_empty` — texts in upper case.
-/

namespace DeadSymbols.Text

/-- The code points of a run. -/
def CaseRun.points (run : CaseRun) : List Nat :=
  List.range' run.first ((run.last - run.first) / run.step + 1) run.step

theorem CaseRun.mem_points_of_holds {run : CaseRun} {n : Nat} (h : run.holds n = true) :
    n ∈ run.points := by
  simp only [holds, Bool.and_eq_true, decide_eq_true_eq, beq_iff_eq] at h
  obtain ⟨⟨hfirst, hlast⟩, hstep⟩ := h
  refine List.mem_range'.mpr ⟨(n - run.first) / run.step, ?_, ?_⟩
  · exact Nat.lt_succ_of_le (Nat.div_le_div_right (by omega))
  · rw [Nat.mul_div_cancel' (Nat.dvd_of_mod_eq_zero hstep)]
    omega

/-- The code points of the letters that have an upper case of their own. -/
def upperSources : List Nat :=
  upperRuns.flatMap CaseRun.points ++ upperWide.map (·.1)

/-- The code points that are an upper case, or a part of one. -/
def upperImages : List Nat :=
  upperRuns.flatMap (fun run => run.points.map fun n : Nat => Int.toNat (n + run.offset)) ++
    upperWide.flatMap (·.2)

/-- A set of numbers, as the bits of one number. -/
def bitSet : List Nat → Nat
  | [] => 0
  | n :: rest => 1 <<< n ||| bitSet rest

theorem testBit_bitSet {n : Nat} {ns : List Nat} (h : n ∈ ns) : (bitSet ns).testBit n = true := by
  induction ns with
  | nil => exact absurd h List.not_mem_nil
  | cons m rest ih =>
    rw [bitSet, Nat.testBit_or, Bool.or_eq_true]
    obtain rfl | h := List.mem_cons.mp h
    · left
      simp [Nat.testBit_shiftLeft]
    · exact Or.inr (ih h)

theorem upperImages_disjoint_upperSources :
    bitSet upperImages &&& bitSet upperSources = 0 := by
  decide +kernel

theorem notMem_upperSources {n : Nat} (h : n ∈ upperImages) : n ∉ upperSources := by
  intro hsource
  have hboth : (bitSet upperImages &&& bitSet upperSources).testBit n = true := by
    rw [Nat.testBit_and, testBit_bitSet h, testBit_bitSet hsource, Bool.and_self]
  rw [upperImages_disjoint_upperSources, Nat.zero_testBit] at hboth
  exact absurd hboth (by decide)

theorem wide_ne_nil : ∀ e ∈ upperWide, e.2 ≠ [] := by
  decide +kernel

theorem mem_upperWide_of_lookup {n : Nat} {image : List Nat}
    (h : upperWide.lookup n = some image) : (n, image) ∈ upperWide := by
  obtain ⟨before, after, hsplit, -⟩ := List.lookup_eq_some_iff.mp h
  rw [hsplit]
  exact List.mem_append_right _ List.mem_cons_self

/-- A character that is no such letter is its own upper case. -/
theorem upperChar_of_notMem {c : Char} (h : c.toNat ∉ upperSources) : upperChar c = [c] := by
  have hruns : ∀ run ∈ upperRuns, ¬ run.holds c.toNat = true := fun run hrun hholds =>
    h (List.mem_append_left _
      (List.mem_flatMap.mpr ⟨run, hrun, CaseRun.mem_points_of_holds hholds⟩))
  rw [upperChar]
  split
  · have hlower : ¬ c.isLower := by
      intro hlower
      simp only [Char.isLower, Bool.and_eq_true, decide_eq_true_eq, UInt32.le_iff_toNat_le,
        ge_iff_le] at hlower
      refine hruns ⟨0x61, 0x7a, 1, -32⟩ List.mem_cons_self ?_
      simpa [CaseRun.holds, Nat.mod_one] using hlower
    rw [Char.toUpper_eq_of_not_isLower hlower]
  · have hwide : upperWide.lookup c.toNat = none := by
      rw [List.lookup_eq_none_iff]
      intro e he
      rw [bne_iff_ne]
      intro heq
      exact h (List.mem_append_right _ (heq ▸ List.mem_map_of_mem he))
    have hrun : upperRuns.find? (·.holds c.toNat) = none := List.find?_eq_none.mpr hruns
    rw [caseImage, hwide, hrun]

/-- What is an upper case has no other upper case. -/
theorem upperChar_of_mem_upperImages {n : Nat} (h : n ∈ upperImages) :
    upperChar (Char.ofNat n) = [Char.ofNat n] := by
  by_cases hvalid : n.isValidChar
  · apply upperChar_of_notMem
    rw [Char.toNat_ofNat, if_pos hvalid]
    exact notMem_upperSources h
  · rw [Char.ofNat, dif_neg hvalid]
    rfl

theorem upperChar_toUpper {c : Char} (h : c.toNat < 0x80) :
    upperChar c.toUpper = [c.toUpper] := by
  have hascii : c.toUpper.toNat < 0x80 := by
    by_cases hlower : c.isLower
    · rw [Char.toUpper_eq_of_isLower hlower, Char.toNat_ofNat]
      split <;> omega
    · rwa [Char.toUpper_eq_of_not_isLower hlower]
  rw [upperChar, if_pos hascii, Char.toUpper_toUpper_eq_toUpper]

/-- Each character of an upper case is its own upper case. -/
theorem upperChar_of_mem_upperChar {c d : Char} (h : d ∈ upperChar c) : upperChar d = [d] := by
  by_cases hascii : c.toNat < 0x80
  · rw [upperChar, if_pos hascii, List.mem_singleton] at h
    rw [h, upperChar_toUpper hascii]
  · have himage : upperChar c = caseImage upperRuns upperWide c := by
      rw [upperChar, if_neg hascii]
    rw [himage, caseImage] at h
    split at h
    next image hwide =>
      obtain ⟨n, hn, rfl⟩ := List.mem_map.mp h
      exact upperChar_of_mem_upperImages (List.mem_append_right _
        (List.mem_flatMap.mpr ⟨_, mem_upperWide_of_lookup hwide, hn⟩))
    next hwide =>
      split at h
      next run hrun =>
        have hmem := List.mem_of_find?_eq_some hrun
        have hholds : run.holds c.toNat = true := by
          simpa using List.find?_some hrun
        rw [List.mem_singleton.mp h]
        exact upperChar_of_mem_upperImages (List.mem_append_left _
          (List.mem_flatMap.mpr
            ⟨run, hmem, List.mem_map_of_mem (CaseRun.mem_points_of_holds hholds)⟩))
      next hrun =>
        rw [List.mem_singleton.mp h, himage, caseImage, hwide, hrun]

theorem upperChar_ne_nil (c : Char) : upperChar c ≠ [] := by
  rw [upperChar]
  split
  · exact List.cons_ne_nil _ _
  · rw [caseImage]
    split
    next image hwide =>
      rw [ne_eq, List.map_eq_nil_iff]
      exact wide_ne_nil _ (mem_upperWide_of_lookup hwide)
    next => split <;> exact List.cons_ne_nil _ _

/-- A text in upper case stays as it is. -/
theorem upperCase_upperCase (s : String) : upperCase (upperCase s) = upperCase s := by
  have hsettled : ∀ c : Char, (upperChar c).flatMap upperChar = upperChar c := fun c => by
    rw [List.flatMap_congr fun d hd => upperChar_of_mem_upperChar hd, List.flatMap_singleton']
  simp only [upperCase, String.toList_ofList, List.flatMap_assoc, hsettled]

theorem upperCase_ne_empty {s : String} (h : s ≠ "") : upperCase s ≠ "" := by
  intro hempty
  have hnil : s.toList.flatMap upperChar = [] := String.ofList_eq_empty_iff.mp hempty
  rw [List.flatMap_eq_nil_iff] at hnil
  obtain ⟨c, hc⟩ := List.exists_mem_of_ne_nil _ (mt String.toList_eq_nil_iff.mp h)
  exact upperChar_ne_nil c (hnil c hc)

end DeadSymbols.Text
