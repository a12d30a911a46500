import Mathlib
import DeadSymbols.Report

/-!
# The order of a report

Findings are compared field by field.  Here the comparison is identified with the
lexicographic order on the tuple of their eight fields (`Finding.sortKey`), which
is a linear order and tells any two findings apart.  A report therefore has one
order: sorting two lists of the same findings gives the same list, whatever order
the findings were made in.

## Main results

* `Finding.le_iff_sortKey_le` — the comparison of findings is the order of their
  fields.
* `Finding.inOrder_sorted`, `Finding.inOrder_perm` — a report is sorted and has
  exactly the findings it was made from.
* `Finding.inOrder_congr` — the order in which findings are made leaves no trace
  in the report.
* `Finding.inOrder_sublist` — nor do findings that are left out.
* `Finding.map_display_inOrder_congr` — the printed identities leave none in its lines.
-/

namespace DeadSymbols

/-- Sorting by a comparison that is the order of a key sorts by the key. -/
theorem pairwise_mergeSort_of_key {α β : Type} [LinearOrder β] {key : α → β}
    {le : α → α → Bool} (hle : ∀ a b, le a b = true ↔ key a ≤ key b) (xs : List α) :
    (xs.mergeSort le).Pairwise fun a b => key a ≤ key b := by
  have htrans : ∀ a b c, le a b = true → le b c = true → le a c = true := by
    intro a b c hab hbc
    rw [hle] at hab hbc ⊢
    exact hab.trans hbc
  have htotal : ∀ a b, (le a b || le b a) = true := by
    intro a b
    rw [Bool.or_eq_true, hle, hle]
    exact le_total (key a) (key b)
  have hsorted := List.pairwise_mergeSort htrans htotal xs
  exact hsorted.imp fun {a b} hab => (hle a b).1 hab

namespace Finding

/-- The fields of a finding in the order in which reports compare them. -/
def sortKey (f : Finding) :
    String ×ₗ Int ×ₗ Int ×ₗ Int ×ₗ Int ×ₗ String ×ₗ String ×ₗ String :=
  toLex (f.span.file, toLex (f.span.lineStart, toLex (f.span.columnStart,
    toLex (f.span.lineEnd, toLex (f.span.columnEnd, toLex (f.kind,
      toLex (f.name, f.symbol)))))))

/-- Nothing about a finding is left out of its key. -/
theorem sortKey_injective : Function.Injective sortKey := by
  intro a b h
  obtain ⟨⟨file, line, column, lineEnd, columnEnd⟩, kind, name, symbol⟩ := a
  obtain ⟨⟨file', line', column', lineEnd', columnEnd'⟩, kind', name', symbol'⟩ := b
  simpa only [sortKey, EmbeddingLike.apply_eq_iff_eq, Prod.mk.injEq, mk.injEq,
    Span.mk.injEq, and_assoc] using h

-- Spans are compared before the other fields, as a whole; the key compares all
-- eight in one row, so the two differ by how the comparisons are bracketed.
private theorem compare_eq_compare_sortKey (a b : Finding) :
    compare a b = compare a.sortKey b.sortKey := by
  have hspan : compare a.span b.span =
      (compare a.span.file b.span.file).then
        ((compare a.span.lineStart b.span.lineStart).then
          ((compare a.span.columnStart b.span.columnStart).then
            ((compare a.span.lineEnd b.span.lineEnd).then
              (compare a.span.columnEnd b.span.columnEnd)))) := rfl
  calc
    compare a b =
        (compare a.span b.span).then ((compare a.kind b.kind).then
          ((compare a.name b.name).then (compare a.symbol b.symbol))) := rfl
    _ = compare a.sortKey b.sortKey := by
      rw [hspan]
      simp only [Ordering.then_assoc]
      rfl

/-- One finding may stand before another exactly if its fields come first. -/
theorem le_iff_sortKey_le (a b : Finding) :
    a.le b = true ↔ a.sortKey ≤ b.sortKey := by
  rw [le, compare_eq_compare_sortKey, ← compare_le_iff_le, Ordering.isLE_iff_ne_gt]

/-- A report has the findings it was made from. -/
theorem inOrder_perm (found : List Finding) : (inOrder found).Perm found :=
  List.mergeSort_perm found le

/-- A report is sorted by the fields of its findings. -/
theorem inOrder_sorted (found : List Finding) :
    (inOrder found).Pairwise fun a b => a.sortKey ≤ b.sortKey :=
  pairwise_mergeSort_of_key le_iff_sortKey_le found

/-- A sorted list of findings is determined by which findings it has, and how
often. -/
theorem eq_of_sorted_of_perm {found found' : List Finding}
    (h : found.Pairwise fun a b => a.sortKey ≤ b.sortKey)
    (h' : found'.Pairwise fun a b => a.sortKey ≤ b.sortKey)
    (hperm : found.Perm found') : found = found' := by
  refine hperm.eq_of_pairwise ?_ h h'
  intro a b _ _ hab hba
  exact sortKey_injective (le_antisymm hab hba)

/-- The same findings give the same report. -/
theorem inOrder_congr {found found' : List Finding} (h : found.Perm found') :
    inOrder found = inOrder found' := by
  refine eq_of_sorted_of_perm (inOrder_sorted found) (inOrder_sorted found') ?_
  exact (inOrder_perm found).trans (h.trans (inOrder_perm found').symm)

/-- With findings left out, the report is the same without them. -/
theorem inOrder_sublist {found found' : List Finding} (h : found.Sublist found') :
    (inOrder found).Sublist (inOrder found') := by
  have hantisymm : Std.Antisymm fun a b : Finding => a.sortKey ≤ b.sortKey :=
    ⟨fun _ _ hab hba => sortKey_injective (le_antisymm hab hba)⟩
  have hsubperm : (inOrder found).Subperm (inOrder found') :=
    (inOrder_perm found).subperm.trans
      (h.subperm.trans (inOrder_perm found').symm.subperm)
  exact List.sublist_of_subperm_of_pairwise hsubperm (inOrder_sorted found)
    (inOrder_sorted found')

/-! ## The lines of a report -/

/-- The finding without its printed identity, which its line does not show. -/
def anonymous (f : Finding) : Finding := { f with symbol := "" }

theorem display_anonymous (f : Finding) : f.anonymous.display = f.display := rfl

private theorem toLex_le_of_imp {α β : Type} [LT α] [LE β] {x y : α} {p q p' q' : β}
    (h : toLex (x, p) ≤ toLex (y, q)) (hrest : p ≤ q → p' ≤ q') :
    toLex (x, p') ≤ toLex (y, q') := by
  rw [Prod.Lex.toLex_le_toLex] at h ⊢
  rcases h with hlt | ⟨heq, hle⟩
  · exact Or.inl hlt
  · exact Or.inr ⟨heq, hrest hle⟩

/-- The identity is compared last, so the order without it is coarser. -/
theorem sortKey_anonymous_le {a b : Finding} (h : a.sortKey ≤ b.sortKey) :
    a.anonymous.sortKey ≤ b.anonymous.sortKey := by
  refine toLex_le_of_imp h fun hline => ?_
  refine toLex_le_of_imp hline fun hcolumn => ?_
  refine toLex_le_of_imp hcolumn fun hlineEnd => ?_
  refine toLex_le_of_imp hlineEnd fun hcolumnEnd => ?_
  refine toLex_le_of_imp hcolumnEnd fun hkind => ?_
  refine toLex_le_of_imp hkind fun hname => ?_
  exact toLex_le_of_imp hname fun _ => le_refl ""

/-- Findings that differ in their identities only print the same lines in the same
order. -/
theorem map_display_inOrder_congr {found found' : List Finding}
    (h : (found.map anonymous).Perm (found'.map anonymous)) :
    (inOrder found).map display = (inOrder found').map display := by
  have hsorted : ∀ fs : List Finding,
      ((inOrder fs).map anonymous).Pairwise fun a b => a.sortKey ≤ b.sortKey := by
    intro fs
    exact (inOrder_sorted fs).map anonymous fun _ _ hab => sortKey_anonymous_le hab
  have hperm : ((inOrder found).map anonymous).Perm ((inOrder found').map anonymous) :=
    ((inOrder_perm found).map anonymous).trans
      (h.trans ((inOrder_perm found').map anonymous).symm)
  have hsame := eq_of_sorted_of_perm (hsorted found) (hsorted found') hperm
  have hlines : ∀ fs : List Finding, fs.map display = (fs.map anonymous).map display := by
    intro fs
    simp only [List.map_map, Function.comp_def, display_anonymous]
  rw [hlines (inOrder found), hsame, ← hlines]

/-- The names that reports leave out. -/
theorem underscore_isPrefixOf_iff (name : String) :
    "_".toList.isPrefixOf name.toList = true ↔ name.toList.head? = some '_' := by
  have hlist : "_".toList = ['_'] := rfl
  rw [hlist]
  cases name.toList with
  | nil => simp
  | cons c rest =>
      simp only [List.isPrefixOf, Bool.and_true, beq_iff_eq, List.head?_cons,
        Option.some.injEq]
      exact eq_comm

end Finding

end DeadSymbols
