import Mathlib
import DeadSymbols.Detector

/-!
# Dividing candidates into batches

Candidates are divided into consecutive batches, and the batches are worked on
one after the other.  The division loses nothing and repeats nothing
(`flatten_batches`), it makes at most four batches for each worker
(`length_batches_le`), and batch `i` is the slice of the candidates that starts
at `i` times the batch size (`getElem?_batches`).

In a lawful monad the evaluation of batches, one after the other, is the
evaluation of the undivided list with all its effects
(`evaluateBatches_eq_evaluate`), so a report does not depend on the number of
workers as long as the batches keep their order.
-/

namespace DeadSymbols.Detector

/-! ## Chunks of a list -/

/-- The chunks of a list are the list. -/
theorem flatten_chunks {α : Type} (size : Nat) (items : List α) :
    (chunks size items).flatten = items := by
  induction items using chunks.induct size with
  | case1 => rw [chunks, List.flatten_nil]
  | case2 item rest ih =>
      rw [chunks, List.flatten_cons, ih, List.cons_append,
        List.take_append_drop]

/-- There are as many chunks as it takes to hold the list. -/
theorem length_chunks {α : Type} (size : Nat) (items : List α) :
    (chunks size items).length = (items.length + size) / (size + 1) := by
  induction items using chunks.induct size with
  | case1 =>
      rw [chunks, List.length_nil, List.length_nil, Nat.zero_add,
        Nat.div_eq_of_lt (Nat.lt_succ_self size)]
  | case2 item rest ih =>
      rw [chunks, List.length_cons, ih, List.length_drop, List.length_cons]
      have hshift : rest.length + 1 + size = rest.length + (size + 1) := by omega
      rw [hshift, Nat.add_div_right _ (Nat.succ_pos size)]
      by_cases hlong : size ≤ rest.length
      · rw [Nat.sub_add_cancel hlong]
      · have hshort : rest.length - size = 0 := by omega
        rw [hshort, Nat.zero_add, Nat.div_eq_of_lt (by omega),
          Nat.div_eq_of_lt (by omega)]

/-- A chunk is a slice of the list. -/
theorem getElem?_chunks {α : Type} (size : Nat) (items : List α) (i : Nat) :
    (chunks size items)[i]? =
      if i * (size + 1) < items.length then
        some ((items.drop (i * (size + 1))).take (size + 1))
      else none := by
  induction items using chunks.induct size generalizing i with
  | case1 => simp [chunks]
  | case2 item rest ih =>
      rw [chunks]
      cases i with
      | zero => simp
      | succ i =>
          rw [List.getElem?_cons_succ, ih, List.length_drop, List.length_cons,
            List.drop_drop]
          have hdrop : (item :: rest).drop ((i + 1) * (size + 1)) =
              rest.drop (size + i * (size + 1)) := by
            rw [show (i + 1) * (size + 1) = size + i * (size + 1) + 1 by ring,
              List.drop_succ_cons]
          rw [hdrop]
          have hiff : i * (size + 1) < rest.length - size ↔
              (i + 1) * (size + 1) < rest.length + 1 := by
            rw [show (i + 1) * (size + 1) = i * (size + 1) + size + 1 by ring]
            omega
          simp only [hiff]

/-! ## Batches -/

/-- The number of candidates in a batch is a quarter of a worker's share, rounded
up, and at least one. -/
theorem batchSize_eq_ceilDiv (n workers : Nat) :
    batchSize n workers = max 1 (n ⌈/⌉ (4 * workers)) := by
  rw [batchSize, Nat.ceilDiv_eq_add_pred_div]

theorem batchSize_pos (n workers : Nat) : 0 < batchSize n workers :=
  Nat.lt_of_lt_of_le Nat.zero_lt_one (Nat.le_max_left 1 _)

/-- Four batches for each worker have room for all candidates. -/
theorem le_mul_batchSize (n : Nat) {workers : Nat} (h : 0 < workers) :
    n ≤ 4 * workers * batchSize n workers := by
  have hpos : 0 < 4 * workers := by omega
  calc
    n ≤ 4 * workers * ((n + 4 * workers - 1) / (4 * workers)) := by
      have hmod := Nat.div_add_mod (n + 4 * workers - 1) (4 * workers)
      have hlt := Nat.mod_lt (n + 4 * workers - 1) hpos
      omega
    _ ≤ 4 * workers * batchSize n workers :=
      Nat.mul_le_mul_left _ (Nat.le_max_right 1 _)

/-- Every candidate is in one batch, and the batches follow each other as the
candidates do. -/
theorem flatten_batches (workers : Option Int) (items : List Definition) :
    (batches workers items).flatten = items := by
  unfold batches
  simp only
  split
  · exact List.flatten_singleton
  · exact flatten_chunks _ items

private theorem batches_of_two_le {workers : Int} {items : List Definition}
    (hworkers : 2 ≤ workers) (hitems : 2 ≤ items.length) :
    batches (some workers) items =
      chunks (batchSize items.length workers.toNat - 1) items := by
  unfold batches
  simp only [Option.getD_some]
  rw [if_neg]
  omega

/-- There are at most four batches for each worker. -/
theorem length_batches_le {workers : Int} {items : List Definition}
    (hworkers : 2 ≤ workers) (hitems : 2 ≤ items.length) :
    ((batches (some workers) items).length : Int) ≤ 4 * workers := by
  rw [batches_of_two_le hworkers hitems, length_chunks]
  obtain ⟨w, rfl⟩ := Int.eq_ofNat_of_zero_le (by omega : 0 ≤ workers)
  rw [Int.toNat_natCast]
  have hpos := batchSize_pos items.length w
  have hw : 0 < w := by omega
  have hroom := le_mul_batchSize items.length hw
  have hcount : (items.length + (batchSize items.length w - 1)) /
      (batchSize items.length w - 1 + 1) ≤ 4 * w := by
    rw [Nat.sub_add_cancel hpos]
    apply Nat.le_of_lt_succ
    rw [Nat.div_lt_iff_lt_mul hpos, Nat.succ_mul]
    omega
  exact_mod_cast hcount

/-- A batch is the slice of the candidates that starts at its number times the
batch size. -/
theorem getElem?_batches {workers : Int} {items : List Definition}
    (hworkers : 2 ≤ workers) (hitems : 2 ≤ items.length) (i : Nat) :
    (batches (some workers) items)[i]? =
      if i * batchSize items.length workers.toNat < items.length then
        some ((items.drop (i * batchSize items.length workers.toNat)).take
          (batchSize items.length workers.toNat))
      else none := by
  rw [batches_of_two_le hworkers hitems, getElem?_chunks,
    Nat.sub_add_cancel (batchSize_pos items.length workers.toNat)]

/-! ## Evaluating batches -/

section

variable {m : Type → Type} [Monad m] [LawfulMonad m]

/-- The candidates of a list are evaluated one after the other. -/
theorem evaluate_append (g : SymbolGraph) (policy : Policy) (source : Source m)
    (ds es : List Definition) :
    evaluate g policy source (ds ++ es) = (do
      let found ← evaluate g policy source ds
      let rest ← evaluate g policy source es
      return found ++ rest) := by
  induction ds with
  | nil => simp [evaluate]
  | cons d ds ih =>
      simp only [List.cons_append, evaluate, ih, bind_assoc]
      refine bind_congr fun reason? => ?_
      cases reason? with
      | none => simp
      | some r => simp

/-- Batches that are evaluated in their order are evaluated as one list. -/
theorem evaluateBatches_eq_evaluate (g : SymbolGraph) (policy : Policy)
    (source : Source m) (bs : List (List Definition)) :
    evaluateBatches g policy source bs =
      evaluate g policy source bs.flatten := by
  induction bs with
  | nil => rw [evaluateBatches, List.flatten_nil, evaluate]
  | cons b bs ih =>
      rw [evaluateBatches, List.flatten_cons, evaluate_append, ih]

/-- A report is made of the evaluation of all candidates, however they are
divided. -/
theorem report_eq (g : SymbolGraph) (policy : Policy) (source : Source m)
    (workers : Option Int) :
    report g policy source workers = (do
      let found ← evaluate g policy source (candidates g)
      return Finding.inOrder found) := by
  rw [report, evaluateBatches_eq_evaluate, flatten_batches]

end

end DeadSymbols.Detector
