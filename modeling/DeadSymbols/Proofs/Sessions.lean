import Mathlib
import DeadSymbols.Session

/-!
# Running sessions

A session is run on a world and leaves an outcome and a world.  The lemmas here run
one step and leave the rest of the session as it is, so that a proof about a long
session follows its steps and never opens the monad.

A session that succeeds did each of its steps (`exists_of_run_bind`), and one whose
steps only write to the log leaves the files alone (`OnlyLogs`).
-/

namespace DeadSymbols.Session

variable {α β ε : Type}

@[simp] theorem run_pure (a : α) (w : World) :
    (pure a : Session α).run.run w = (.ok a, w) := rfl

/-- A step that gives a value is followed by the rest. -/
theorem run_bind_ok {x : Session α} {f : α → Session β} {w w' : World} {a : α}
    (h : x.run.run w = (.ok a, w')) : (x >>= f).run.run w = (f a).run.run w' := by
  rw [ExceptT.run_bind, StateT.run_bind, h]
  rfl

/-- A step that fails is the last. -/
theorem run_bind_error {x : Session α} {f : α → Session β} {w w' : World} {e : Error}
    (h : x.run.run w = (.error e, w')) :
    (x >>= f).run.run w = (.error e, w') := by
  rw [ExceptT.run_bind, StateT.run_bind, h]
  rfl

@[simp] theorem run_files (w : World) : files.run.run w = (.ok w.files, w) := rfl

@[simp] theorem run_notes (records : List Log.Record) (w : World) :
    (notes records).run.run w = (.ok (), { w with log := w.log ++ records }) := rfl

@[simp] theorem run_ofExcept (error : ε → Error) (x : Except ε α) (w : World) :
    (ofExcept error x).run.run w = (x.mapError error, w) := by
  cases x <;> rfl

@[simp] theorem run_ofExcept_id (x : Except Error α) (w : World) :
    (ofExcept id x).run.run w = (x, w) := by
  cases x <;> rfl

@[simp] theorem run_readFile (path : Path) (w : World) :
    (readFile path).run.run w =
      ((w.files.read path).mapError (Error.ofFileError (.unreadable path)), w) := by
  rw [readFile, run_bind_ok (run_files w), run_ofExcept]

@[simp] theorem run_setFiles (files : FileTree) (w : World) :
    (setFiles files).run.run w = (.ok (), { w with files := files }) := rfl

/-! ## Sessions that succeed -/

theorem exists_of_except_bind {x : Except ε α} {f : α → Except ε β} {b : β}
    (h : (x >>= f) = .ok b) : ∃ a, x = .ok a ∧ f a = .ok b := by
  cases x with
  | error e => cases h
  | ok a => exact ⟨a, rfl, h⟩

/-- The first step of a session that succeeds gives a value, with which the rest
succeeds. -/
theorem exists_of_run_bind {x : Session α} {f : α → Session β} {w w' : World} {b : β}
    (h : (x >>= f).run.run w = (.ok b, w')) :
    ∃ a w₁, x.run.run w = (.ok a, w₁) ∧ (f a).run.run w₁ = (.ok b, w') := by
  cases hx : x.run.run w with
  | mk result w₁ =>
      cases result with
      | error e =>
          rw [run_bind_error hx] at h
          cases h
      | ok a => exact ⟨a, w₁, rfl, (run_bind_ok hx).symm.trans h⟩

theorem exists_of_run_ofExcept_bind {error : ε → Error} {x : Except ε α}
    {f : α → Session β} {w w' : World} {b : β}
    (h : (ofExcept error x >>= f).run.run w = (.ok b, w')) :
    ∃ a, x = .ok a ∧ (f a).run.run w = (.ok b, w') := by
  cases x with
  | error e => cases h
  | ok a => exact ⟨a, rfl, h⟩

theorem exists_of_run_readFile_bind {path : Path} {f : Text.Bytes → Session β}
    {w w' : World} {b : β} (h : (readFile path >>= f).run.run w = (.ok b, w')) :
    ∃ content, w.files.read path = .ok content ∧
      (f content).run.run w = (.ok b, w') := by
  obtain ⟨content, w₁, hrun, hrest⟩ := exists_of_run_bind h
  rw [run_readFile] at hrun
  cases hread : w.files.read path with
  | error e =>
      rw [hread] at hrun
      cases hrun
  | ok content =>
      rw [hread] at hrun
      cases hrun
      exact ⟨content, rfl, hrest⟩

/-! ## Sessions that only log -/

/-- The session writes to the log and changes nothing else. -/
def OnlyLogs (x : Session α) : Prop :=
  ∀ w, ∃ records, (x.run.run w).2 = { w with log := w.log ++ records }

namespace OnlyLogs

theorem pure (a : α) : OnlyLogs (Pure.pure a) :=
  fun w => ⟨[], by rw [run_pure, List.append_nil]⟩

theorem throw (e : Error) : OnlyLogs (throw e : Session α) :=
  fun w => ⟨[], by rw [List.append_nil]; rfl⟩

theorem files : OnlyLogs Session.files :=
  fun w => ⟨[], by rw [run_files, List.append_nil]⟩

theorem notes (records : List Log.Record) : OnlyLogs (Session.notes records) :=
  fun w => ⟨records, by rw [run_notes]⟩

theorem ofExcept (error : ε → Error) (x : Except ε α) :
    OnlyLogs (Session.ofExcept error x) :=
  fun w => ⟨[], by rw [run_ofExcept, List.append_nil]⟩

theorem bind {x : Session α} {f : α → Session β} (hx : OnlyLogs x)
    (hf : ∀ a, OnlyLogs (f a)) : OnlyLogs (x >>= f) := by
  intro w
  obtain ⟨records, hw⟩ := hx w
  cases hrun : x.run.run w with
  | mk result w₁ =>
      rw [hrun] at hw
      replace hw : w₁ = { w with log := w.log ++ records } := hw
      cases result with
      | error e => exact ⟨records, by rw [run_bind_error hrun]; exact hw⟩
      | ok a =>
          obtain ⟨records', hw'⟩ := hf a w₁
          refine ⟨records ++ records', ?_⟩
          rw [run_bind_ok hrun, hw', hw, List.append_assoc]

theorem readFile (path : Path) : OnlyLogs (Session.readFile path) :=
  files.bind fun _ => ofExcept _ _

theorem mapM {f : α → Session β} (hf : ∀ a, OnlyLogs (f a)) (as : List α) :
    OnlyLogs (as.mapM f) := by
  induction as with
  | nil =>
      rw [List.mapM_nil]
      exact pure []
  | cons a as ih =>
      rw [List.mapM_cons]
      exact (hf a).bind fun b => ih.bind fun bs => pure (b :: bs)

end OnlyLogs

end DeadSymbols.Session
