import Mathlib
import DeadSymbols.Settings.Format

/-!
# Scanning YAML: what a step can do

A scan goes through a text from its start, and all that it has before it is the end of that
text.  A tag is found only where the sign of a tag stands, and no plain scalar ends with a
line break.  If a step gives up, the text is to blame and the reader can say why, with one
exception: an escape of eight digits may have a number past 31 bits.

`Scanner.Reaches` says this of a state of the scan.  Each step is shown to lead from such a
state to such a state, or to end the scan with a fault of `EndsScan`.  The steps are small and
most of them concern the indentation or the possible keys only, so that their conditions are
routine; the ones that are not are those about the number of an escape and about the
end of a plain scalar.

## Main results

* `of_run_eq_ok`, `of_run_eq_error` — what a triple says of a run.
* `emit_spec`, `insertToken_spec` — adding a token.
* `skipToToken_spec`, `directive_spec`, `anchorName_spec`, `tag_spec` — what stands between
  scalars.
-/

open Std.Do

set_option mvcgen.warning false

namespace DeadSymbols

/-- Whether a reader that meets the fault can say what is wrong with the text. -/
def YamlFault.isOfText (fault : YamlFault) : Bool :=
  match fault.toReaderFault with
  | .breakdown _ => false
  | _ => true

namespace Yaml

/-! ## Runs of steps -/

section Runs

variable {σ ε α : Type} {x : StateT σ (Except ε) α} {P : σ → Prop} {Q : α → σ → Prop}
  {F : ε → Prop} {s s' : σ}

/-- What a triple says of a run that succeeds. -/
theorem of_run_eq_ok {a : α}
    (hx : ⦃fun s => ⌜P s⌝⦄ x ⦃post⟨fun a s => ⌜Q a s⌝, fun e => ⌜F e⌝⟩⦄) (h : P s)
    (hrun : x.run s = .ok (a, s')) : Q a s' := by
  have hpost : ((wp (x.run s)).apply
      (fun r => ⌜Q r.1 r.2⌝, (fun e => ⌜F e⌝, ()))).down := hx s h
  rw [hrun] at hpost
  exact hpost

/-- What a triple says of a run that fails. -/
theorem of_run_eq_error {e : ε}
    (hx : ⦃fun s => ⌜P s⌝⦄ x ⦃post⟨fun a s => ⌜Q a s⌝, fun e => ⌜F e⌝⟩⦄) (h : P s)
    (hrun : x.run s = .error e) : F e := by
  have hpost : ((wp (x.run s)).apply
      (fun r => ⌜Q r.1 r.2⌝, (fun e => ⌜F e⌝, ()))).down := hx s h
  rw [hrun] at hpost
  exact hpost

end Runs

/-! ## The course of a scan -/

/-- Somewhere in the text an escape of eight hexadecimal digits has a number past 31 bits. -/
def HoldsLongEscape (cs : List Char) : Prop :=
  ∃ ds, '\\' :: 'U' :: ds <:+: cs ∧ ds.length = 8 ∧ ds.all Text.isHexDigit = true ∧
    1 <<< 31 ≤ Text.spelled 16 ds

/-- A fault with which the scan of a text can end: the reader can say what is wrong, or an
escape is to blame. -/
def EndsScan (cs : List Char) (fault : YamlFault) : Prop :=
  fault.isOfText = true ∨ (fault = .characterNumber ∧ HoldsLongEscape cs)

/-- A token that can come from a text: a tag needs its sign, and no plain scalar ends with a
line break. -/
@[grind] def Token.FitsIn (cs : List Char) (t : Token) : Prop :=
  (∀ handle name, t = .tag handle name → '!' ∈ cs) ∧
    ∀ text, t = .scalar text true → text.toList.getLast? ≠ some '\n'

/-- A scanner on its way through a text. -/
structure Scanner.Reaches (cs : List Char) (s : Scanner) : Prop where
  rest : s.rest <:+ cs
  tokens : ∀ t ∈ s.tokens, t.FitsIn cs

/-- A step leaves the scanner on its way, with a value of which something holds, or it ends the
scan as it may end. -/
abbrev onWay {α : Type} (cs : List Char) (Q : α → Prop) :
    PostCond α (.arg Scanner (.except YamlFault .pure)) :=
  post⟨fun a s => ⌜s.Reaches cs ∧ Q a⌝, fun fault => ⌜EndsScan cs fault⌝⟩

variable {cs : List Char}

@[grind ←] theorem endsScan_malformed : EndsScan cs .malformed := Or.inl rfl

theorem eq_cons_of_getD {rest : List Char} {c : Char} (h : rest.getD 0 nul = c) (hc : c ≠ nul) :
    rest = c :: rest.drop 1 := by
  cases rest with
  | nil => exact absurd h.symm hc
  | cons d rest => simpa using h

namespace Scanner

variable {s : Scanner}

@[grind =] theorem reaches_iff :
    s.Reaches cs ↔ s.rest <:+ cs ∧ ∀ t ∈ s.tokens, t.FitsIn cs :=
  ⟨fun h => ⟨h.rest, h.tokens⟩, fun h => ⟨h.1, h.2⟩⟩

theorem rest_advance (s : Scanner) : s.advance.rest = s.rest.drop 1 := by
  unfold advance
  split
  next h => rw [h]; rfl
  next c rest h =>
    rw [h]
    dsimp only
    split
    · rfl
    · split <;> rfl

theorem tokens_advance (s : Scanner) : s.advance.tokens = s.tokens := by
  unfold advance
  split
  · rfl
  · dsimp only
    split
    · rfl
    · split <;> rfl

theorem rest_advanceBy (n : Nat) (s : Scanner) : (s.advanceBy n).rest = s.rest.drop n := by
  induction n generalizing s with
  | zero => rfl
  | succ n ih => rw [advanceBy, ih, rest_advance, List.drop_drop, Nat.add_comm]

theorem tokens_advanceBy (n : Nat) (s : Scanner) : (s.advanceBy n).tokens = s.tokens := by
  induction n generalizing s with
  | zero => rfl
  | succ n ih => rw [advanceBy, ih, tokens_advance]

namespace Reaches

@[grind ←] theorem advanceBy (n : Nat) (h : s.Reaches cs) : (s.advanceBy n).Reaches cs := by
  constructor
  · rw [rest_advanceBy]
    exact (List.drop_suffix n s.rest).trans h.rest
  · rw [tokens_advanceBy]
    exact h.tokens

/-- A character that is met, other than the sign for the end, stands in the text. -/
theorem mem_of_getD {n : Nat} {c : Char} (h : s.Reaches cs) (hc : s.rest.getD n nul = c)
    (hnul : c ≠ nul) : c ∈ cs := by
  apply h.rest.subset
  rw [List.getD_eq_getElem?_getD] at hc
  cases hget : s.rest[n]? with
  | none => simp [hget, hnul.symm] at hc
  | some d =>
      rw [hget, Option.getD_some] at hc
      exact hc ▸ List.mem_of_getElem? hget

/-- A character that is met stands before what is left behind it. -/
theorem cons_suffix {c : Char} (h : s.Reaches cs) (hc : s.rest.getD 0 nul = c)
    (hnul : c ≠ nul) : c :: (s.advanceBy 1).rest <:+ cs := by
  rw [rest_advanceBy, ← eq_cons_of_getD hc hnul]
  exact h.rest

end Reaches

end Scanner

/-! ## Steps -/

@[spec] theorem fail_spec {α : Type}
    {Q : PostCond α (.arg Scanner (.except YamlFault .pure))} :
    ⦃fun _ => Q.2.1 .malformed⦄ (fail : Scan α) ⦃Q⦄ := by
  intro s h
  exact h

theorem throw_spec {α : Type} {fault : YamlFault}
    {Q : PostCond α (.arg Scanner (.except YamlFault .pure))} :
    ⦃fun _ => Q.2.1 fault⦄ (throw fault : Scan α) ⦃Q⦄ := by
  intro s h
  exact h

@[spec] theorem peekAt_spec (n : Nat) :
    ⦃fun s => ⌜s.Reaches cs⌝⦄ peekAt n
    ⦃post⟨fun c s => ⌜s.Reaches cs ∧ s.rest.getD n nul = c⌝,
      fun fault => ⌜EndsScan cs fault⌝⟩⦄ := by
  mvcgen [peekAt]

@[spec] theorem skip_spec (n : Nat) :
    ⦃fun s => ⌜s.Reaches cs⌝⦄ skip n ⦃onWay cs fun _ => True⦄ := by
  mvcgen [skip] with grind

@[spec] theorem takeWhile_spec (inClass : Char → Bool) :
    ⦃fun s => ⌜s.Reaches cs⌝⦄ takeWhile inClass ⦃onWay cs fun _ => True⦄ := by
  mvcgen [takeWhile]

@[spec] theorem skipWhile_spec (inClass : Char → Bool) :
    ⦃fun s => ⌜s.Reaches cs⌝⦄ skipWhile inClass ⦃onWay cs fun _ => True⦄ := by
  mvcgen [skipWhile]

@[spec] theorem lineBreak_spec :
    ⦃fun s => ⌜s.Reaches cs⌝⦄ lineBreak ⦃onWay cs fun _ => True⦄ := by
  mvcgen [lineBreak, peek] with grind

@[spec] theorem atSeparator_spec :
    ⦃fun s => ⌜s.Reaches cs⌝⦄ atSeparator ⦃onWay cs fun _ => True⦄ := by
  mvcgen [atSeparator]

@[spec] theorem emit_spec {t : Token} (ht : t.FitsIn cs) :
    ⦃fun s => ⌜s.Reaches cs⌝⦄ emit t ⦃onWay cs fun _ => True⦄ := by
  mvcgen [emit] with grind

theorem mem_of_mem_extract {ts : Array Token} {t : Token} {start stop : Nat}
    (h : t ∈ ts.extract start stop) : t ∈ ts := by
  rw [Array.mem_def, Array.toList_extract, List.extract_eq_take_drop] at h
  exact Array.mem_def.mpr (List.mem_of_mem_drop (List.mem_of_mem_take h))

@[spec] theorem insertToken_spec (place : Nat) {t : Token} (ht : t.FitsIn cs) :
    ⦃fun s => ⌜s.Reaches cs⌝⦄ insertToken place t ⦃onWay cs fun _ => True⦄ := by
  mvcgen [insertToken]
  next s h _ =>
    refine ⟨h.rest, fun u hu => ?_⟩
    change u ∈ (s.tokens.extract 0 place).push t ++ s.tokens.extract place s.tokens.size at hu
    rw [Array.mem_append, Array.mem_push] at hu
    obtain (hu | rfl) | hu := hu
    · exact h.tokens u (mem_of_mem_extract hu)
    · exact ht
    · exact h.tokens u (mem_of_mem_extract hu)

@[spec] theorem allowKey_spec (allowed : Bool) :
    ⦃fun s => ⌜s.Reaches cs⌝⦄ allowKey allowed ⦃onWay cs fun _ => True⦄ := by
  mvcgen [allowKey] with grind

@[spec] theorem dropStaleKeys_spec :
    ⦃fun s => ⌜s.Reaches cs⌝⦄ dropStaleKeys ⦃onWay cs fun _ => True⦄ := by
  mvcgen [dropStaleKeys] with grind

@[spec] theorem dropKey_spec :
    ⦃fun s => ⌜s.Reaches cs⌝⦄ dropKey ⦃onWay cs fun _ => True⦄ := by
  mvcgen [dropKey] with grind

@[spec] theorem saveKey_spec :
    ⦃fun s => ⌜s.Reaches cs⌝⦄ saveKey ⦃onWay cs fun _ => True⦄ := by
  mvcgen [saveKey] with grind

@[spec] theorem unwindAux_spec (fuel : Nat) (column : Int) :
    ⦃fun s => ⌜s.Reaches cs⌝⦄ unwindAux fuel column ⦃onWay cs fun _ => True⦄ := by
  induction fuel with
  | zero => mvcgen [unwindAux]
  | succ fuel ih => mvcgen [unwindAux, ih] with grind

@[spec] theorem unwind_spec (column : Int) :
    ⦃fun s => ⌜s.Reaches cs⌝⦄ unwind column ⦃onWay cs fun _ => True⦄ := by
  mvcgen [unwind]

@[spec] theorem addIndent_spec (column : Nat) :
    ⦃fun s => ⌜s.Reaches cs⌝⦄ addIndent column ⦃onWay cs fun _ => True⦄ := by
  mvcgen [addIndent] with grind

/-! ## Between and before nodes -/

@[spec] theorem skipToToken_spec (fuel : Nat) :
    ⦃fun s => ⌜s.Reaches cs⌝⦄ skipToToken fuel ⦃onWay cs fun _ => True⦄ := by
  induction fuel with
  | zero => mvcgen [skipToToken]
  | succ fuel ih => mvcgen [skipToToken, peek, ih] with grind

@[spec] theorem skipRestOfLine_spec :
    ⦃fun s => ⌜s.Reaches cs⌝⦄ skipRestOfLine ⦃onWay cs fun _ => True⦄ := by
  mvcgen [skipRestOfLine, peek] with grind

@[spec] theorem name_spec :
    ⦃fun s => ⌜s.Reaches cs⌝⦄ name ⦃onWay cs fun _ => True⦄ := by
  mvcgen [name] with grind

@[spec] theorem versionNumber_spec :
    ⦃fun s => ⌜s.Reaches cs⌝⦄ versionNumber ⦃onWay cs fun _ => True⦄ := by
  mvcgen [versionNumber, -Spec.throw_MonadExcept, throw_spec]
  · exact endsScan_malformed
  · exact Or.inl rfl

@[spec] theorem tagEscapes_spec (fuel : Nat) :
    ⦃fun s => ⌜s.Reaches cs⌝⦄ tagEscapes fuel ⦃onWay cs fun _ => True⦄ := by
  induction fuel with
  | zero => mvcgen [tagEscapes]
  | succ fuel ih => mvcgen [tagEscapes, peek, ih] with grind

@[spec] theorem tagText_spec (fuel : Nat) :
    ⦃fun s => ⌜s.Reaches cs⌝⦄ tagText fuel ⦃onWay cs fun _ => True⦄ := by
  induction fuel with
  | zero => mvcgen [tagText]
  | succ fuel ih => mvcgen [tagText, peek, ih] with grind

@[spec] theorem tagName_spec :
    ⦃fun s => ⌜s.Reaches cs⌝⦄ tagName ⦃onWay cs fun _ => True⦄ := by
  mvcgen [tagName] with grind

@[spec] theorem tagHandle_spec :
    ⦃fun s => ⌜s.Reaches cs⌝⦄ tagHandle ⦃onWay cs fun _ => True⦄ := by
  mvcgen [tagHandle, peek] with grind

@[spec] theorem directive_spec :
    ⦃fun s => ⌜s.Reaches cs⌝⦄ directive ⦃onWay cs (Token.FitsIn cs)⦄ := by
  mvcgen [directive, peek] with grind

@[spec] theorem anchorName_spec :
    ⦃fun s => ⌜s.Reaches cs⌝⦄ anchorName ⦃onWay cs fun _ => True⦄ := by
  mvcgen [anchorName, peek] with grind

@[spec] theorem tag_spec (hsign : '!' ∈ cs) :
    ⦃fun s => ⌜s.Reaches cs⌝⦄ tag ⦃onWay cs (Token.FitsIn cs)⦄ := by
  mvcgen [tag, peek] with grind

end Yaml

end DeadSymbols
