import Mathlib
import DeadSymbols.Proofs.YamlScanning

/-!
# The tokens of a YAML text

Scalars are scanned word by word and line by line.  The tokens of a text are scanned one after
another, and each of them fits in the text: a text without the sign of a tag has no tag, and
no plain scalar ends with a line break.  For a fault that ends the tokens early the text is to
blame, unless it holds an escape with a number past 31 bits.

## Main results

* `fetch_spec` — what adding the next token can do.
* `tokens_spec` — the tokens of a text and the fault that ends them.
-/

open Std.Do

set_option mvcgen.warning false

namespace DeadSymbols

/-! ## Numbers by their digits -/

namespace Text

theorem lt_of_baseDigit? {base d : Nat} {c : Char} (h : baseDigit? base c = some d) :
    d < base := by
  have := (Option.filter_eq_some_iff.mp h).2
  simpa using this

theorem ofDigits_lt {base : Nat} {ds : List Nat} (h : ∀ d ∈ ds, d < base) :
    ofDigits base ds < base ^ ds.length := by
  induction ds using List.reverseRecOn with
  | nil => simp [ofDigits]
  | append_singleton ds d ih =>
      have hd : d < base := h d (by simp)
      have hds : ofDigits base ds < base ^ ds.length := ih fun e he => h e (by simp [he])
      rw [ofDigits, List.foldl_append, List.length_append, List.length_singleton, Nat.pow_succ]
      show ofDigits base ds * base + d < base ^ ds.length * base
      calc ofDigits base ds * base + d < ofDigits base ds * base + base := by omega
        _ = (ofDigits base ds + 1) * base := by ring
        _ ≤ base ^ ds.length * base := Nat.mul_le_mul_right base hds

theorem spelled_lt {base : Nat} (hbase : 0 < base) (cs : List Char) :
    spelled base cs < base ^ cs.length := by
  have hdigits : ∀ d ∈ cs.filterMap (baseDigit? base), d < base := by
    intro d hd
    obtain ⟨c, -, hc⟩ := List.mem_filterMap.mp hd
    exact lt_of_baseDigit? hc
  calc spelled base cs < base ^ (cs.filterMap (baseDigit? base)).length := ofDigits_lt hdigits
    _ ≤ base ^ cs.length := Nat.pow_le_pow_right hbase (List.length_filterMap_le _ _)

end Text

namespace Yaml

variable {cs : List Char}

/-! ## Block scalars -/

@[spec] theorem chomping?_spec :
    ⦃fun s => ⌜s.Reaches cs⌝⦄ chomping? ⦃onWay cs fun _ => True⦄ := by
  mvcgen [chomping?, peek] with grind

@[spec] theorem increment?_spec :
    ⦃fun s => ⌜s.Reaches cs⌝⦄ increment? ⦃onWay cs fun _ => True⦄ := by
  mvcgen [increment?, peek] with grind

@[spec] theorem blockHeader_spec :
    ⦃fun s => ⌜s.Reaches cs⌝⦄ blockHeader ⦃onWay cs fun _ => True⦄ := by
  mvcgen [blockHeader, peek] with grind

@[spec] theorem openIndentation_spec (fuel widest : Nat) :
    ⦃fun s => ⌜s.Reaches cs⌝⦄ openIndentation fuel widest ⦃onWay cs fun _ => True⦄ := by
  induction fuel generalizing widest with
  | zero => mvcgen [openIndentation]
  | succ fuel ih => mvcgen [openIndentation, peek, ih] with grind

@[spec] theorem skipIndentation_spec (indent : Nat) :
    ⦃fun s => ⌜s.Reaches cs⌝⦄ skipIndentation indent ⦃onWay cs fun _ => True⦄ := by
  mvcgen [skipIndentation]

@[spec] theorem emptyLines_spec (indent fuel : Nat) :
    ⦃fun s => ⌜s.Reaches cs⌝⦄ emptyLines indent fuel ⦃onWay cs fun _ => True⦄ := by
  induction fuel with
  | zero => mvcgen [emptyLines]
  | succ fuel ih => mvcgen [emptyLines, peek, ih] with grind

@[spec] theorem blockLines_spec (folded : Bool) (indent fuel : Nat) (breaks : List Char) :
    ⦃fun s => ⌜s.Reaches cs⌝⦄ blockLines folded indent fuel breaks ⦃onWay cs fun _ => True⦄ := by
  induction fuel generalizing breaks with
  | zero => mvcgen [blockLines]
  | succ fuel ih => mvcgen [blockLines, peek, ih] with grind

@[spec] theorem blockScalar_spec (folded : Bool) :
    ⦃fun s => ⌜s.Reaches cs⌝⦄ blockScalar folded ⦃onWay cs (Token.FitsIn cs)⦄ := by
  mvcgen [blockScalar] with grind

/-! ## Quoted scalars -/

/-- The number of an escape is past 31 bits only if it has eight digits. -/
theorem endsScan_characterNumber {rest : List Char} {size : Nat}
    (hsize : size ≤ 4 ∨ size = 8 ∧ '\\' :: 'U' :: rest <:+ cs)
    (hlength : (rest.take size).length = size)
    (hhex : (rest.take size).all Text.isHexDigit = true)
    (hlarge : 1 <<< 31 ≤ Text.spelled 16 (rest.take size)) : EndsScan cs .characterNumber := by
  rcases hsize with hsize | ⟨rfl, hsuffix⟩
  · have hbound : Text.spelled 16 (rest.take size) < 16 ^ (rest.take size).length :=
      Text.spelled_lt (by decide) _
    have hfour : 16 ^ (rest.take size).length ≤ 16 ^ 4 :=
      Nat.pow_le_pow_right (by decide) (by omega)
    omega
  · have htake : '\\' :: 'U' :: rest.take 8 <+: '\\' :: 'U' :: rest :=
      List.take_prefix 10 ('\\' :: 'U' :: rest)
    exact Or.inr ⟨rfl, _, htake.isInfix.trans hsuffix.isInfix, hlength, hhex, hlarge⟩

theorem hexChar_spec (size : Nat) :
    ⦃fun s => ⌜s.Reaches cs ∧ (size ≤ 4 ∨ size = 8 ∧ '\\' :: 'U' :: s.rest <:+ cs)⌝⦄
    hexChar size ⦃onWay cs fun _ => True⦄ := by
  mvcgen [hexChar, -Spec.throw_MonadExcept, throw_spec]
  case vc1 => exact endsScan_malformed
  case vc2 h _ _ hdigits _ _ hlarge =>
    simp only [Bool.or_eq_true, not_or, decide_eq_true_eq, ne_eq, not_not,
      Bool.not_eq_true'] at hdigits
    exact endsScan_characterNumber h.2 hdigits.1 (by simpa using hdigits.2) hlarge
  case vc3 => exact Or.inl rfl
  case vc4 h _ _ _ _ _ _ _ _ => exact h.1

@[spec] theorem quotedBreaks_spec (fuel : Nat) :
    ⦃fun s => ⌜s.Reaches cs⌝⦄ quotedBreaks fuel ⦃onWay cs fun _ => True⦄ := by
  induction fuel with
  | zero => mvcgen [quotedBreaks]
  | succ fuel ih => mvcgen [quotedBreaks, peek, ih] with grind

/-- Behind the letter of an escape stand two or four digits or, if it is `U`, eight. -/
theorem size_of_letter {s : Scanner} {c : Char} (h : '\\' :: s.rest <:+ cs)
    (hc : s.rest.getD 0 nul = c)
    (hletter : (decide (c = 'x') || decide (c = 'u') || decide (c = 'U')) = true) :
    (if c = 'x' then 2 else if c = 'u' then 4 else 8) ≤ 4 ∨
      (if c = 'x' then 2 else if c = 'u' then 4 else 8) = 8 ∧
        '\\' :: 'U' :: (s.advanceBy 1).rest <:+ cs := by
  by_cases hx : c = 'x'
  · left
    simp [hx]
  · by_cases hu : c = 'u'
    · left
      simp [hu]
    · right
      have hU : c = 'U' := by simpa [hx, hu] using hletter
      refine ⟨by simp [hU], ?_⟩
      rw [Scanner.rest_advanceBy, ← hU, ← eq_cons_of_getD hc (by rw [hU]; decide)]
      exact h

theorem escape_spec (fuel : Nat) :
    ⦃fun s => ⌜s.Reaches cs ∧ '\\' :: s.rest <:+ cs⌝⦄
    escape fuel ⦃onWay cs fun _ => True⦄ := by
  mvcgen [escape, peek, peekAt, -peekAt_spec, skip, -skip_spec, hexChar_spec]
  case vc1 => exact endsScan_malformed
  case vc2 h _ _ _ _ _ => exact h.1.advanceBy 1
  case vc3 s h _ hletter _ => exact ⟨h.1.advanceBy 1, size_of_letter h.2 rfl hletter⟩
  case vc4 h _ _ _ => exact h.1
  case vc5 => assumption
  case vc6 => exact endsScan_malformed

@[spec] theorem quotedWord_spec (double : Bool) (fuel : Nat) :
    ⦃fun s => ⌜s.Reaches cs⌝⦄ quotedWord double fuel ⦃onWay cs fun _ => True⦄ := by
  induction fuel with
  | zero => mvcgen [quotedWord]
  | succ fuel ih =>
    mvcgen [quotedWord, peek, peekAt, -peekAt_spec, skip, -skip_spec, escape_spec, ih]
    case vc2 h => exact h.advanceBy 2
    case vc3 h => exact h.advanceBy 1
    case vc4 hbackslash _ h =>
      rw [Bool.and_eq_true, decide_eq_true_eq] at hbackslash
      exact ⟨h.advanceBy 1, h.cons_suffix hbackslash.2 (by decide)⟩
    case vc5 => assumption

@[spec] theorem quotedBlanks_spec (fuel : Nat) :
    ⦃fun s => ⌜s.Reaches cs⌝⦄ quotedBlanks fuel ⦃onWay cs fun _ => True⦄ := by
  mvcgen [quotedBlanks, peek] with grind

@[spec] theorem quotedRest_spec (double : Bool) (fuel : Nat) :
    ⦃fun s => ⌜s.Reaches cs⌝⦄ quotedRest double fuel ⦃onWay cs fun _ => True⦄ := by
  induction fuel with
  | zero =>
    mvcgen [quotedRest]
    exact endsScan_malformed
  | succ fuel ih => mvcgen [quotedRest, peek, ih] with grind

@[spec] theorem quotedScalar_spec (double : Bool) :
    ⦃fun s => ⌜s.Reaches cs⌝⦄ quotedScalar double ⦃onWay cs (Token.FitsIn cs)⦄ := by
  mvcgen [quotedScalar] with grind

/-! ## Plain scalars -/

theorem take_plainSize_ne_nil {inFlow : Bool} {rest : List Char}
    (h : plainSize inFlow rest ≠ 0) : rest.take (plainSize inFlow rest) ≠ [] := by
  cases rest with
  | nil => exact absurd rfl h
  | cons c rest => simpa using h

theorem not_blank_of_mem_plain {inFlow : Bool} {rest : List Char} {c : Char}
    (h : c ∈ rest.take (plainSize inFlow rest)) : isBlankOrEnd c = false := by
  fun_induction plainSize inFlow rest with
  | case1 => cases h
  | case2 => cases h
  | case3 => cases h
  | case4 => cases h
  | case5 d rest hblank _ _ _ ih =>
      rw [List.take_succ_cons, List.mem_cons] at h
      rcases h with rfl | h
      · exact Bool.eq_false_iff.mpr hblank
      · exact ih h

/-- The words of a plain scalar are not blank, so it does not end with a line break. -/
theorem getLast?_plain {inFlow : Bool} {rest : List Char} (blanks : List Char)
    (h : plainSize inFlow rest ≠ 0) :
    (blanks ++ rest.take (plainSize inFlow rest)).getLast? ≠ some '\n' := by
  intro hlast
  rw [List.getLast?_append_of_ne_nil _ (take_plainSize_ne_nil h)] at hlast
  exact absurd (not_blank_of_mem_plain (List.mem_of_getLast? hlast)) (by decide)

@[spec] theorem plainBreaks_spec (fuel : Nat) :
    ⦃fun s => ⌜s.Reaches cs⌝⦄ plainBreaks fuel ⦃onWay cs fun _ => True⦄ := by
  induction fuel with
  | zero => mvcgen [plainBreaks]
  | succ fuel ih => mvcgen [plainBreaks, peek, ih] with grind

@[spec] theorem plainBlanks_spec (fuel : Nat) :
    ⦃fun s => ⌜s.Reaches cs⌝⦄ plainBlanks fuel ⦃onWay cs fun _ => True⦄ := by
  mvcgen [plainBlanks, peek] with grind

@[spec] theorem plainWords_spec (indent : Int) (fuel : Nat) (blanks : List Char) :
    ⦃fun s => ⌜s.Reaches cs⌝⦄ plainWords indent fuel blanks
    ⦃onWay cs fun text => text.getLast? ≠ some '\n'⦄ := by
  induction fuel generalizing blanks with
  | zero => mvcgen [plainWords]
  | succ fuel ih =>
    mvcgen [plainWords, peek, ih] with grind [getLast?_plain, List.getLast?_append]

@[spec] theorem plainScalar_spec :
    ⦃fun s => ⌜s.Reaches cs⌝⦄ plainScalar ⦃onWay cs (Token.FitsIn cs)⦄ := by
  mvcgen [plainScalar] with grind [String.toList_ofList]

/-! ## Tokens -/

@[spec] theorem fetchValue_spec :
    ⦃fun s => ⌜s.Reaches cs⌝⦄ fetchValue ⦃onWay cs fun _ => True⦄ := by
  mvcgen [fetchValue] with grind

@[spec] theorem fetchBlockSign_spec {opening sign : Token} (keyAfter : Bool)
    (hopening : opening.FitsIn cs) (hsign : sign.FitsIn cs) :
    ⦃fun s => ⌜s.Reaches cs⌝⦄ fetchBlockSign opening sign keyAfter ⦃onWay cs fun _ => True⦄ := by
  mvcgen [fetchBlockSign] with grind

@[spec] theorem fetchOpening_spec {t : Token} (ht : t.FitsIn cs) :
    ⦃fun s => ⌜s.Reaches cs⌝⦄ fetchOpening t ⦃onWay cs fun _ => True⦄ := by
  mvcgen [fetchOpening] with grind

@[spec] theorem fetchClosing_spec {t : Token} (ht : t.FitsIn cs) :
    ⦃fun s => ⌜s.Reaches cs⌝⦄ fetchClosing t ⦃onWay cs fun _ => True⦄ := by
  mvcgen [fetchClosing] with grind

theorem fetchKeyLike_spec {scan : Scan Token}
    (hscan : ⦃fun s => ⌜s.Reaches cs⌝⦄ scan ⦃onWay cs (Token.FitsIn cs)⦄) :
    ⦃fun s => ⌜s.Reaches cs⌝⦄ fetchKeyLike scan ⦃onWay cs fun _ => True⦄ := by
  mvcgen [fetchKeyLike, hscan] with grind

theorem fetchOutside_spec {scan : Scan Token}
    (hscan : ⦃fun s => ⌜s.Reaches cs⌝⦄ scan ⦃onWay cs (Token.FitsIn cs)⦄) :
    ⦃fun s => ⌜s.Reaches cs⌝⦄ fetchOutside scan ⦃onWay cs fun _ => True⦄ := by
  mvcgen [fetchOutside, hscan] with grind

theorem fetch_spec : ⦃fun s => ⌜s.Reaches cs⌝⦄ fetch ⦃onWay cs fun _ => True⦄ := by
  have hsign : '!' ≠ nul := by decide
  mvcgen [fetch, peek, fetchKeyLike_spec, fetchOutside_spec]
  any_goals assumption
  any_goals exact And.left ‹_ ∧ _›
  all_goals first
    | exact endsScan_malformed
    | exact And.right ‹_ ∧ _›
    | (simp_all only [Token.FitsIn, reduceCtorEq, false_implies, implies_true, and_self]; done)
    -- A tag is read only where its sign stands.
    | grind [Scanner.Reaches.mem_of_getD]

theorem tokensAux_spec {s : Scanner} (fuel : Nat) (h : s.Reaches cs) :
    (∀ t ∈ (tokensAux fuel s).1, t.FitsIn cs) ∧
      ∀ fault, (tokensAux fuel s).2 = some fault → EndsScan cs fault := by
  induction fuel generalizing s with
  | zero => exact ⟨fun t ht => h.tokens t (Array.mem_def.mpr ht), fun _ hf => by cases hf⟩
  | succ fuel ih =>
      unfold tokensAux
      split
      next fault hrun =>
        refine ⟨fun t ht => h.tokens t (Array.mem_def.mpr ht), ?_⟩
        rintro _ ⟨⟩
        exact of_run_eq_error fetch_spec h hrun
      next s' hrun => exact ih (of_run_eq_ok fetch_spec h hrun).1
      next s' hrun =>
        have h' : s'.Reaches cs := (of_run_eq_ok fetch_spec h hrun).1
        exact ⟨fun t ht => h'.tokens t (Array.mem_def.mpr ht), fun _ hf => by cases hf⟩

/-- The tokens of a text fit in it, and if a fault ends them, it is one that can end a scan. -/
theorem tokens_spec (text : String) :
    (∀ t ∈ (tokens text).1, t.FitsIn text.toList) ∧
      ∀ fault, (tokens text).2 = some fault → EndsScan text.toList fault := by
  have hstart : (Scanner.start text.toList).Reaches text.toList :=
    ⟨List.suffix_refl _, fun t ht => absurd ht (by simp [Scanner.start])⟩
  unfold tokens
  dsimp only
  split
  · refine ⟨fun t ht => absurd ht List.not_mem_nil, ?_⟩
    rintro _ ⟨⟩
    exact endsScan_malformed
  · apply tokensAux_spec
    split
    · exact hstart.advanceBy 1
    · exact hstart

end Yaml

end DeadSymbols
