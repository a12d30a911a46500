import Mathlib
import DeadSymbols.Json

/-!
# What the JSON reader takes

Every reading function takes characters off the front of a text and leaves an end of it.
A number is refused for its length only if so many digits stand in a row somewhere in
the text.  `Reads` says both at once; the functions of the reader have it, from the
parts of a string and of a number up to values (`reads_values`), so the reader has it of
a whole text (`holdsDigits_of_read`).

## Main results

* `reads_string`, `reads_number` — the leaves.
* `reads_values` — values, items and members, by induction on the bound of the nesting.
* `holdsDigits_of_read` — why an integer is refused.
-/

namespace DeadSymbols.Json

/-- So many digits stand in a row in a text. -/
def HoldsDigits (cs : List Char) (n : Nat) : Prop :=
  ∃ ds, ds <:+: cs ∧ ds.length = n ∧ ∀ d ∈ ds, Text.isAsciiDigit d = true

/-- What is read leaves an end of the text, and an integer that is refused has more
digits in a row than an integer may have. -/
def Reads {α : Type} (cs : List Char) : Except JsonFault (α × List Char) → Prop
  | .ok (_, rest) => rest <:+ cs
  | .error .malformed => True
  | .error (.integer fault) =>
    ∃ n, fault = .tooLong n ∧ Integer.maxDigits < n ∧ HoldsDigits cs n

variable {α β : Type} {cs cs' : List Char}

theorem HoldsDigits.mono {n : Nat} (h : HoldsDigits cs n) (hcs : cs <:+ cs') :
    HoldsDigits cs' n := by
  obtain ⟨ds, hds, hlength, hdigits⟩ := h
  exact ⟨ds, hds.trans hcs.isInfix, hlength, hdigits⟩

theorem Reads.mono {r : Except JsonFault (α × List Char)} (h : Reads cs r)
    (hcs : cs <:+ cs') : Reads cs' r := by
  match r, h with
  | .ok (_, rest), h => exact List.IsSuffix.trans h hcs
  | .error .malformed, _ => trivial
  | .error (.integer fault), ⟨n, hfault, hlong, hdigits⟩ =>
      exact ⟨n, hfault, hlong, hdigits.mono hcs⟩

/-- A change of what was read changes nothing about what is left. -/
theorem Reads.map {r : Except JsonFault (α × List Char)} (h : Reads cs r) (f : α → β) :
    Reads cs (r.map fun (a, rest) => (f a, rest)) := by
  match r, h with
  | .ok (_, rest), h => exact h
  | .error .malformed, _ => trivial
  | .error (.integer fault), h => exact h

/-- A failure is the same failure of whatever follows. -/
theorem Reads.error {e : JsonFault}
    (h : Reads cs (.error e : Except JsonFault (α × List Char))) :
    Reads cs (.error e : Except JsonFault (β × List Char)) := by
  cases e with
  | malformed => trivial
  | integer fault => exact h

theorem skip_suffix (cs : List Char) : skip cs <:+ cs :=
  List.dropWhile_suffix _

/-! ## Strings -/

theorem fourHex_suffix {n : Nat} {rest : List Char} (h : fourHex cs = some (n, rest)) :
    rest <:+ cs := by
  unfold fourHex at h
  split at h
  · next a b c d rest' =>
      split at h
      · cases h
        exact ⟨[a, b, c, d], rfl⟩
      · cases h
  · cases h

theorem unicodeEscape_suffix {c : Char} {rest : List Char}
    (h : unicodeEscape cs = some (c, rest)) : rest <:+ cs := by
  unfold unicodeEscape at h
  split at h
  · cases h
  next high rest' hhigh =>
  have hrest' : rest' <:+ cs := fourHex_suffix hhigh
  split at h
  · split at h
    · next more =>
        split at h
        · cases h
        · next low rest'' hlow =>
            have hmore : more <:+ '\\' :: 'u' :: more := List.suffix_append ['\\', 'u'] more
            have hrest'' : rest'' <:+ more := fourHex_suffix hlow
            split at h
            · obtain ⟨_, rfl⟩ := Prod.mk.inj (Option.some.inj h)
              exact hrest''.trans (hmore.trans hrest')
            · obtain ⟨_, rfl⟩ := Prod.mk.inj (Option.some.inj h)
              exact hrest'
    · obtain ⟨_, rfl⟩ := Prod.mk.inj (Option.some.inj h)
      exact hrest'
  · split at h
    all_goals
      obtain ⟨_, rfl⟩ := Prod.mk.inj (Option.some.inj h)
      exact hrest'

theorem reads_string (fuel : Nat) (taken cs : List Char) :
    Reads cs (string fuel taken cs) := by
  fun_induction string fuel taken cs with
  | case1 | case2 | case4 | case6 | case8 => trivial
  | case3 fuel taken rest => exact List.suffix_cons '"' rest
  | case5 fuel taken rest c rest' hescape ih =>
      exact ih.mono ((unicodeEscape_suffix hescape).trans
        (List.suffix_append ['\\', 'u'] rest))
  | case7 fuel taken letter rest _ c _ ih =>
      exact ih.mono (List.suffix_append ['\\', letter] rest)
  | case9 fuel taken c rest _ _ _ _ ih => exact ih.mono (List.suffix_cons c rest)

/-! ## Numbers -/

theorem digits_eq (cs : List Char) :
    digits cs = (cs.takeWhile Text.isAsciiDigit, cs.dropWhile Text.isAsciiDigit) :=
  List.span_eq_takeWhile_dropWhile _ cs

theorem digits_suffix (cs : List Char) : (digits cs).2 <:+ cs := by
  rw [digits_eq]
  exact List.dropWhile_suffix _

theorem fraction_suffix (cs : List Char) : (fraction cs).2 <:+ cs := by
  unfold fraction
  split
  · next rest =>
      dsimp only
      split
      · exact List.suffix_refl _
      · exact (digits_suffix rest).trans (List.suffix_cons '.' rest)
  · exact List.suffix_refl _

theorem splitSign_suffix (cs : List Char) : (Integer.splitSign cs).2 <:+ cs := by
  unfold Integer.splitSign
  split
  · exact List.suffix_cons _ _
  · exact List.suffix_cons _ _
  · exact List.suffix_refl _

theorem exponent_suffix (cs : List Char) : (exponent cs).2 <:+ cs := by
  unfold exponent
  split
  · next e rest =>
      split
      · dsimp only
        split
        · exact List.suffix_refl _
        · exact (digits_suffix _).trans
            ((splitSign_suffix rest).trans (List.suffix_cons e rest))
      · exact List.suffix_refl _
  · exact List.suffix_refl _

theorem wholePart_suffix (cs : List Char) : (wholePart cs).2 <:+ cs := by
  unfold wholePart
  split
  · next rest => exact List.suffix_cons '0' rest
  · exact digits_suffix cs

/-- The digits of a whole part that is longer than one stand in a row. -/
theorem holdsDigits_wholePart (h : 1 < (wholePart cs).1.length) :
    HoldsDigits cs (wholePart cs).1.length := by
  unfold wholePart at h ⊢
  split at h
  · simp at h
  · rw [digits_eq]
    exact ⟨_, (List.takeWhile_prefix _).isInfix, rfl, fun d hd => List.mem_takeWhile_imp hd⟩

theorem reads_number (cs : List Char) : Reads cs (number cs) := by
  unfold number
  split
  next negative body hsign =>
  -- The sign is all that stands before the whole part.
  have hsuffix : body <:+ cs := by
    split at hsign
    · cases hsign
      exact List.suffix_cons '-' _
    · cases hsign
      exact List.suffix_refl cs
  have hrest : (exponent (fraction (wholePart body).2).2).2 <:+ cs :=
    (exponent_suffix _).trans ((fraction_suffix _).trans
      ((wholePart_suffix body).trans hsuffix))
  dsimp only
  split
  · trivial
  · split
    · split
      · next hlong =>
          have hone : 1 < (wholePart body).1.length :=
            Nat.lt_of_le_of_lt (by decide) hlong
          exact ⟨_, rfl, hlong, (holdsDigits_wholePart hone).mono hsuffix⟩
      · exact hrest
    · exact hrest

/-! ## Words and values -/

theorem after?_suffix {word : String} {rest : List Char} (h : after? word cs = some rest) :
    rest <:+ cs := by
  unfold after? at h
  dsimp only at h
  split at h
  · cases h
    exact List.drop_suffix _ _
  · cases h

theorem word?_suffix {v : Value} {rest : List Char} (h : word? cs = some (v, rest)) :
    rest <:+ cs := by
  obtain ⟨⟨w, v'⟩, _, hword⟩ := List.exists_of_findSome?_eq_some h
  obtain ⟨rest', hafter, hpair⟩ := Option.map_eq_some_iff.1 hword
  obtain ⟨_, rfl⟩ := Prod.mk.inj hpair
  exact after?_suffix hafter

/-- A value is a string, a list, a mapping, a word or a number. -/
theorem reads_value_succ {fuel : Nat} (hitems : ∀ cs, Reads cs (items fuel cs))
    (hmembers : ∀ entries cs, Reads cs (members fuel entries cs)) (cs : List Char) :
    Reads cs (value (fuel + 1) cs) := by
  unfold value
  dsimp only
  split
  · next rest =>
      exact ((reads_string fuel [] rest).map Value.text).mono (List.suffix_cons '"' rest)
  · next rest =>
      have hskip : skip rest <:+ '[' :: rest :=
        (skip_suffix rest).trans (List.suffix_cons '[' rest)
      split
      · next rest' hclose =>
          rw [hclose] at hskip
          exact (List.suffix_cons ']' rest').trans hskip
      · exact ((hitems _).map Value.list).mono hskip
  · next rest =>
      have hskip : skip rest <:+ '\x7b' :: rest :=
        (skip_suffix rest).trans (List.suffix_cons '\x7b' rest)
      split
      · next rest' hclose =>
          rw [hclose] at hskip
          exact (List.suffix_cons '\x7d' rest').trans hskip
      · exact (hmembers [] _).mono hskip
  · split
    · next found hword => exact word?_suffix hword
    · exact reads_number cs

theorem reads_items_succ {fuel : Nat} (hvalue : ∀ cs, Reads cs (value fuel cs))
    (hitems : ∀ cs, Reads cs (items fuel cs)) (cs : List Char) :
    Reads cs (items (fuel + 1) cs) := by
  unfold items
  have hfirst := hvalue cs
  split
  · next e hread =>
      rw [hread] at hfirst
      exact hfirst.error
  · next v rest hread =>
      rw [hread] at hfirst
      have hskip : skip rest <:+ cs := (skip_suffix rest).trans hfirst
      split
      · next rest' hcomma =>
          rw [hcomma] at hskip
          have hnext : skip rest' <:+ cs :=
            (skip_suffix rest').trans ((List.suffix_cons ',' rest').trans hskip)
          have hmore := (hitems (skip rest')).mono hnext
          split
          · next e hread' =>
              rw [hread'] at hmore
              exact hmore.error
          · next vs rest'' hread' =>
              rw [hread'] at hmore
              exact hmore
      · next rest' hclose =>
          rw [hclose] at hskip
          exact (List.suffix_cons ']' rest').trans hskip
      · trivial

theorem reads_members_succ {fuel : Nat} (hvalue : ∀ cs, Reads cs (value fuel cs))
    (hmembers : ∀ entries cs, Reads cs (members fuel entries cs))
    (entries : List (Value × Value)) (cs : List Char) :
    Reads cs (members (fuel + 1) entries cs) := by
  unfold members
  split
  · next rest =>
      have hkey := (reads_string fuel [] rest).mono (List.suffix_cons '"' rest)
      split
      · next e hread =>
          rw [hread] at hkey
          exact hkey.error
      · next key rest' hread =>
          rw [hread] at hkey
          have hskip := (skip_suffix rest').trans hkey
          split
          · next rest'' hcolon =>
              rw [hcolon] at hskip
              have hnext : skip rest'' <:+ '"' :: rest :=
                (skip_suffix rest'').trans ((List.suffix_cons ':' rest'').trans hskip)
              have hmember := (hvalue (skip rest'')).mono hnext
              split
              · next e hread' =>
                  rw [hread'] at hmember
                  exact hmember.error
              · next v after hread' =>
                  rw [hread'] at hmember
                  have hafter := (skip_suffix after).trans hmember
                  dsimp only
                  split
                  · next more hcomma =>
                      rw [hcomma] at hafter
                      exact (hmembers _ (skip more)).mono ((skip_suffix more).trans
                        ((List.suffix_cons ',' more).trans hafter))
                  · next more hclose =>
                      rw [hclose] at hafter
                      exact (List.suffix_cons '\x7d' more).trans hafter
                  · trivial
          · trivial
  · trivial

theorem reads_values (fuel : Nat) :
    (∀ cs, Reads cs (value fuel cs)) ∧ (∀ cs, Reads cs (items fuel cs)) ∧
      ∀ entries cs, Reads cs (members fuel entries cs) := by
  induction fuel with
  | zero =>
      refine ⟨fun cs => ?_, fun cs => ?_, fun entries cs => ?_⟩
      · rw [value]; trivial
      · rw [items]; trivial
      · rw [members]; trivial
  | succ fuel ih =>
      obtain ⟨hvalue, hitems, hmembers⟩ := ih
      exact ⟨reads_value_succ hitems hmembers, reads_items_succ hvalue hitems,
        reads_members_succ hvalue hmembers⟩

/-- A text whose reading ends at an integer has more digits in a row than an integer may
have. -/
theorem holdsDigits_of_read {text : String} {fault : IntegerFault}
    (h : read text = .error (.integer fault)) :
    ∃ n, fault = .tooLong n ∧ Integer.maxDigits < n ∧ HoldsDigits text.toList n := by
  have hreads := (reads_values (2 * text.toList.length + 1)).1 (skip text.toList)
  unfold read at h
  dsimp only at h
  split at h
  · next e hvalue =>
      rw [hvalue] at hreads
      cases h
      exact hreads.mono (skip_suffix text.toList)
  · split at h <;> cases h

end DeadSymbols.Json
