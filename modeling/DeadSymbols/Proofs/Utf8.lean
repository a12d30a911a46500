import Mathlib
import DeadSymbols.Text.Utf8

/-!
# Texts and their bytes

The strict reader accepts exactly the encodings of texts (`strictText_eq_ok_iff`): bytes
that it refuses are the encoding of no text, and those that it accepts are the encoding
of what it gives.

One step of the reader takes bytes that spell a character (`Spells`), in one of four
lengths.  The bounds on the first two bytes leave one spelling for each character, its
encoding.

## Main results

* `spells_of_utf8Step`, `utf8Step_of_spells` — one step of the reader.
* `eq_encode_of_spells`, `spells_encode` — the spelling of a character is its encoding.
* `strictText_eq_ok_iff` — the strict reader.
* `lossyChars_of_strictChars` — the lossy reader where the strict one finds no fault.
-/

namespace DeadSymbols.Text

/-! ## Bytes as numbers -/

theorem isContinuation_iff (b : UInt8) :
    isContinuation b = true ↔ 0x80 ≤ b.toNat ∧ b.toNat < 0xc0 := by
  simp [isContinuation, UInt8.le_iff_toNat_le, UInt8.lt_iff_toNat_lt]

theorem secondFits_iff (first second : UInt8) :
    secondFits first second = true ↔
      (0x80 ≤ second.toNat ∧ second.toNat < 0xc0) ∧
      (first.toNat = 0xe0 → 0xa0 ≤ second.toNat) ∧
      (first.toNat = 0xed → second.toNat < 0xa0) ∧
      (first.toNat = 0xf0 → 0x90 ≤ second.toNat) ∧
      (first.toNat = 0xf4 → second.toNat < 0x90) := by
  simp only [secondFits, isContinuation_iff, Bool.and_eq_true, Bool.or_eq_true, bne_iff_ne,
    ne_eq, decide_eq_true_eq, UInt8.le_iff_toNat_le, UInt8.lt_iff_toNat_lt,
    ← UInt8.toNat_inj, UInt8.reduceToNat]
  omega

/-! ## Spellings -/

/-- Bytes that spell a character. -/
inductive Spells : Bytes → Char → Prop
  | one {a : UInt8} : a.toNat < 0x80 → Spells [a] (Char.ofNat a.toNat)
  | two {a b : UInt8} : 0xc2 ≤ a.toNat → a.toNat < 0xe0 → isContinuation b = true →
      Spells [a, b] (Char.ofNat (a.toNat % 32 * 64 + payload b))
  | three {a b c : UInt8} : 0xe0 ≤ a.toNat → a.toNat < 0xf0 → secondFits a b = true →
      isContinuation c = true →
      Spells [a, b, c] (Char.ofNat (a.toNat % 16 * 4096 + payload b * 64 + payload c))
  | four {a b c d : UInt8} : 0xf0 ≤ a.toNat → a.toNat < 0xf5 → secondFits a b = true →
      isContinuation c = true → isContinuation d = true →
      Spells [a, b, c, d] (Char.ofNat (a.toNat % 8 * 262144 + payload b * 4096 +
        payload c * 64 + payload d))

/-- A step that gives a character takes bytes that spell it. -/
theorem spells_of_utf8Step {first : UInt8} {rest : Bytes} {c : Char} {extra : Nat}
    (h : utf8Step first rest = .char c extra) :
    ∃ bytes tail, first :: rest = bytes ++ tail ∧ bytes.length = extra + 1 ∧
      Spells bytes c := by
  unfold utf8Step at h
  simp only [UInt8.lt_iff_toNat_lt] at h
  split at h
  · next hfirst =>
      cases h
      exact ⟨[first], rest, rfl, rfl, .one hfirst⟩
  split at h
  · cases h
  next hlow =>
  replace hlow : 0xc2 ≤ first.toNat := Nat.not_lt.1 hlow
  split at h
  · next hfirst =>
      split at h
      · cases h
      · next b tail =>
          split at h
          · next hb =>
              cases h
              exact ⟨[first, b], tail, rfl, rfl, .two hlow hfirst hb⟩
          · cases h
  next hlow =>
  replace hlow : 0xe0 ≤ first.toNat := Nat.not_lt.1 hlow
  split at h
  · next hfirst =>
      split at h
      · cases h
      · split at h <;> cases h
      · next b c' tail =>
          split at h
          · cases h
          · next hb =>
              split at h
              · next hc =>
                  cases h
                  exact ⟨[first, b, c'], tail, rfl, rfl,
                    .three hlow hfirst (by simpa using hb) hc⟩
              · cases h
  next hlow =>
  replace hlow : 0xf0 ≤ first.toNat := Nat.not_lt.1 hlow
  split at h
  · next hfirst =>
      split at h
      · cases h
      · split at h <;> cases h
      · repeat' split at h
        all_goals cases h
      · next b c' d tail =>
          split at h
          · cases h
          · next hb =>
              split at h
              · cases h
              · next hc =>
                  split at h
                  · next hd =>
                      cases h
                      exact ⟨[first, b, c', d], tail, rfl, rfl,
                        .four hlow hfirst (by simpa using hb) (by simpa using hc) hd⟩
                  · cases h
  · cases h

/-- Bytes that spell a character are taken by one step. -/
theorem utf8Step_of_spells {first : UInt8} {rest : Bytes} {c : Char}
    (h : Spells (first :: rest) c) (tail : Bytes) :
    utf8Step first (rest ++ tail) = .char c rest.length := by
  unfold utf8Step
  simp only [UInt8.lt_iff_toNat_lt, UInt8.reduceToNat]
  cases h with
  | one ha =>
      rw [if_pos ha]
      rfl
  | two ha ha' hb =>
      rw [if_neg (by omega), if_neg (by omega), if_pos ha']
      simp [hb]
  | three ha ha' hb hc =>
      rw [if_neg (by omega), if_neg (by omega), if_neg (by omega), if_pos ha']
      simp [hb, hc]
  | four ha ha' hb hc hd =>
      rw [if_neg (by omega), if_neg (by omega), if_neg (by omega), if_neg (by omega),
        if_pos ha']
      simp [hb, hc, hd]

/-! ## The encoding is the only spelling -/

theorem toNat_ofNat_of_lt {n : Nat} (h : n < 0xd800 ∨ 0xdfff < n ∧ n < 0x110000) :
    (Char.ofNat n).val.toNat = n := by
  show (Char.ofNat n).toNat = n
  rw [Char.toNat_ofNat, if_pos h]

/-- Bytes that spell a character are its encoding. -/
theorem eq_encode_of_spells {bytes : Bytes} {c : Char} (h : Spells bytes c) :
    bytes = String.utf8EncodeChar c := by
  cases h with
  | @one a ha =>
      have hn : (Char.ofNat a.toNat).val.toNat = a.toNat := toNat_ofNat_of_lt (by omega)
      unfold String.utf8EncodeChar
      rw [hn, if_pos (by omega)]
      simp
  | @two a b ha ha' hb =>
      rw [isContinuation_iff] at hb
      unfold payload
      have hn := toNat_ofNat_of_lt (n := a.toNat % 32 * 64 + b.toNat % 64) (by omega)
      unfold String.utf8EncodeChar
      rw [hn, if_neg (by omega), if_pos (by omega)]
      simp only [List.cons.injEq, ← UInt8.toNat_inj, UInt8.toNat_ofNat', and_true]
      omega
  | @three a b c ha ha' hb hc =>
      rw [secondFits_iff] at hb
      rw [isContinuation_iff] at hc
      unfold payload
      have hn := toNat_ofNat_of_lt
        (n := a.toNat % 16 * 4096 + b.toNat % 64 * 64 + c.toNat % 64) (by omega)
      unfold String.utf8EncodeChar
      rw [hn, if_neg (by omega), if_neg (by omega), if_pos (by omega)]
      simp only [List.cons.injEq, ← UInt8.toNat_inj, UInt8.toNat_ofNat', and_true]
      omega
  | @four a b c d ha ha' hb hc hd =>
      rw [secondFits_iff] at hb
      rw [isContinuation_iff] at hc hd
      unfold payload
      have hn := toNat_ofNat_of_lt (n := a.toNat % 8 * 262144 + b.toNat % 64 * 4096 +
        c.toNat % 64 * 64 + d.toNat % 64) (by omega)
      unfold String.utf8EncodeChar
      rw [hn, if_neg (by omega), if_neg (by omega), if_neg (by omega)]
      simp only [List.cons.injEq, ← UInt8.toNat_inj, UInt8.toNat_ofNat', and_true]
      omega

theorem toNat_byte {n : Nat} (h : n < 256) : (UInt8.ofNat n).toNat = n := by
  rw [UInt8.toNat_ofNat', Nat.mod_eq_of_lt h]

/-- The encoding of a character spells it. -/
theorem spells_encode (c : Char) : Spells (String.utf8EncodeChar c) c := by
  have hvalid : c.val.toNat < 0xd800 ∨ 0xdfff < c.val.toNat ∧ c.val.toNat < 0x110000 :=
    c.valid
  have hc : Char.ofNat c.val.toNat = c := Char.ofNat_toNat c
  generalize hn : c.val.toNat = n at hvalid hc
  -- The last six bits of a number, and any six bits before them, make a continuation.
  have htail : ∀ m, (UInt8.ofNat (m % 64 + 128)).toNat = m % 64 + 128 :=
    fun m => toNat_byte (by omega)
  have hcontinues : ∀ m, isContinuation (UInt8.ofNat (m % 64 + 128)) = true := by
    intro m
    rw [isContinuation_iff, htail]
    omega
  unfold String.utf8EncodeChar
  rw [hn]
  dsimp only
  split
  · have ha : (UInt8.ofNat n).toNat = n := toNat_byte (by omega)
    have hspells := Spells.one (a := UInt8.ofNat n) (by omega)
    rw [ha, hc] at hspells
    exact hspells
  split
  · have ha : (UInt8.ofNat (n / 64 % 32 + 192)).toNat = n / 64 % 32 + 192 :=
      toNat_byte (by omega)
    have hspells := Spells.two (a := UInt8.ofNat (n / 64 % 32 + 192))
      (by omega) (by omega) (hcontinues n)
    have hvalue : (n / 64 % 32 + 192) % 32 * 64 + (n % 64 + 128) % 64 = n := by omega
    rw [payload, ha, htail, hvalue, hc] at hspells
    exact hspells
  split
  · have ha : (UInt8.ofNat (n / 4096 % 16 + 224)).toNat = n / 4096 % 16 + 224 :=
      toNat_byte (by omega)
    have hfits : secondFits (UInt8.ofNat (n / 4096 % 16 + 224))
        (UInt8.ofNat (n / 64 % 64 + 128)) = true := by
      rw [secondFits_iff, ha, htail]
      omega
    have hspells := Spells.three (by omega) (by omega) hfits (hcontinues n)
    have hvalue : (n / 4096 % 16 + 224) % 16 * 4096 + (n / 64 % 64 + 128) % 64 * 64 +
        (n % 64 + 128) % 64 = n := by omega
    rw [payload, payload, ha, htail, htail, hvalue, hc] at hspells
    exact hspells
  · have ha : (UInt8.ofNat (n / 262144 % 8 + 240)).toNat = n / 262144 % 8 + 240 :=
      toNat_byte (by omega)
    have hfits : secondFits (UInt8.ofNat (n / 262144 % 8 + 240))
        (UInt8.ofNat (n / 4096 % 64 + 128)) = true := by
      rw [secondFits_iff, ha, htail]
      omega
    have hspells := Spells.four (by omega) (by omega) hfits (hcontinues (n / 64))
      (hcontinues n)
    have hvalue : (n / 262144 % 8 + 240) % 8 * 262144 + (n / 4096 % 64 + 128) % 64 * 4096 +
        (n / 64 % 64 + 128) % 64 * 64 + (n % 64 + 128) % 64 = n := by omega
    rw [payload, payload, payload, ha, htail, htail, htail, hvalue, hc] at hspells
    exact hspells

/-! ## Reading -/

/-- A step that gives a character takes its encoding off the front. -/
theorem eq_encode_append_of_utf8Step {first : UInt8} {rest : Bytes} {c : Char}
    {extra : Nat} (h : utf8Step first rest = .char c extra) :
    first :: rest = String.utf8EncodeChar c ++ rest.drop extra := by
  obtain ⟨bytes, tail, hsplit, hlength, hspells⟩ := spells_of_utf8Step h
  have htail : rest.drop extra = tail := by
    have hdrop := congrArg (List.drop (extra + 1)) hsplit
    rw [List.drop_succ_cons, ← hlength, List.drop_left] at hdrop
    exact hdrop
  rw [htail, hsplit, eq_encode_of_spells hspells]

theorem eq_flatMap_of_strictChars {offset : Nat} {bytes : Bytes} {cs : List Char}
    (h : strictChars offset bytes = .ok cs) : bytes = cs.flatMap String.utf8EncodeChar := by
  fun_induction strictChars offset bytes generalizing cs with
  | case1 offset =>
      cases h
      rfl
  | case2 offset first rest c extra hstep cs' hrest ih =>
      cases h
      rw [List.flatMap_cons, ← ih hrest]
      exact eq_encode_append_of_utf8Step hstep
  | case3 => cases h
  | case4 => cases h

theorem strictChars_flatMap (offset : Nat) (cs : List Char) :
    strictChars offset (cs.flatMap String.utf8EncodeChar) = .ok cs := by
  induction cs generalizing offset with
  | nil => rw [List.flatMap_nil, strictChars]
  | cons c cs ih =>
      have hspells := spells_encode c
      rw [List.flatMap_cons]
      cases hbytes : String.utf8EncodeChar c with
      | nil =>
          rw [hbytes] at hspells
          cases hspells
      | cons first rest =>
          rw [hbytes] at hspells
          rw [List.cons_append, strictChars, utf8Step_of_spells hspells]
          dsimp only
          rw [List.drop_left, ih]

/-- The strict reader accepts the encodings of texts. -/
theorem strictText_eq_ok_iff {bytes : Bytes} {s : String} :
    strictText bytes = .ok s ↔ bytes = toBytes s := by
  unfold strictText toBytes
  constructor
  · intro h
    cases hchars : strictChars 0 bytes with
    | error e =>
        rw [hchars] at h
        cases h
    | ok cs =>
        rw [hchars] at h
        cases h
        rw [String.toList_ofList]
        exact eq_flatMap_of_strictChars hchars
  · intro h
    rw [h, strictChars_flatMap]
    exact congrArg Except.ok String.ofList_toList

/-! ## The lossy reader -/

/-- Where the strict reader finds no fault, the lossy reader reads the same. -/
theorem lossyChars_of_strictChars {offset : Nat} {bytes : Bytes} {cs : List Char}
    (h : strictChars offset bytes = .ok cs) : lossyChars bytes = cs := by
  fun_induction strictChars offset bytes generalizing cs with
  | case1 offset =>
      cases h
      rw [lossyChars]
  | case2 offset first rest c extra hstep cs' hrest ih =>
      cases h
      rw [lossyChars, hstep]
      exact congrArg (c :: ·) (ih hrest)
  | case3 => cases h
  | case4 => cases h

/-- The lossy reader gives back a text from its encoding. -/
theorem lossyChars_toBytes (s : String) : lossyChars (toBytes s) = s.toList :=
  lossyChars_of_strictChars (strictChars_flatMap 0 s.toList)

theorem toBytes_append (s t : String) : toBytes (s ++ t) = toBytes s ++ toBytes t := by
  rw [toBytes, String.toList_append, List.flatMap_append, toBytes, toBytes]

end DeadSymbols.Text
