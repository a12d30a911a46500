import Mathlib
import DeadSymbols.Index.Name

/-!
# The short name of a symbol

The text of a symbol is a list of descriptors after an optional package.  A descriptor is
a name in one of eight shapes; a name is plain, or stands between quotes and may then
hold marks.  The search for the short name knows nothing of this.  It tries every place
from the left, takes what looks like a name there and asks whether an optional
parenthesis and an optional mark after it reach the end.

It finds the name of the last descriptor because every earlier place fails, and all
places fail for one of three reasons.

* The place is a mark or a bracket, with which no name starts.
* It is inside a stretch of characters that holds neither parenthesis nor quote, and what
  follows the stretch, or any part of it, is more than a mark (`firstName?_stretch`).
* It is a quote.  If the quote opens a name, more than a closing follows the name.  If it
  closes one, it is taken for the opening of what lies before the next name in quotes,
  and the characters of that name are no tail (`quotedName?_written`).

## Main results

* `firstName?_text_append` — a descriptor with others after it is passed over.
* `last_descriptor_names_symbol` — the short name is the name of the last descriptor.
-/

namespace DeadSymbols.SymbolName

/-! ## Descriptors -/

/-- The characters that plain names do not hold. -/
def reserved : List Char :=
  [' ', '/', '#', '.', ':', '!', '[', ']', '(', ')', backquote]

/-- The name in a descriptor. -/
inductive Name
  /-- A name that is written as it is. -/
  | plain (cs : List Char) (nonempty : cs ≠ []) (free : ∀ c ∈ cs, c ∉ reserved)
  /-- A name that is written between quotes; it may be empty. -/
  | quoted (cs : List Char) (free : ∀ c ∈ cs, c ∉ [backquote, ' ', '(', ')'])

/-- The characters of a name without its quotes. -/
def Name.content : Name → List Char
  | .plain cs _ _ => cs
  | .quoted cs _ => cs

/-- A name as it is written. -/
def Name.text : Name → List Char
  | .plain cs _ _ => cs
  | .quoted cs _ => backquote :: (cs ++ [backquote])

/-- What a descriptor describes, which decides the marks around its name. -/
inductive Shape
  | ofNamespace
  | ofType
  | ofTerm
  | ofMeta
  | ofMacro
  /-- A method, with what tells it from others of its name. -/
  | ofMethod (disambiguator : List Char) (free : ∀ c ∈ disambiguator, c ∉ reserved)
  | ofTypeParameter
  | ofParameter

/-- What stands before the name. -/
def Shape.opening : Shape → List Char
  | .ofTypeParameter => ['[']
  | .ofParameter => ['(']
  | _ => []

/-- What stands after the name. -/
def Shape.closing : Shape → List Char
  | .ofNamespace => ['/']
  | .ofType => ['#']
  | .ofTerm => ['.']
  | .ofMeta => [':']
  | .ofMacro => ['!']
  | .ofMethod disambiguator _ => '(' :: (disambiguator ++ [')', '.'])
  | .ofTypeParameter => [']']
  | .ofParameter => [')']

/-- A name and its shape. -/
structure Descriptor where
  name : Name
  shape : Shape

/-- A descriptor as it is written. -/
def Descriptor.text (d : Descriptor) : List Char :=
  d.shape.opening ++ (d.name.text ++ d.shape.closing)

/-- Descriptors as they are written, one after the other. -/
def written (ds : List Descriptor) : List Char :=
  ds.flatMap Descriptor.text

/-! ## Tails -/

theorem isEnd_eq_false_of_length {cs : List Char} (h : 2 ≤ cs.length) : isEnd cs = false := by
  have hnil : cs ≠ [] := by
    rintro rfl
    simp at h
  have hline : cs ≠ ['\n'] := by
    rintro rfl
    simp at h
  simp [isEnd, hnil, hline]

/-- Nothing but a parenthesis or a mark starts a tail, and after a mark nothing follows. -/
theorem isTail_cons_eq_false {c : Char} {cs : List Char} (hopen : c ≠ '(')
    (hend : isEnd (c :: cs) = false) (hmark : isMark c = true → isEnd cs = false) :
    isTail (c :: cs) = false := by
  have hnone : afterParenthesis? (c :: cs) = none := by
    unfold afterParenthesis?
    split
    · next heq =>
        cases heq
        exact absurd rfl hopen
    · rfl
  have hmarkEnd : isMarkEnd (c :: cs) = false := by
    cases hc : isMark c with
    | false => simp [isMarkEnd, hend, hc]
    | true => simp [isMarkEnd, hend, hc, hmark hc]
  simp [isTail, hnone, hmarkEnd]

theorem isTail_cons_of_length {c : Char} {cs : List Char} (hopen : c ≠ '(')
    (h : 2 ≤ cs.length) : isTail (c :: cs) = false := by
  have hend : isEnd (c :: cs) = false := isEnd_eq_false_of_length (by simp; omega)
  exact isTail_cons_eq_false hopen hend fun _ => isEnd_eq_false_of_length h

theorem isTail_cons_quote {cs : List Char} (h : cs ≠ []) : isTail (backquote :: cs) = false := by
  have hpos := List.length_pos_iff.mpr h
  have hend : isEnd (backquote :: cs) = false :=
    isEnd_eq_false_of_length (by rw [List.length_cons]; omega)
  have hmark : isMark backquote = false := by decide
  exact isTail_cons_eq_false (by decide) hend fun hc => absurd hc (by simp [hmark])

/-! ## Places where no name starts -/

theorem longestName?_eq_none {cs : List Char} {size : Nat}
    (h : ∀ k, 0 < k → k ≤ size → isTail (cs.drop k) = false) :
    longestName? cs size = none := by
  induction size with
  | zero => rfl
  | succ size ih =>
      have hsize : isTail (cs.drop (size + 1)) = false := h (size + 1) (by omega) (by omega)
      rw [longestName?, hsize]
      exact ih fun k hk hle => h k hk (by omega)

theorem firstName?_cons_of_none {c : Char} {cs : List Char} (h : nameAt? (c :: cs) = none) :
    firstName? (c :: cs) = firstName? cs := by
  rw [firstName?, h, Option.none_or]

/-- A mark or a bracket is passed over. -/
theorem firstName?_cons_of_stop {c : Char} {cs : List Char} (hquote : c ≠ backquote)
    (hname : isNameChar c = false) : firstName? (c :: cs) = firstName? cs := by
  refine firstName?_cons_of_none ?_
  simp [nameAt?, quotedName?, hquote, hname, longestName?]

private theorem length_takeWhile_append_le {p : Char → Bool} {c : Char} (hc : p c = false)
    (xs cs : List Char) : ((xs ++ c :: cs).takeWhile p).length ≤ xs.length := by
  induction xs with
  | nil => simp [hc]
  | cons x xs ih =>
      cases hx : p x with
      | false => simp [hx]
      | true => simpa [hx] using ih

/-- A stretch without parenthesis and quote is passed over if it ends at a character that
is in no name and at which no tail starts. -/
theorem firstName?_stretch {xs cs : List Char} {c : Char}
    (hxs : ∀ x ∈ xs, x ≠ '(' ∧ x ≠ backquote) (hstop : isNameChar c = false)
    (hcs : cs ≠ []) (htail : isTail (c :: cs) = false) :
    firstName? (xs ++ c :: cs) = firstName? (c :: cs) := by
  have hlength : 2 ≤ (c :: cs).length := by
    have hpos := List.length_pos_iff.mpr hcs
    rw [List.length_cons]
    omega
  induction xs with
  | nil => rfl
  | cons x xs ih =>
      have hx := hxs x List.mem_cons_self
      have hrest := fun y hy => hxs y (List.mem_cons_of_mem x hy)
      have hnone : nameAt? (x :: (xs ++ c :: cs)) = none := by
        have hquoted : quotedName? (x :: (xs ++ c :: cs)) = none := if_neg hx.2
        rw [nameAt?, hquoted, Option.none_or]
        refine longestName?_eq_none fun k hk hle => ?_
        have hrun := length_takeWhile_append_le hstop (x :: xs) cs
        have hkle : k ≤ (x :: xs).length := hle.trans hrun
        rw [← List.cons_append, List.drop_append_of_le_length hkle]
        -- What is left of the stretch after a shorter name starts no tail either.
        cases hdrop : (x :: xs).drop k with
        | nil => exact htail
        | cons y ys =>
            have hy : y ∈ x :: xs := by
              refine List.mem_of_mem_drop (i := k) ?_
              rw [hdrop]
              exact List.mem_cons_self
            show isTail (y :: (ys ++ c :: cs)) = false
            refine isTail_cons_of_length (hxs y hy).1 ?_
            rw [List.length_append]
            omega
      rw [List.cons_append, firstName?_cons_of_none hnone]
      exact ih hrest

/-! ## Quotes -/

/-- Characters before the next quote are part of what the quote before them opens. -/
theorem quotedName?_append {xs : List Char} (h : ∀ x ∈ xs, x ≠ backquote) (cs : List Char) :
    quotedName? (backquote :: (xs ++ cs)) =
      (quotedName? (backquote :: cs)).map (xs ++ ·) := by
  have htake : (xs ++ cs).takeWhile (· != backquote) =
      xs ++ cs.takeWhile (· != backquote) :=
    List.takeWhile_append_of_pos fun x hx => by simpa using h x hx
  have hdrop : ∀ n, (xs ++ cs).drop (xs.length + n) = cs.drop n := by
    intro n
    rw [List.drop_append]
    simp
  simp only [quotedName?, if_true, htake, List.length_append, hdrop]
  cases cs.drop (cs.takeWhile (· != backquote)).length with
  | nil => rfl
  | cons c after =>
      by_cases htail : isTail after = true
      · simp only [htail, if_true, Option.map_some]
      · simp only [htail, Bool.false_eq_true, if_false, Option.map_none]

theorem quotedName?_quote (after : List Char) :
    quotedName? (backquote :: backquote :: after) =
      if isTail after = true then some [] else none := by
  simp [quotedName?]

/-- A quote that no quoted name is read from is passed over. -/
theorem firstName?_cons_quote {cs : List Char} (h : quotedName? (backquote :: cs) = none) :
    firstName? (backquote :: cs) = firstName? cs := by
  refine firstName?_cons_of_none ?_
  have hstop : isNameChar backquote = false := by decide
  rw [nameAt?, h, Option.none_or, List.takeWhile_cons, hstop]
  rfl

/-! ## The parts of a descriptor -/

theorem isNameChar_of_not_reserved {c : Char} (h : c ∉ reserved) : isNameChar c = true := by
  simp only [reserved, List.mem_cons, List.not_mem_nil, or_false, not_or] at h
  simp [isNameChar, isMark, h]

theorem plain_chars {cs : List Char} (free : ∀ c ∈ cs, c ∉ reserved) :
    ∀ c ∈ cs, c ≠ '(' ∧ c ≠ backquote := by
  intro c hc
  exact ⟨(ne_of_mem_of_not_mem (by decide) (free c hc)).symm,
    (ne_of_mem_of_not_mem (by decide) (free c hc)).symm⟩

namespace Shape

theorem opening_chars (s : Shape) :
    ∀ c ∈ s.opening, c ≠ backquote ∧ c ≠ ' ' ∧ isNameChar c = false := by
  intro c hc
  cases s with
  | ofTypeParameter =>
      obtain rfl := List.mem_singleton.mp hc
      decide
  | ofParameter =>
      obtain rfl := List.mem_singleton.mp hc
      decide
  | _ => cases hc

/-- After a name stands a character that is in no name. -/
theorem exists_closing (s : Shape) :
    ∃ c cs, s.closing = c :: cs ∧ isNameChar c = false := by
  cases s <;> exact ⟨_, _, rfl, by decide⟩

theorem closing_chars (s : Shape) : ∀ c ∈ s.closing, c ≠ backquote ∧ c ≠ ' ' := by
  intro c hc
  cases s with
  | ofMethod d free =>
      simp only [closing, List.mem_cons, List.mem_append, List.not_mem_nil, or_false] at hc
      rcases hc with rfl | hd | rfl | rfl
      · decide
      · exact ⟨(ne_of_mem_of_not_mem (by decide) (free c hd)).symm,
          (ne_of_mem_of_not_mem (by decide) (free c hd)).symm⟩
      · decide
      · decide
  | _ =>
      obtain rfl := List.mem_singleton.mp hc
      decide

theorem closing_ofMethod_append {d : List Char} (free : ∀ c ∈ d, c ∉ reserved)
    (rest : List Char) :
    (ofMethod d free).closing ++ rest = '(' :: (d ++ ')' :: '.' :: rest) := by
  simp [closing]

/-- After a parenthesis without another in it comes what follows it. -/
theorem afterParenthesis?_append {d : List Char} (h : ∀ c ∈ d, c ∉ reserved)
    (rest : List Char) : afterParenthesis? ('(' :: (d ++ ')' :: rest)) = some rest := by
  have hdrop : (d ++ ')' :: rest).dropWhile (· != ')') = ')' :: rest := by
    rw [List.dropWhile_append_of_pos]
    · rfl
    · intro c hc
      have hne : c ≠ ')' := (ne_of_mem_of_not_mem (by decide) (h c hc)).symm
      simp [hne]
  simp [afterParenthesis?, hdrop]

theorem isTail_closing (s : Shape) : isTail s.closing = true := by
  cases s with
  | ofMethod d free =>
      have hdot : isMarkEnd ['.'] = true := by decide
      simp only [closing, isTail, afterParenthesis?_append free, hdot, Bool.true_or]
  | _ => decide

theorem isTail_closing_append (s : Shape) {rest : List Char} (h : 2 ≤ rest.length) :
    isTail (s.closing ++ rest) = false := by
  have hend : isEnd rest = false := isEnd_eq_false_of_length h
  cases s with
  | ofMethod d free =>
      have hdot : isMarkEnd ('.' :: rest) = false := by
        have hlong : isEnd ('.' :: rest) = false :=
          isEnd_eq_false_of_length (by simp; omega)
        simp [isMarkEnd, hlong, hend]
      have hopen : isMarkEnd ('(' :: (d ++ ')' :: '.' :: rest)) = false := by
        have hlong : isEnd ('(' :: (d ++ ')' :: '.' :: rest)) = false :=
          isEnd_eq_false_of_length (by simp; omega)
        have hmark : isMark '(' = false := by decide
        simp [isMarkEnd, hlong, hmark]
      rw [closing_ofMethod_append, isTail, afterParenthesis?_append free]
      simp [hdot, hopen]
  | _ => exact isTail_cons_of_length (by decide) h

theorem firstName?_opening_append (s : Shape) (rest : List Char) :
    firstName? (s.opening ++ rest) = firstName? rest := by
  cases s with
  | ofTypeParameter => exact firstName?_cons_of_stop (by decide) (by decide)
  | ofParameter => exact firstName?_cons_of_stop (by decide) (by decide)
  | _ => rfl

theorem firstName?_closing_append (s : Shape) {rest : List Char} (h : 2 ≤ rest.length) :
    firstName? (s.closing ++ rest) = firstName? rest := by
  cases s with
  | ofMethod d free =>
      have htail : isTail (')' :: '.' :: rest) = false :=
        isTail_cons_of_length (by decide) (by simp; omega)
      calc
        firstName? ((ofMethod d free).closing ++ rest)
            = firstName? ('(' :: (d ++ ')' :: '.' :: rest)) := by
              rw [closing_ofMethod_append]
        _ = firstName? (d ++ ')' :: '.' :: rest) :=
            firstName?_cons_of_stop (by decide) (by decide)
        _ = firstName? (')' :: '.' :: rest) :=
            firstName?_stretch (plain_chars free) (by decide) (by simp) htail
        _ = firstName? ('.' :: rest) := firstName?_cons_of_stop (by decide) (by decide)
        _ = firstName? rest := firstName?_cons_of_stop (by decide) (by decide)
  | _ => exact firstName?_cons_of_stop (by decide) (by decide)

end Shape

namespace Name

theorem quoted_chars {cs : List Char} (free : ∀ c ∈ cs, c ∉ [backquote, ' ', '(', ')']) :
    ∀ c ∈ cs, c ≠ '(' ∧ c ≠ backquote := by
  intro c hc
  exact ⟨(ne_of_mem_of_not_mem (by decide) (free c hc)).symm,
    (ne_of_mem_of_not_mem (by decide) (free c hc)).symm⟩

theorem text_ne_nil (n : Name) : n.text ≠ [] := by
  cases n with
  | plain cs nonempty free => exact nonempty
  | quoted cs free => exact List.cons_ne_nil _ _

theorem space_not_mem_text (n : Name) : ' ' ∉ n.text := by
  cases n with
  | plain cs nonempty free => exact fun h => free ' ' h (by decide)
  | quoted cs free =>
      intro h
      simp only [text, List.mem_cons, List.mem_append, List.not_mem_nil, or_false] at h
      rcases h with h | h | h
      · exact absurd h (by decide)
      · exact free ' ' h (by decide)
      · exact absurd h (by decide)

/-- A name is passed over if what stands after it is no tail. -/
theorem firstName?_text_append (n : Name) {c : Char} {cs : List Char}
    (hstop : isNameChar c = false) (hcs : cs ≠ []) (htail : isTail (c :: cs) = false)
    (hquote : quotedName? (backquote :: c :: cs) = none) :
    firstName? (n.text ++ c :: cs) = firstName? (c :: cs) := by
  cases n with
  | plain name nonempty free =>
      exact firstName?_stretch (plain_chars free) hstop hcs htail
  | quoted name free =>
      have hopens : quotedName? (backquote :: (name ++ backquote :: c :: cs)) = none := by
        rw [quotedName?_append fun x hx => (quoted_chars free x hx).2, quotedName?_quote, htail]
        rfl
      calc
        firstName? ((quoted name free).text ++ c :: cs)
            = firstName? (backquote :: (name ++ backquote :: c :: cs)) := by simp [text]
        _ = firstName? (name ++ backquote :: c :: cs) := firstName?_cons_quote hopens
        _ = firstName? (backquote :: c :: cs) :=
            firstName?_stretch (quoted_chars free) (by decide) (by simp)
              (isTail_cons_quote (by simp))
        _ = firstName? (c :: cs) := firstName?_cons_quote hquote

/-- A name is found if what stands after it is a tail. -/
theorem firstName?_text_of_isTail (n : Name) {c : Char} {cs : List Char}
    (hstop : isNameChar c = false) (htail : isTail (c :: cs) = true) :
    firstName? (n.text ++ c :: cs) = some n.content := by
  cases n with
  | plain name nonempty free =>
      obtain ⟨x, xs, rfl⟩ := List.exists_cons_of_ne_nil nonempty
      have hx : x ≠ backquote := (plain_chars free x List.mem_cons_self).2
      have hquoted : quotedName? (x :: (xs ++ c :: cs)) = none := if_neg hx
      have hrun : (x :: (xs ++ c :: cs)).takeWhile isNameChar = x :: xs := by
        rw [← List.cons_append, List.takeWhile_append_of_pos fun y hy =>
          isNameChar_of_not_reserved (free y hy)]
        simp [hstop]
      have hdrop : (x :: (xs ++ c :: cs)).drop (xs.length + 1) = c :: cs := by simp
      have htake : (x :: (xs ++ c :: cs)).take (xs.length + 1) = x :: xs := by simp
      have hname : nameAt? (x :: (xs ++ c :: cs)) = some (x :: xs) := by
        rw [nameAt?, hquoted, Option.none_or, hrun, List.length_cons, longestName?, hdrop,
          htail, htake]
        rfl
      show firstName? (x :: (xs ++ c :: cs)) = some (x :: xs)
      rw [firstName?, hname, Option.some_or]
  | quoted name free =>
      have htext : (quoted name free).text ++ c :: cs =
          backquote :: (name ++ backquote :: c :: cs) := by
        simp [text]
      have hname : quotedName? (backquote :: (name ++ backquote :: c :: cs)) = some name := by
        rw [quotedName?_append fun x hx => (quoted_chars free x hx).2, quotedName?_quote, htail]
        simp
      rw [htext, firstName?, nameAt?, hname]
      rfl

end Name

/-! ## Descriptors one after the other -/

namespace Descriptor

theorem length_text (d : Descriptor) : 2 ≤ d.text.length := by
  have hname := List.length_pos_iff.mpr d.name.text_ne_nil
  obtain ⟨c, cs, hclosing, -⟩ := d.shape.exists_closing
  simp only [text, List.length_append, hclosing, List.length_cons]
  omega

theorem space_not_mem_text (d : Descriptor) : ' ' ∉ d.text := by
  simp only [text, List.mem_append, not_or]
  refine ⟨?_, d.name.space_not_mem_text, ?_⟩
  · exact fun h => (d.shape.opening_chars ' ' h).2.1 rfl
  · exact fun h => (d.shape.closing_chars ' ' h).2 rfl

/-- A descriptor is passed over if more than one character stands after it and a quote
before them opens nothing. -/
theorem firstName?_text_append (d : Descriptor) {rest : List Char} (hlength : 2 ≤ rest.length)
    (hquote : quotedName? (backquote :: rest) = none) :
    firstName? (d.text ++ rest) = firstName? rest := by
  obtain ⟨c, cs, hclosing, hstop⟩ := d.shape.exists_closing
  have htail : isTail (c :: (cs ++ rest)) = false := by
    rw [← List.cons_append, ← hclosing]
    exact d.shape.isTail_closing_append hlength
  have hcloses : quotedName? (backquote :: c :: (cs ++ rest)) = none := by
    rw [← List.cons_append, ← hclosing,
      quotedName?_append fun x hx => (d.shape.closing_chars x hx).1, hquote]
    rfl
  have hmore : cs ++ rest ≠ [] := by
    intro h
    simp [(List.append_eq_nil_iff.mp h).2] at hlength
  calc
    firstName? (d.text ++ rest)
        = firstName? (d.shape.opening ++ (d.name.text ++ c :: (cs ++ rest))) := by
          simp [text, hclosing]
    _ = firstName? (d.name.text ++ c :: (cs ++ rest)) := d.shape.firstName?_opening_append _
    _ = firstName? (c :: (cs ++ rest)) :=
        d.name.firstName?_text_append hstop hmore htail hcloses
    _ = firstName? (d.shape.closing ++ rest) := by rw [hclosing, List.cons_append]
    _ = firstName? rest := d.shape.firstName?_closing_append hlength

/-- In a descriptor with nothing after it, its name is found. -/
theorem firstName?_text (d : Descriptor) : firstName? d.text = some d.name.content := by
  obtain ⟨c, cs, hclosing, hstop⟩ := d.shape.exists_closing
  have htail : isTail (c :: cs) = true := by
    rw [← hclosing]
    exact d.shape.isTail_closing
  rw [text, Shape.firstName?_opening_append, hclosing]
  exact d.name.firstName?_text_of_isTail hstop htail

/-- A quote before descriptors opens nothing: the next quote opens a name, and its
characters are no tail. -/
theorem quotedName?_text_append (d : Descriptor) {rest : List Char}
    (hquote : quotedName? (backquote :: rest) = none) :
    quotedName? (backquote :: (d.text ++ rest)) = none := by
  have hopening := fun x hx => (d.shape.opening_chars x hx).1
  have hclosing := fun x hx => (d.shape.closing_chars x hx).1
  obtain ⟨name, shape⟩ := d
  simp only [text, List.append_assoc]
  rw [quotedName?_append hopening]
  cases name with
  | plain cs nonempty free =>
      have hplain := fun x hx => (plain_chars free x hx).2
      simp only [Name.text]
      rw [quotedName?_append hplain, quotedName?_append hclosing, hquote]
      rfl
  | quoted cs free =>
      obtain ⟨c, more, hmore, -⟩ := shape.exists_closing
      have htail : isTail (cs ++ backquote :: (shape.closing ++ rest)) = false := by
        rw [hmore]
        cases cs with
        | nil => exact isTail_cons_quote (by simp)
        | cons x xs =>
            exact isTail_cons_of_length (Name.quoted_chars free x List.mem_cons_self).1
              (by simp; omega)
      simp only [Name.text, List.cons_append, List.append_assoc, List.nil_append]
      rw [quotedName?_quote, htail]
      rfl

end Descriptor

theorem quotedName?_written (ds : List Descriptor) :
    quotedName? (backquote :: written ds) = none := by
  induction ds with
  | nil => simp [written, quotedName?]
  | cons d ds ih => exact d.quotedName?_text_append ih

/-- Among descriptors one after the other, the first name that reaches the end is that of
the last. -/
theorem firstName?_written (before : List Descriptor) (last : Descriptor) :
    firstName? (written (before ++ [last])) = some last.name.content := by
  induction before with
  | nil =>
      rw [List.nil_append, written, List.flatMap_singleton]
      exact last.firstName?_text
  | cons d ds ih =>
      have hlength : 2 ≤ (written (ds ++ [last])).length := by
        have := last.length_text
        simp only [written, List.flatMap_append, List.flatMap_singleton, List.length_append]
        omega
      rw [List.cons_append, written, List.flatMap_cons]
      exact (d.firstName?_text_append hlength (quotedName?_written _)).trans ih

theorem space_not_mem_written (ds : List Descriptor) : ' ' ∉ written ds := by
  intro h
  obtain ⟨d, -, hd⟩ := List.mem_flatMap.mp h
  exact d.space_not_mem_text hd

/-- The descriptors are what stands after the last space. -/
theorem descriptors_append {start cs : List Char}
    (hstart : start = [] ∨ start.getLast? = some ' ') (hcs : ' ' ∉ cs) :
    descriptors (start ++ cs) = cs := by
  have hpos : ∀ c ∈ cs.reverse, (c != ' ') = true := by
    intro c hc
    have hne : c ≠ ' ' := by
      rintro rfl
      exact hcs (List.mem_reverse.mp hc)
    simp [hne]
  have hstop : start.reverse.takeWhile (· != ' ') = [] := by
    rcases hstart with rfl | hlast
    · rfl
    · rw [← List.head?_reverse] at hlast
      obtain ⟨more, hmore⟩ := List.head?_eq_some_iff.mp hlast
      rw [hmore]
      rfl
  rw [descriptors, List.reverse_append, List.takeWhile_append_of_pos hpos, hstop,
    List.append_nil, List.reverse_reverse]

/-- The short name of a symbol is the name of its last descriptor.  The symbol is not
local, and its text is nothing or something that ends in a space, and after it one
descriptor or more. -/
theorem last_descriptor_names_symbol (symbol : String) (start : List Char)
    (before : List Descriptor) (last : Descriptor)
    (hstart : start = [] ∨ start.getLast? = some ' ')
    (hsymbol : symbol.toList = start ++ written (before ++ [last]))
    (hlocal : isLocal symbol = false) :
    display symbol = String.ofList last.name.content := by
  have hdescriptors : descriptors symbol.toList = written (before ++ [last]) := by
    rw [hsymbol]
    exact descriptors_append hstart (space_not_mem_written _)
  simp only [display, hlocal, Bool.false_eq_true, if_false, hdescriptors, firstName?_written,
    Option.getD_some]

/-- A namespace and a type in quotes, the second with an empty name, a type parameter and
a method. -/
def paintDescriptors : List Descriptor :=
  [⟨.quoted "a.b".toList (by simp [backquote]), .ofNamespace⟩,
   ⟨.quoted [] (by simp), .ofType⟩,
   ⟨.plain ['T'] (by simp) (by simp [reserved, backquote]), .ofTypeParameter⟩,
   ⟨.plain "fill".toList (by simp) (by simp [reserved, backquote]),
    .ofMethod "+1".toList (by simp [reserved, backquote])⟩]

/-- The search passes over all of them and finds the parameter of the method, whose name
is in quotes and holds a mark. -/
theorem last_descriptor_names_symbol_paint :
    isLocal "cargo paint 0.1 `a.b`/``#[T]fill(+1).(`x/y`)" = false ∧
      display "cargo paint 0.1 `a.b`/``#[T]fill(+1).(`x/y`)" = "x/y" := by
  have hlocal : isLocal "cargo paint 0.1 `a.b`/``#[T]fill(+1).(`x/y`)" = false := by
    decide +kernel
  have hname := last_descriptor_names_symbol
    "cargo paint 0.1 `a.b`/``#[T]fill(+1).(`x/y`)" "cargo paint 0.1 ".toList paintDescriptors
    ⟨.quoted "x/y".toList (by simp [backquote]), .ofParameter⟩
    (.inr (by decide +kernel)) (by decide +kernel) hlocal
  exact ⟨hlocal, hname⟩

end DeadSymbols.SymbolName
