import Mathlib
import DeadSymbols.Proofs.Listing
import DeadSymbols.Proofs.YamlNodes

/-!
# The values of YAML documents

The values of a document are found from its nodes, and the faults that a scalar can have
depend on its tag.  Three of them say that a text has nothing of the form that its tag asks
for (`Misfit`).  A tag that comes from the form of the text asks for no more than this form,
so such a fault needs a tag that is written out.

The functions that look through the nodes either give something or end with a fault, and
`Yields` says of both what is known.

Some of the faults are breakdowns of the reader.  It breaks down only on an escape with a number
past 31 bits, on a number of too many groups and where a tag stands (`Readers.BreaksOn`).

## Main results

* `Yaml.not_misfit_implicitTag` — the text of a plain scalar fits the tag that it has from its
  form.
* `Yaml.endsReading_of_read` — why a text can have no value.
* `Readers.breaksOn_of_ofYaml`, `Readers.ofToml_ne_breakdown` — the files on which the readers of
  this library break down.
-/

namespace DeadSymbols

/-! ## Values and faults -/

section Yields

variable {α β ε ε' : Type} {P : ε → Prop} {Q : α → Prop} {R : β → Prop}

/-- There is something of which `Q` holds, or a fault of which `P` holds. -/
def Yields (P : ε → Prop) (Q : α → Prop) (x : Except ε α) : Prop :=
  (∀ a, x = .ok a → Q a) ∧ ∀ fault, x = .error fault → P fault

namespace Yields

theorem ok {a : α} (h : Q a) : Yields P Q (.ok a) :=
  ⟨fun _ heq => Except.ok.inj heq ▸ h, nofun⟩

theorem pure {a : α} (h : Q a) : Yields P Q (pure a) :=
  ok h

theorem error {fault : ε} (h : P fault) : Yields P Q (.error fault) := by
  refine ⟨nofun, fun _ heq => ?_⟩
  exact Except.error.inj heq ▸ h

theorem mono {P' : ε → Prop} {x : Except ε α} (hx : Yields P Q x)
    (h : ∀ fault, P fault → P' fault) : Yields P' Q x :=
  ⟨hx.1, fun fault heq => h fault (hx.2 fault heq)⟩

theorem ite {c : Prop} [Decidable c] {x y : Except ε α} (hx : Yields P Q x)
    (hy : Yields P Q y) : Yields P Q (if c then x else y) := by
  split
  · exact hx
  · exact hy

theorem mapError {x : Except ε' α} {wrap : ε' → ε} (h : ∀ e, P (wrap e)) :
    Yields P (fun _ => True) (x.mapError wrap) := by
  cases x with
  | ok a => exact ok trivial
  | error e => exact error (h e)

theorem map {x : Except ε α} (f : α → β) (hx : Yields P Q x) :
    Yields P (fun _ => True) (x.map f) := by
  cases x with
  | ok a => exact ok trivial
  | error fault => exact error (hx.2 fault rfl)

theorem bind {x : Except ε α} {f : α → Except ε β} (hx : Yields P Q x)
    (hf : ∀ a, Q a → Yields P R (f a)) : Yields P R (x >>= f) := by
  cases x with
  | ok a => exact hf a (hx.1 a rfl)
  | error fault => exact error (hx.2 fault rfl)

/-- What follows a step may use that the step gave what it starts from. -/
theorem bind_ok {x : Except ε α} {f : α → Except ε β} (hx : Yields P Q x)
    (hf : ∀ a, x = .ok a → Yields P R (f a)) : Yields P R (x >>= f) :=
  Yields.bind ⟨fun _ heq => heq, hx.2⟩ hf

theorem mapM {f : α → Except ε β} {as : List α} (hf : ∀ a ∈ as, Yields P R (f a)) :
    Yields P (fun bs => ∀ b ∈ bs, R b) (as.mapM f) := by
  induction as with
  | nil =>
      rw [List.mapM_nil]
      exact ok fun b hb => absurd hb List.not_mem_nil
  | cons a as ih =>
      rw [List.mapM_cons]
      refine (hf a List.mem_cons_self).bind fun b hb => ?_
      refine (ih fun a' ha' => hf a' (List.mem_cons_of_mem a ha')).bind fun bs hbs => ?_
      exact ok (List.forall_mem_cons.mpr ⟨hb, hbs⟩)

end Yields

end Yields

namespace Yaml

/-! ## Scalars -/

/-- A text that has nothing of the form that its tag asks for, with the fault of it. -/
inductive Misfit : Tag → String → YamlFault → Prop
  | truth {text : String} (h : truthWords.lookup (Text.lowerCase text) = none) :
      Misfit .bool text .truth
  | int {text : String} (h : (Integer.splitSign (withoutMarks text.toList)).2 = []) :
      Misfit .int text .emptyNumber
  | float {text : String}
      (h : (Text.lowerCase (String.ofList (withoutMarks text.toList))).toList = []) :
      Misfit .float text .emptyNumber
  | timestamp {text : String} (h : stamp? (withoutLastBreak text.toList) = none) :
      Misfit .timestamp text .timestamp

/-- The faults of a scalar: those for which the text is to blame, too many groups, and misfits. -/
def ScalarFault (tag : Tag) (text : String) (fault : YamlFault) : Prop :=
  fault.isOfText = true ∨ fault = .tooManyGroups ∨ Misfit tag text fault

theorem yields_intValue (text : String) :
    Yields (ScalarFault .int text) (fun _ => True) (intValue text) := by
  have hread : ∀ (x : Except IntegerFault Int) (f : Int → Int),
      Yields (ScalarFault .int text) (fun _ => True)
        (x.mapError .integer >>= fun n => pure (f n)) :=
    fun x f => (Yields.mapError fun _ => .inl rfl).bind fun n _ => .pure trivial
  rw [intValue]
  cases hsign : Integer.splitSign (withoutMarks text.toList) with
  | mk negative body =>
    dsimp only
    split
    next => exact .error (.inr (.inr (.int (congrArg Prod.snd hsign))))
    next => exact hread _ _
    next => exact hread _ _
    next => exact hread _ _
    next =>
      refine Yields.ite ?_ (hread _ _)
      exact (Yields.mapError fun _ => .inl rfl).bind fun _ _ => hread _ _

theorem yields_floatPart {tag : Tag} {text : String} (cs : List Char) :
    Yields (ScalarFault tag text) (fun _ => True) (floatPart cs) := by
  unfold floatPart
  split
  · exact .ok trivial
  · exact .error (.inl rfl)

theorem yields_groupedFloat {tag : Tag} {text : String} (sum : Double) (base : Nat)
    (groups : List Double) :
    Yields (ScalarFault tag text) (fun _ => True) (groupedFloat sum base groups) := by
  induction groups generalizing sum base with
  | nil => exact .ok trivial
  | cons x rest ih =>
      rw [groupedFloat]
      split
      · exact .error (.inr (.inl rfl))
      · exact ih _ _

theorem yields_floatValue (text : String) :
    Yields (ScalarFault .float text) (fun _ => True) (floatValue text) := by
  unfold floatValue
  dsimp only
  split
  next hempty => exact .error (.inr (.inr (.float (List.isEmpty_iff.mp hempty))))
  next =>
    generalize Integer.splitSign _ = parts
    cases parts with
    | mk negative body =>
      refine Yields.ite (.pure trivial) (.ite (.pure trivial) (.ite ?_ ?_))
      · refine (Yields.mapM fun cs _ => yields_floatPart cs).bind fun groups _ => ?_
        exact (yields_groupedFloat _ _ groups.reverse).bind fun _ _ => .pure trivial
      · exact (yields_floatPart body).bind fun _ _ => .pure trivial

theorem yields_scalarValue (tag : Tag) (text : String) :
    Yields (ScalarFault tag text) (fun _ => True) (scalarValue tag text) := by
  unfold scalarValue
  split
  next => exact .ok trivial
  next =>
    split
    · exact .ok trivial
    · next hnone => exact .error (.inr (.inr (.truth hnone)))
  next => exact (yields_intValue text).map _
  next => exact (yields_floatValue text).map _
  next =>
    split
    · exact .error (.inl rfl)
    split
    · exact .ok trivial
    · exact .error (.inl rfl)
  next =>
    split
    · next hnone => exact .error (.inr (.inr (.timestamp hnone)))
    · exact .mapError fun _ => .inl rfl
  next => exact .ok trivial
  next => exact .error (.inl rfl)

/-! ## Tags from forms -/

theorem withoutLastBreak_eq {cs : List Char} (h : cs.getLast? ≠ some '\n') :
    withoutLastBreak cs = cs :=
  if_neg h

theorem mem_of_mem_splitSign {c : Char} {cs : List Char} (h : c ∈ (Integer.splitSign cs).2) :
    c ∈ cs := by
  unfold Integer.splitSign at h
  split at h
  · exact List.mem_cons_of_mem _ h
  · exact List.mem_cons_of_mem _ h
  · exact h

theorem mem_splitSign {c : Char} {cs : List Char} (h : c ∈ cs) (hminus : c ≠ '-')
    (hplus : c ≠ '+') : c ∈ (Integer.splitSign cs).2 := by
  unfold Integer.splitSign
  split
  · exact List.mem_of_ne_of_mem hminus h
  · exact List.mem_of_ne_of_mem hplus h
  · exact h

theorem mem_withoutMarks {c : Char} {cs : List Char} (h : c ∈ cs) (hc : c ≠ '_') :
    c ∈ withoutMarks cs :=
  List.mem_filter.mpr ⟨h, bne_iff_ne.mpr hc⟩

theorem exists_digit_of_isDigits {cs : List Char} (h : isDigits cs = true) :
    ∃ d ∈ cs, Text.isAsciiDigit d = true := by
  rw [isDigits, Bool.and_eq_true, Option.any_eq_true] at h
  obtain ⟨⟨d, hd, hdigit⟩, -⟩ := h
  exact ⟨d, List.mem_of_mem_head? hd, hdigit⟩

theorem exists_digit_of_isGrouped {cs : List Char} (h : isGrouped cs = true) :
    ∃ d ∈ cs, Text.isAsciiDigit d = true := by
  unfold isGrouped at h
  split at h
  next first second more hsplit =>
    rw [Bool.and_eq_true] at h
    obtain ⟨d, hd, hdigit⟩ := exists_digit_of_isDigits h.1
    have hfirst : first ∈ Text.splitAt ':' cs := by
      rw [hsplit]
      exact List.mem_cons_self
    exact ⟨d, Text.mem_of_mem_splitAt hfirst hd, hdigit⟩
  next => cases h

/-- A number has a digit. -/
theorem exists_digit_of_isInt {cs : List Char} (h : isInt cs = true) :
    ∃ d ∈ cs, Text.isAsciiDigit d = true := by
  suffices hbody : ∃ d ∈ (Integer.splitSign cs).2, Text.isAsciiDigit d = true by
    obtain ⟨d, hd, hdigit⟩ := hbody
    exact ⟨d, mem_of_mem_splitSign hd, hdigit⟩
  unfold isInt at h
  dsimp only at h
  split at h
  next hbody =>
    rw [hbody]
    exact ⟨'0', List.mem_cons_self, by decide⟩
  next hbody =>
    rw [hbody]
    exact ⟨'0', List.mem_cons_self, by decide⟩
  next =>
    rw [Bool.or_eq_true] at h
    rcases h with h | h
    · exact exists_digit_of_isDigits h
    · exact exists_digit_of_isGrouped h

/-- A floating point number has a point. -/
theorem point_mem_of_isFloat {cs : List Char} (h : isFloat cs = true) : '.' ∈ cs := by
  unfold isFloat at h
  simp only [Bool.or_eq_true, List.contains_iff_mem] at h
  rcases h with ((hplain | hfraction) | hinfinite) | hnan
  · apply mem_of_mem_splitSign
    by_contra hpoint
    have hnone : (Integer.splitSign cs).2.dropWhile (· != '.') = [] :=
      List.dropWhile_eq_nil_iff.mpr fun c hc =>
        bne_iff_ne.mpr fun heq => hpoint (heq ▸ hc)
    rw [hnone] at hplain
    cases hplain
  · split at hfraction
    · exact List.mem_cons_self
    · cases hfraction
  · apply mem_of_mem_splitSign
    rw [← String.toList_ofList (l := (Integer.splitSign cs).2)]
    exact (by decide : ∀ w ∈ [".inf", ".Inf", ".INF"], '.' ∈ w.toList) _ hinfinite
  · rw [← String.toList_ofList (l := cs)]
    exact (by decide : ∀ w ∈ [".nan", ".NaN", ".NAN"], '.' ∈ w.toList) _ hnan

theorem point_mem_lowerCaseAux {before cs : List Char} (h : '.' ∈ cs) :
    '.' ∈ Text.lowerCaseAux before cs := by
  induction cs generalizing before with
  | nil => cases h
  | cons c rest ih =>
      rw [Text.lowerCaseAux, List.mem_append]
      rcases List.mem_cons.mp h with rfl | hrest
      · left
        rw [if_neg (by decide : '.' ≠ Text.capitalSigma)]
        decide
      · exact .inr (ih hrest)

theorem casings_known : ∀ word ∈ truthWords.flatMap fun w => casings w.1,
    (truthWords.lookup (Text.lowerCase word)).isSome = true := by
  decide +kernel

/-- What the tag that a text has from its form says about the text. -/
theorem form_of_implicitTag (text : String) (h : text.toList.getLast? ≠ some '\n') :
    (implicitTag text = .bool → text ∈ truthWords.flatMap fun w => casings w.1) ∧
    (implicitTag text = .float → isFloat text.toList = true) ∧
    (implicitTag text = .int → isInt text.toList = true) ∧
    (implicitTag text = .timestamp → isTimestamp text.toList = true) := by
  unfold implicitTag
  rw [withoutLastBreak_eq h]
  dsimp only
  rw [String.ofList_toList]
  split_ifs <;> simp_all

/-- The text of a plain scalar fits the tag that it has from its form. -/
theorem not_misfit_implicitTag {text : String} {fault : YamlFault}
    (h : text.toList.getLast? ≠ some '\n') : ¬ Misfit (implicitTag text) text fault := by
  obtain ⟨hbool, hfloat, hint, htimestamp⟩ := form_of_implicitTag text h
  intro hmisfit
  generalize implicitTag text = tag at *
  cases hmisfit with
  | truth hnone =>
      have hsome := casings_known text (hbool rfl)
      rw [hnone] at hsome
      cases hsome
  | int hnil =>
      obtain ⟨d, hd, hdigit⟩ := exists_digit_of_isInt (hint rfl)
      have hother : ∀ c, Text.isAsciiDigit c = false → d ≠ c := fun c hc heq =>
        Bool.false_ne_true (hc.symm.trans (heq ▸ hdigit))
      have hkept := mem_withoutMarks hd (hother '_' (by decide))
      have hmem := mem_splitSign hkept (hother '-' (by decide)) (hother '+' (by decide))
      exact List.ne_nil_of_mem hmem hnil
  | float hnil =>
      have hkept := mem_withoutMarks (point_mem_of_isFloat (hfloat rfl)) (by decide)
      rw [Text.lowerCase, String.toList_ofList, String.toList_ofList] at hnil
      exact List.ne_nil_of_mem (point_mem_lowerCaseAux hkept) hnil
  | timestamp hnone =>
      have hstamp := htimestamp rfl
      rw [withoutLastBreak_eq h] at hnone
      rw [isTimestamp, hnone] at hstamp
      cases hstamp

/-! ## Documents -/

/-- The faults with which the reading of a text can end.  Of those for which the text is not to
blame, one needs an escape of a number past 31 bits and one a number of many groups, and the
others need a tag. -/
def EndsReading (cs : List Char) (fault : YamlFault) : Prop :=
  fault.isOfText = true ∨ (fault = .characterNumber ∧ HoldsLongEscape cs) ∨
    fault = .tooManyGroups ∨
    (fault ∈ [.truth, .emptyNumber, .timestamp, .timestampKind] ∧ '!' ∈ cs)

section Documents

variable {cs : List Char}

theorem EndsScan.endsReading {fault : YamlFault} (h : EndsScan cs fault) :
    EndsReading cs fault := by
  rcases h with h | h
  · exact .inl h
  · exact .inr (.inl h)

theorem endsReading_malformed : EndsReading cs .malformed :=
  .inl rfl

/-- Where a tag may be written, all faults of scalars are possible. -/
theorem ScalarFault.endsReading {tag : Tag} {text : String} {fault : YamlFault}
    (h : ScalarFault tag text fault) (hsign : '!' ∈ cs) : EndsReading cs fault := by
  rcases h with h | h | h
  · exact .inl h
  · exact .inr (.inr (.inl h))
  · refine .inr (.inr (.inr ⟨?_, hsign⟩))
    cases h <;> decide

theorem yields_atomValue {n : Node} (fuel : Nat) (hn : n.FitsIn cs)
    (hatom : n.tag.isCollection = false) :
    Yields (EndsReading cs) (fun _ => True) (atomValue fuel n) := by
  unfold atomValue
  cases hn with
  | tagged hsign =>
      split
      next => exact .error endsReading_malformed
      next => exact .error (.inr (.inr (.inr ⟨by decide, hsign⟩)))
      next => exact (yields_scalarValue _ _).mono fun _ h => h.endsReading hsign
  | @plain text hlast =>
      rw [text?]
      refine (yields_scalarValue (implicitTag text) text).mono fun fault h => ?_
      rcases h with h | h | h
      · exact .inl h
      · exact .inr (.inr (.inl h))
      · exact absurd h (not_misfit_implicitTag hlast)
  | @quoted text =>
      rw [text?]
      show Yields (EndsReading cs) (fun _ => True) (.ok (Value.text text))
      exact .ok trivial
  | sequence => cases hatom
  | mapping => cases hatom

/-- Entries whose nodes can come from a text. -/
def EntriesFitIn (cs : List Char) (entries : List (Node × Node)) : Prop :=
  ∀ e ∈ entries, e.1.FitsIn cs ∧ e.2.FitsIn cs

theorem Node.FitsIn.items {tag : Tag} {items : List Node}
    (h : (Node.sequence tag items).FitsIn cs) : ∀ n ∈ items, n.FitsIn cs := by
  cases h with
  | tagged hsign => exact fun n _ => .tagged hsign
  | sequence hitems => exact hitems

theorem Node.FitsIn.entries {tag : Tag} {entries : List (Node × Node)}
    (h : (Node.mapping tag entries).FitsIn cs) : EntriesFitIn cs entries := by
  cases h with
  | tagged hsign => exact fun e _ => ⟨.tagged hsign, .tagged hsign⟩
  | mapping hkeys hvalues => exact fun e he => ⟨hkeys e he, hvalues e he⟩

theorem EntriesFitIn.append {es fs : List (Node × Node)} (hes : EntriesFitIn cs es)
    (hfs : EntriesFitIn cs fs) : EntriesFitIn cs (es ++ fs) := by
  intro e he
  rcases List.mem_append.mp he with he | he
  · exact hes e he
  · exact hfs e he

/-- Merging gives nodes of the text only. -/
theorem yields_flatten (fuel : Nat) {entries : List (Node × Node)}
    (h : EntriesFitIn cs entries) :
    Yields (EndsReading cs) (EntriesFitIn cs) (flatten fuel entries) := by
  induction fuel generalizing entries with
  | zero => exact .error endsReading_malformed
  | succ fuel ih =>
      rw [flatten]
      apply Yields.bind (Q := fun parts => ∀ p ∈ parts, EntriesFitIn cs p.1 ∧ EntriesFitIn cs p.2)
      case hf =>
        intro parts hparts
        refine .pure (EntriesFitIn.append ?_ ?_)
        all_goals
          intro e he
          obtain ⟨p, hp, he⟩ := List.mem_flatMap.mp he
        · exact (hparts p hp).1 e he
        · exact (hparts p hp).2 e he
      apply Yields.mapM
      rintro ⟨key, value⟩ he
      have hnone : EntriesFitIn cs [] := fun e he => absurd he List.not_mem_nil
      obtain ⟨hkey, hvalue⟩ := h _ he
      dsimp only
      split
      next =>
        refine .pure ⟨hnone, fun e he => ?_⟩
        rw [List.mem_singleton.mp he]
        exact ⟨.quoted, hvalue⟩
      next =>
        refine Yields.ite (.pure ⟨hnone, fun e he => ?_⟩) ?_
        · rw [List.mem_singleton.mp he]
          exact ⟨hkey, hvalue⟩
        split
        next => exact (ih hvalue.entries).bind fun es hes => .pure ⟨hes, hnone⟩
        next items =>
          apply Yields.bind (Q := fun each => ∀ es ∈ each, EntriesFitIn cs es)
          case hx =>
            apply Yields.mapM
            intro item hitem
            split
            · exact ih (hvalue.items _ hitem).entries
            · exact .error endsReading_malformed
          intro each heach
          refine .pure ⟨fun e he => ?_, hnone⟩
          obtain ⟨es, hes, he⟩ := List.mem_flatten.mp he
          exact heach es (List.mem_reverse.mp hes) e he
        next => exact .error endsReading_malformed

/-- The content of a collection that can come from a text. -/
def Content.FitsIn (cs : List Char) : Content → Prop
  | .items nodes => ∀ n ∈ nodes, n.FitsIn cs
  | .entries pairs _ => EntriesFitIn cs pairs

theorem yields_singles {items : List Node} (h : ∀ n ∈ items, n.FitsIn cs) :
    Yields (EndsReading cs) (Content.FitsIn cs) (content.singles items) := by
  apply Yields.bind (Q := EntriesFitIn cs)
  case hf => exact fun pairs hpairs => .pure hpairs
  apply Yields.mapM
  intro item hitem
  split
  · exact .ok ((h _ hitem).entries _ List.mem_cons_self)
  · exact .error endsReading_malformed

theorem yields_content (fuel : Nat) {n : Node} (hn : n.FitsIn cs) :
    Yields (EndsReading cs) (Content.FitsIn cs) (content fuel n) := by
  unfold content
  split
  next => exact .ok hn.items
  next => exact (yields_flatten fuel hn.entries).bind fun es hes => .pure hes
  next => exact (yields_flatten fuel hn.entries).bind fun es hes => .pure hes
  next => exact yields_singles hn.items
  next => exact yields_singles hn.items
  next => exact .error endsReading_malformed

theorem yields_checkHead (fuel : Nat) {n : Node} (hn : n.FitsIn cs) :
    Yields (EndsReading cs) (fun ns => ∀ m ∈ ns, m.FitsIn cs) (checkHead fuel n) := by
  unfold checkHead
  split
  next =>
    refine .ok fun m hm => ?_
    rw [List.mem_singleton.mp hm]
    exact hn
  next hatom =>
    refine (yields_atomValue fuel hn (Bool.eq_false_iff.mpr hatom)).bind fun _ _ => .pure ?_
    exact fun m hm => absurd hm List.not_mem_nil

theorem fitsIn_of_mem_flatten {each : List (List Node)}
    (h : ∀ ns ∈ each, ∀ m ∈ ns, m.FitsIn cs) : ∀ m ∈ each.flatten, m.FitsIn cs := by
  intro m hm
  obtain ⟨ns, hns, hm⟩ := List.mem_flatten.mp hm
  exact h ns hns m hm

theorem yields_checkContent (fuel : Nat) {n : Node} (hn : n.FitsIn cs) :
    Yields (EndsReading cs) (fun ns => ∀ m ∈ ns, m.FitsIn cs) (checkContent fuel n) := by
  refine (yields_content fuel hn).bind fun held hheld => ?_
  cases held with
  | items nodes =>
      refine (Yields.mapM fun m hm => yields_checkHead fuel (hheld m hm)).bind ?_
      exact fun each heach => .pure (fitsIn_of_mem_flatten heach)
  | entries pairs keyed =>
      apply Yields.bind (Q := fun each => ∀ ns ∈ each, ∀ m ∈ ns, m.FitsIn cs)
      case hf => exact fun each heach => .pure (fitsIn_of_mem_flatten heach)
      apply Yields.mapM
      rintro ⟨key, value⟩ he
      obtain ⟨hkey, hvalue⟩ := hheld _ he
      refine (yields_checkHead fuel hkey).bind fun first hfirst => ?_
      refine Yields.ite (.error endsReading_malformed) ?_
      refine (yields_checkHead fuel hvalue).bind fun second hsecond => .pure fun m hm => ?_
      rcases List.mem_append.mp hm with hm | hm
      · exact hfirst m hm
      · exact hsecond m hm

theorem yields_checkLevels (depth fuel : Nat) {nodes : List Node}
    (h : ∀ n ∈ nodes, n.FitsIn cs) :
    Yields (EndsReading cs) (fun _ => True) (checkLevels depth fuel nodes) := by
  induction fuel generalizing nodes with
  | zero =>
      cases nodes with
      | nil => exact .ok trivial
      | cons => exact .error endsReading_malformed
  | succ fuel ih =>
      cases nodes with
      | nil => exact .ok trivial
      | cons n rest =>
          refine (Yields.mapM fun m hm => yields_checkContent depth (h m hm)).bind ?_
          exact fun inner hinner => ih (fitsIn_of_mem_flatten hinner)

theorem yields_value (depth fuel : Nat) {n : Node} (hn : n.FitsIn cs) :
    Yields (EndsReading cs) (fun _ => True) (value depth fuel n) := by
  induction fuel generalizing n with
  | zero => exact .error endsReading_malformed
  | succ fuel ih =>
      rw [value]
      split
      next hatom =>
        exact yields_atomValue depth hn (by simpa using hatom)
      next =>
        refine (yields_content depth hn).bind fun held hheld => ?_
        cases held with
        | items nodes =>
            refine (Yields.mapM fun m hm => ih (hheld m hm)).bind fun _ _ => .pure trivial
        | entries pairs keyed =>
            apply Yields.bind (Q := fun found : List (Value × Value) => ∀ e ∈ found, True)
            case hx =>
              apply Yields.mapM
              intro e he
              refine (ih (hheld e he).1).bind fun k _ => ?_
              exact (ih (hheld e he).2).bind fun v _ => .pure trivial
            intro pairs _
            split <;> exact .pure trivial

/-- Why a text can have no value. -/
theorem endsReading_of_read {text : String} {fault : YamlFault} (h : read text = .error fault) :
    EndsReading text.toList fault := by
  suffices hyields : Yields (EndsReading text.toList) (fun _ => True) (read text) from
    hyields.2 fault h
  apply Yields.bind (Q := fun found => ∀ n, found = some n → n.FitsIn text.toList)
  case hx =>
    exact ⟨fun found hfound n hn => Node.fitsIn_of_ofString (hn ▸ hfound),
      fun fault hfault => (Node.endsScan_of_ofString hfault).endsReading⟩
  intro found hfound
  cases found with
  | none => exact .pure trivial
  | some root =>
      have hroot := hfound root rfl
      refine (yields_checkHead _ hroot).bind fun nodes hnodes => ?_
      exact (yields_checkLevels _ _ hnodes).bind fun _ _ => yields_value _ _ hroot

end Documents

end Yaml

/-! ## The readers -/

namespace Readers

/-- What a text has to be like for the reader of YAML files to break down on it. -/
def BreaksOn (text : String) (cause : Breakdown) : Prop :=
  (cause = .overflow ∧ (Yaml.HoldsLongEscape text.toList ∨
    Yaml.read text = .error .tooManyGroups)) ∨
  (cause ∈ [.lookup, .index, .attribute, .kind] ∧ '!' ∈ text.toList)

theorem breaksOn_of_ofYaml {content : Text.Bytes} {cause : Breakdown}
    (h : ofYaml content = .error (.breakdown cause)) :
    ∃ text, yamlText content = .ok text ∧ BreaksOn text cause := by
  unfold ofYaml at h
  split at h
  next => cases h
  next text htext =>
    refine ⟨text, htext, ?_⟩
    cases hread : Yaml.read text with
    | ok v =>
        rw [hread] at h
        cases h
    | error fault =>
        rw [hread] at h
        have hfault : fault.toReaderFault = .breakdown cause := Except.error.inj h
        rcases Yaml.endsReading_of_read hread with hblame | ⟨rfl, hescape⟩ | rfl | ⟨htag, hsign⟩
        · rw [YamlFault.isOfText, hfault] at hblame
          cases hblame
        · cases hfault
          exact .inl ⟨rfl, .inl hescape⟩
        · cases hfault
          exact .inl ⟨rfl, .inr hread⟩
        · refine .inr ⟨?_, hsign⟩
          simp only [List.mem_cons, List.not_mem_nil, or_false] at htag
          rcases htag with rfl | rfl | rfl | rfl <;> cases hfault <;> decide

theorem ofToml_ne_breakdown (content : Text.Bytes) (cause : Breakdown) :
    ofToml content ≠ .error (.breakdown cause) := by
  intro h
  unfold ofToml at h
  split at h
  next => cases h
  next text _ =>
    cases hread : Toml.read text with
    | ok document =>
        rw [hread] at h
        cases h
    | error fault =>
        rw [hread] at h
        cases fault <;> cases h

end Readers

end DeadSymbols
