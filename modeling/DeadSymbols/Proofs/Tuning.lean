import Mathlib
import DeadSymbols.CommandLine.Arguments

/-!
# Options that tune a run

The number of workers, the log level and the request for counts change how a run goes
about its work, not what it is asked.  `essential` leaves them out of a command line,
each with the word that it takes as its value.  Two accepted command lines that differ
in such options only ask for the same (`request_of_essential_eq`).

Accepted command lines have a grammar, `AsksFor`: options, each of which gets one value
(`Sets`), and among them one path, with or without a separator next to it.  Words that
mean nothing are refused in the end, so the reading accepts what the grammar derives and
nothing else (`readWords_eq_run_iff`).  Leaving out options that tune a run is a walk
through the derivation (`AsksFor.essential`).

## Main results

* `readWords_eq_run_iff` — accepted command lines.
* `AsksFor.essential` — the essential words of one ask for the same.
* `request_of_essential_eq` — so do two with the same essential words.
-/

namespace DeadSymbols.CommandLine

/-! ## Tuning -/

/-- Whether an option changes only how a run goes about its work. -/
def Flag.tunes : Flag → Bool
  | .jobs | .logLevel | .summary => true
  | .help | .config | .sourceRoot | .version => false

/-- Whether a word is an option that tunes a run. -/
def Word.tunes : Word → Bool
  | .long flag _ | .short flag _ => flag.tunes
  | .operand _ | .separator | .unknown _ => false

/-- The number of words after it that a word takes as its value. -/
def Word.taken : Word → Nat
  | .long flag none | .short flag [] => if flag.takesValue then 1 else 0
  | _ => 0

/-- The words without the options that tune a run. -/
def essential : List Word → List Word
  | [] => []
  | w :: rest => if w.tunes then essential (rest.drop w.taken) else w :: essential rest
termination_by ws => ws.length
decreasing_by
  all_goals simp only [List.length_cons, List.length_drop]
  all_goals omega

/-- The options without those that tune a run. -/
def Options.untuned (o : Options) : Options :=
  { Options.unset with config := o.config, sourceRoot := o.sourceRoot }

@[simp]
theorem essential_nil : essential [] = [] := by
  rw [essential]

theorem essential_of_tunes {w : Word} (h : w.tunes = true) (rest : List Word) :
    essential (w :: rest) = essential (rest.drop w.taken) := by
  rw [essential, if_pos h]

theorem essential_of_not_tunes {w : Word} (h : w.tunes = false) (rest : List Word) :
    essential (w :: rest) = w :: essential rest := by
  rw [essential, if_neg (by simp [h])]

@[simp]
theorem essential_operand (text : String) (rest : List Word) :
    essential (.operand text :: rest) = .operand text :: essential rest :=
  essential_of_not_tunes rfl rest

@[simp]
theorem essential_separator (rest : List Word) :
    essential (.separator :: rest) = .separator :: essential rest :=
  essential_of_not_tunes rfl rest

/-! ## One option -/

/-- A word, before others, gives an option a value. -/
inductive Sets : Word → List Word → Flag → String → Prop
  | bare {flag : Flag} {rest : List Word} :
      flag.takesValue = false → Sets (.long flag none) rest flag ""
  | assigned {flag : Flag} {value : String} {rest : List Word} :
      flag.takesValue = true → Sets (.long flag (some value)) rest flag value
  | next {flag : Flag} {value : String} {rest : List Word} :
      flag.takesValue = true → Sets (.long flag none) (.operand value :: rest) flag value
  | shortNext {flag : Flag} {value : String} {rest : List Word} :
      flag.takesValue = true → Sets (.short flag []) (.operand value :: rest) flag value
  | shortAssigned {flag : Flag} {value : List Char} {rest : List Word} :
      flag.takesValue = true →
        Sets (.short flag ('=' :: value)) rest flag (String.ofList value)
  | attached {flag : Flag} {c : Char} {value : List Char} {rest : List Word} :
      flag.takesValue = true → c ≠ '=' →
        Sets (.short flag (c :: value)) rest flag (String.ofList (c :: value))

namespace Sets

variable {w : Word} {rest : List Word} {flag : Flag} {value : String}

theorem tunes_eq (h : Sets w rest flag value) : w.tunes = flag.tunes := by
  cases h <;> rfl

/-- An option that is kept has the same value among the essential words, and they go on
after it as the words do. -/
theorem essential (h : Sets w rest flag value) :
    Sets w (essential rest) flag value ∧
      CommandLine.essential (rest.drop w.taken) =
        (CommandLine.essential rest).drop w.taken := by
  cases h with
  | bare h => exact ⟨.bare h, by simp [Word.taken, h]⟩
  | assigned h => exact ⟨.assigned h, by simp [Word.taken]⟩
  | next h => exact ⟨essential_operand _ _ ▸ .next h, by simp [Word.taken, h]⟩
  | shortNext h => exact ⟨essential_operand _ _ ▸ .shortNext h, by simp [Word.taken, h]⟩
  | shortAssigned h => exact ⟨.shortAssigned h, by simp [Word.taken]⟩
  | attached h hc => exact ⟨.attached h hc, by simp [Word.taken]⟩

/-- The reading goes on after the words that the option took. -/
theorem readWords_eq (h : Sets w rest flag value) {path : Option String}
    {extras : List String} {o o' : Options} (happly : apply o flag value = .ok (.inr o')) :
    readWords path extras o (w :: rest) =
      readWords path extras o' (rest.drop w.taken) := by
  have hall : applyAll o [(flag, value)] = .ok (.inr o') := by
    simp only [applyAll, happly]
    rfl
  cases h <;> rw [readWords]
  case bare h | next h => simp [alone, h, hall, Word.taken, bind, Except.bind]
  case assigned h => simp [CommandLine.assigned, h, hall, Word.taken, bind, Except.bind]
  case shortNext h => simp [cluster, alone, h, hall, Word.taken, bind, Except.bind]
  case shortAssigned h =>
    simp [cluster, CommandLine.assigned, h, hall, Word.taken, bind, Except.bind]
  case attached hc h =>
    simp [cluster, h, hall, Word.taken, bind, Except.bind, -String.ofList_cons]

end Sets

/-- An option that asks for information ends the reading. -/
theorem apply_eq_inl {o : Options} {flag : Flag} {value : String} {r : Request}
    (h : apply o flag value = .ok (.inl r)) : r = .help ∨ r = .version := by
  cases flag <;> simp only [apply] at h
  case help => cases h; exact .inl rfl
  case version => cases h; exact .inr rfl
  case jobs => split at h <;> cases h
  all_goals cases h

/-- The short options are those that there are. -/
def Word.IsProper : Word → Prop
  | .short flag _ => flag = .help ∨ flag = .jobs
  | .operand _ | .separator | .long _ _ | .unknown _ => True

theorem isProper_of_shortFlag {c : Char} {flag : Flag} (h : shortFlag? c = some flag)
    (attached : List Char) : (Word.short flag attached).IsProper := by
  have hmem : (String.ofList ['-', c], flag) ∈ spellings := by
    obtain ⟨before, after, hsplit, _⟩ := List.lookup_eq_some_iff.1 h
    rw [hsplit]
    exact List.mem_append_right _ List.mem_cons_self
  have hshort : ∀ spelling ∈ spellings, spelling.1.toList.length = 2 →
      spelling.2 = .help ∨ spelling.2 = .jobs := by
    decide
  exact hshort _ hmem (by simp)

variable {path : Option String} {extras : List String} {o o₁ : Options} {p : String}
  {rest : List Word}

/-- One option is set, and the reading goes on. -/
theorem exists_apply_of_bind {flag : Flag} {value : String} {sets : List (Flag × String)}
    {next : Request ⊕ Options → Except Misuse Request}
    (hnext : ∀ r, next (.inl r) = .ok r)
    (h : (applyAll o ((flag, value) :: sets) >>= next) = .ok (.run p o₁)) :
    ∃ o', apply o flag value = .ok (.inr o') ∧
      (applyAll o' sets >>= next) = .ok (.run p o₁) := by
  cases happly : apply o flag value with
  | error misuse =>
      simp only [applyAll, happly] at h
      cases h
  | ok result =>
      cases result with
      | inr o' =>
          simp only [applyAll, happly] at h
          exact ⟨o', rfl, h⟩
      | inl r =>
          simp only [applyAll, happly] at h
          have hrun : (.ok r : Except Misuse Request) = .ok (.run p o₁) :=
            (hnext r).symm.trans h
          cases hrun
          rcases apply_eq_inl happly with h | h <;> cases h

/-- The value of an option to which nothing is attached is the next word. -/
theorem sets_of_alone {flag : Flag} {e : Effect} (h : alone flag rest = .ok e) :
    ∃ value, e = ⟨[(flag, value)], (Word.long flag none).taken, none⟩ ∧
      Sets (.long flag none) rest flag value := by
  unfold alone at h
  split at h
  · next htakes =>
      split at h
      · cases h
        exact ⟨_, by simp [Word.taken, htakes], .next htakes⟩
      · cases h
  · next htakes =>
      have hnone : flag.takesValue = false := by simpa using htakes
      cases h
      exact ⟨"", by simp [Word.taken, hnone], .bare hnone⟩

theorem sets_of_assigned (rest : List Word) {flag : Flag} {value : String} {e : Effect}
    (h : assigned flag value = .ok e) :
    e = ⟨[(flag, value)], 0, none⟩ ∧ Sets (.long flag (some value)) rest flag value := by
  unfold assigned at h
  split at h
  · next htakes =>
      cases h
      exact ⟨rfl, .assigned htakes⟩
  · cases h

/-- What is attached to a short option with a value is the value. -/
theorem sets_of_cluster {flag : Flag} (htakes : flag.takesValue = true)
    {attached : List Char} {e : Effect} (h : cluster rest flag attached = .ok e) :
    ∃ value, e = ⟨[(flag, value)], (Word.short flag attached).taken, none⟩ ∧
      Sets (.short flag attached) rest flag value := by
  unfold cluster at h
  split at h
  · obtain ⟨value, rfl, hsets⟩ := sets_of_alone h
    cases hsets with
    | bare hnone => simp [htakes] at hnone
    | next _ => exact ⟨value, rfl, .shortNext htakes⟩
  · obtain ⟨rfl, _⟩ := sets_of_assigned rest h
    exact ⟨_, rfl, .shortAssigned htakes⟩
  · next c value hc =>
      simp only [htakes, if_true] at h
      cases h
      exact ⟨_, rfl, .attached htakes fun heq => hc heq⟩

/-- A short option that asks for help does so whatever is attached to it. -/
theorem cluster_help {attached : List Char} {e : Effect}
    (h : cluster rest .help attached = .ok e) :
    ∃ sets taken extra, e = ⟨(.help, "") :: sets, taken, extra⟩ := by
  unfold cluster at h
  split at h
  · cases h
    exact ⟨[], 0, _, rfl⟩
  · cases h
  · simp only [Flag.takesValue, Bool.false_eq_true, if_false] at h
    split at h
    · cases h
    · split at h
      · cases h
        exact ⟨[], 0, _, rfl⟩
      · next next _ =>
          cases hnext : cluster rest next _ with
          | error misuse =>
              rw [hnext] at h
              cases h
          | ok e' =>
              rw [hnext] at h
              cases h
              exact ⟨e'.sets, e'.taken, e'.extra, rfl⟩

/-- A long option of an accepted command line. -/
theorem exists_sets_of_long {flag : Flag} {value : Option String}
    (h : readWords path extras o (.long flag value :: rest) = .ok (.run p o₁)) :
    ∃ value' o', Sets (.long flag value) rest flag value' ∧
      apply o flag value' = .ok (.inr o') ∧
      readWords path extras o' (rest.drop (Word.long flag value).taken) = .ok (.run p o₁) := by
  cases value with
  | some value =>
      rw [readWords] at h
      cases heffect : assigned flag value with
      | error misuse =>
          rw [heffect] at h
          cases h
      | ok e =>
          rw [heffect] at h
          obtain ⟨rfl, hsets⟩ := sets_of_assigned rest heffect
          obtain ⟨o', happly, hrest⟩ := exists_apply_of_bind (fun r => rfl) h
          exact ⟨value, o', hsets, happly, hrest⟩
  | none =>
      rw [readWords] at h
      cases heffect : alone flag rest with
      | error misuse =>
          rw [heffect] at h
          cases h
      | ok e =>
          rw [heffect] at h
          obtain ⟨value, rfl, hsets⟩ := sets_of_alone heffect
          obtain ⟨o', happly, hrest⟩ := exists_apply_of_bind (fun r => rfl) h
          exact ⟨value, o', hsets, happly, hrest⟩

/-- A short option of an accepted command line. -/
theorem exists_sets_of_short {flag : Flag} {attached : List Char}
    (hproper : (Word.short flag attached).IsProper)
    (h : readWords path extras o (.short flag attached :: rest) = .ok (.run p o₁)) :
    ∃ value o', Sets (.short flag attached) rest flag value ∧
      apply o flag value = .ok (.inr o') ∧
      readWords path extras o' (rest.drop (Word.short flag attached).taken) =
        .ok (.run p o₁) := by
  rw [readWords] at h
  cases heffect : cluster rest flag attached with
  | error misuse =>
      rw [heffect] at h
      cases h
  | ok e =>
      rw [heffect] at h
      rcases hproper with rfl | rfl
      · obtain ⟨sets, taken, extra, rfl⟩ := cluster_help heffect
        have hhelp : (.ok .help : Except Misuse Request) = .ok (.run p o₁) := h
        cases hhelp
      · obtain ⟨value, rfl, hsets⟩ := sets_of_cluster rfl heffect
        obtain ⟨o', happly, hrest⟩ := exists_apply_of_bind (fun r => rfl) h
        have hsame : extras ++ (none : Option String).toList = extras := List.append_nil extras
        exact ⟨value, o', hsets, happly, hsame ▸ hrest⟩

/-! ## Accepted command lines -/

/-- Words that, after the path and the options so far, make an accepted command line. -/
inductive AsksFor (p : String) (o₁ : Options) : Option String → Options → List Word → Prop
  | done : AsksFor p o₁ (some p) o₁ []
  | option {path : Option String} {o o' : Options} {w : Word} {rest : List Word}
      {flag : Flag} {value : String} :
      Sets w rest flag value → apply o flag value = .ok (.inr o') →
        AsksFor p o₁ path o' (rest.drop w.taken) → AsksFor p o₁ path o (w :: rest)
  | path {o : Options} {text : String} {rest : List Word} :
      AsksFor p o₁ (some text) o rest → AsksFor p o₁ none o (.operand text :: rest)
  | pathBefore {o : Options} {text : String} {rest : List Word} :
      AsksFor p o₁ (some text) o rest →
        AsksFor p o₁ none o (.operand text :: .separator :: rest)
  | pathAfter {o : Options} {text : String} {rest : List Word} :
      AsksFor p o₁ (some text) o rest →
        AsksFor p o₁ none o (.separator :: .operand text :: rest)

namespace AsksFor

variable {words : List Word}

/-- After the path no separator stands. -/
theorem afterSeparator_eq {text : String} (h : AsksFor p o₁ (some text) o words) :
    afterSeparator words = words := by
  cases h with
  | done => rfl
  | option hsets _ _ => cases hsets <;> rfl

theorem readWords_eq (h : AsksFor p o₁ path o words) :
    readWords path [] o words = .ok (.run p o₁) := by
  induction h with
  | done => rw [readWords]; rfl
  | option hsets happly _ ih => rw [hsets.readWords_eq happly, ih]
  | path hrest ih => rw [readWords, if_neg (by simp), hrest.afterSeparator_eq, ih]
  | pathBefore _ ih => rw [readWords, if_neg (by simp), afterSeparator, ih]
  | pathAfter _ ih => rw [readWords, if_neg (by simp), ih]

end AsksFor

theorem afterSeparator_cases (words : List Word) :
    afterSeparator words = words ∨ words = .separator :: afterSeparator words := by
  unfold afterSeparator
  split
  · exact .inr rfl
  · exact .inl rfl

/-- Nothing is left over in an accepted command line, so it is of the grammar. -/
theorem asksFor_of_readWords {words : List Word} (hproper : ∀ w ∈ words, w.IsProper)
    (h : readWords path extras o words = .ok (.run p o₁)) :
    extras = [] ∧ AsksFor p o₁ path o words := by
  induction path, extras, o, words using readWords.induct with
  | case1 extras o =>
      rw [readWords] at h
      cases h
  | case2 extras o p' hempty =>
      rw [readWords, if_pos hempty] at h
      cases h
      exact ⟨List.isEmpty_iff.1 hempty, .done⟩
  | case3 extras o p' hextras =>
      rw [readWords, if_neg hextras] at h
      cases h
  | case4 path extras o flag rest _ ih | case5 path extras o flag rest ih =>
      obtain ⟨hword, hwords⟩ := List.forall_mem_cons.1 hproper
      obtain ⟨value, o', hsets, happly, hrest⟩ := exists_sets_of_long h
      obtain ⟨hnil, hasks⟩ := ih ⟨[], _, none⟩ o'
        (fun w hw => hwords w (List.mem_of_mem_drop hw)) hrest
      exact ⟨hnil, .option hsets happly hasks⟩
  | case6 path extras o flag attached rest ih =>
      obtain ⟨hword, hwords⟩ := List.forall_mem_cons.1 hproper
      obtain ⟨value, o', hsets, happly, hrest⟩ := exists_sets_of_short hword h
      obtain ⟨hnil, hasks⟩ := ih ⟨[], _, none⟩ o'
        (fun w hw => hwords w (List.mem_of_mem_drop hw)) (by simpa using hrest)
      exact ⟨by simpa using hnil, .option hsets happly hasks⟩
  | case7 path extras o text rest ih =>
      rw [readWords] at h
      have hnil := (ih (List.forall_mem_cons.1 hproper).2 h).1
      simp at hnil
  | case8 path extras o text rest hpath ih | case10 path extras o text rest hpath ih =>
      rw [readWords, if_pos hpath] at h
      have hnil := (ih (List.forall_mem_cons.1 hproper).2 h).1
      simp at hnil
  | case9 path extras o text rest hpath ih =>
      obtain rfl := Option.not_isSome_iff_eq_none.1 hpath
      rw [readWords, if_neg hpath] at h
      have hwords := (List.forall_mem_cons.1 hproper).2
      rcases afterSeparator_cases rest with hsame | hseparator
      · rw [hsame] at h ih
        obtain ⟨hnil, hasks⟩ := ih hwords h
        exact ⟨hnil, .path hasks⟩
      · rw [hseparator] at hwords
        obtain ⟨hnil, hasks⟩ := ih (List.forall_mem_cons.1 hwords).2 h
        rw [hseparator]
        exact ⟨hnil, .pathBefore hasks⟩
  | case11 path extras o text rest hpath ih =>
      obtain rfl := Option.not_isSome_iff_eq_none.1 hpath
      rw [readWords, if_neg hpath] at h
      have hwords := (List.forall_mem_cons.1 hproper).2
      obtain ⟨hnil, hasks⟩ := ih (List.forall_mem_cons.1 hwords).2 h
      exact ⟨hnil, .pathAfter hasks⟩
  | case12 path extras o rest hnotOperand ih =>
      rw [readWords] at h
      · have hnil := (ih (List.forall_mem_cons.1 hproper).2 h).1
        simp at hnil
      · exact hnotOperand

/-- A reading accepts what the grammar derives, and nothing else. -/
theorem readWords_eq_run_iff {words : List Word} (hproper : ∀ w ∈ words, w.IsProper) :
    readWords path [] o words = .ok (.run p o₁) ↔ AsksFor p o₁ path o words :=
  ⟨fun h => (asksFor_of_readWords hproper h).2, fun h => h.readWords_eq⟩

/-! ## Leaving out what tunes -/

section Untuned

variable {o' : Options} {flag : Flag} {value : String}

theorem untuned_of_apply (htunes : flag.tunes = true)
    (h : apply o flag value = .ok (.inr o')) : o'.untuned = o.untuned := by
  cases flag <;> simp only [apply] at h
  case jobs => split at h <;> cases h; rfl
  case logLevel | summary => cases h; rfl
  all_goals cases htunes

theorem apply_untuned (htunes : flag.tunes = false)
    (h : apply o flag value = .ok (.inr o')) :
    apply o.untuned flag value = .ok (.inr o'.untuned) := by
  cases flag <;> simp only [apply] at h
  case config | sourceRoot => cases h; rfl
  case help | version => cases h
  all_goals cases htunes

end Untuned

/-- The essential words ask for the same path, configuration and source root. -/
theorem AsksFor.essential {words : List Word} (h : AsksFor p o₁ path o words) :
    AsksFor p o₁.untuned path o.untuned (essential words) := by
  induction h with
  | done =>
      rw [essential_nil]
      exact .done
  | @option path o o' w rest flag value hsets happly _ ih =>
      cases htunes : flag.tunes with
      | true =>
          rw [essential_of_tunes (hsets.tunes_eq.trans htunes),
            ← untuned_of_apply htunes happly]
          exact ih
      | false =>
          obtain ⟨hkept, hdrop⟩ := hsets.essential
          rw [essential_of_not_tunes (hsets.tunes_eq.trans htunes)]
          exact .option hkept (apply_untuned htunes happly) (hdrop ▸ ih)
  | path _ ih => exact essential_operand _ _ ▸ .path ih
  | pathBefore _ ih =>
      rw [essential_operand, essential_separator]
      exact .pathBefore ih
  | pathAfter _ ih =>
      rw [essential_separator, essential_operand]
      exact .pathAfter ih

/-! ## From arguments -/

theorem isProper_withoutOption (argument : String) : (withoutOption argument).IsProper := by
  unfold withoutOption
  split <;> trivial

theorem isProper_of_classify {argument : String} {w : Word}
    (h : classify argument = .ok w) : w.IsProper := by
  unfold classify at h
  split at h
  · simp only at h
    split at h
    all_goals cases h
    · trivial
    · exact isProper_withoutOption argument
    · trivial
  · split at h
    · next hflag =>
        cases h
        exact isProper_of_shortFlag hflag _
    · cases h
      exact isProper_withoutOption argument
  · cases h
    trivial

theorem isProper_of_wordsOf {arguments : List String} {words : List Word}
    (h : wordsOf arguments = .ok words) : ∀ w ∈ words, w.IsProper := by
  fun_induction wordsOf arguments generalizing words with
  | case1 =>
      cases h
      nofun
  | case2 rest =>
      cases h
      intro w hw
      rcases List.mem_cons.1 hw with rfl | hw
      · trivial
      · obtain ⟨text, _, rfl⟩ := List.mem_map.1 hw
        trivial
  | case3 argument rest _ ih =>
      cases hclassify : classify argument with
      | error misuse =>
          rw [hclassify] at h
          cases h
      | ok w =>
          cases hrest : wordsOf rest with
          | error misuse =>
              rw [hclassify, hrest] at h
              cases h
          | ok ws =>
              rw [hclassify, hrest] at h
              cases h
              exact List.forall_mem_cons.2 ⟨isProper_of_classify hclassify, ih hrest⟩

/-- The words of a command line that do not tune the run. -/
def essentialWords (arguments : List String) : Except Misuse (List Word) :=
  (wordsOf arguments).map CommandLine.essential

theorem asksFor_of_request {arguments : List String}
    (h : request arguments = .ok (.run p o)) :
    ∃ words, wordsOf arguments = .ok words ∧ AsksFor p o none .unset words := by
  unfold request at h
  cases hwords : wordsOf arguments with
  | error misuse =>
      rw [hwords] at h
      cases h
  | ok words =>
      rw [hwords] at h
      exact ⟨words, rfl, (readWords_eq_run_iff (isProper_of_wordsOf hwords)).1 h⟩

/-- Accepted command lines with the same essential words ask for the same path,
configuration and source root. -/
theorem request_of_essential_eq {arguments arguments' : List String} {p' : String}
    {o' : Options} (hsame : essentialWords arguments = essentialWords arguments')
    (h : request arguments = .ok (.run p o)) (h' : request arguments' = .ok (.run p' o')) :
    p = p' ∧ o.untuned = o'.untuned := by
  obtain ⟨words, hwords, hasks⟩ := asksFor_of_request h
  obtain ⟨words', hwords', hasks'⟩ := asksFor_of_request h'
  have hessential : essential words = essential words' := by
    simpa [essentialWords, hwords, hwords', Except.map] using hsame
  have hread := hasks.essential.readWords_eq
  rw [hessential, hasks'.essential.readWords_eq] at hread
  have hrun := Request.run.inj (Except.ok.inj hread)
  exact ⟨hrun.1.symm, hrun.2.symm⟩

end DeadSymbols.CommandLine
