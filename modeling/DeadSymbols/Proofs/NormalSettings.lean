import Mathlib
import DeadSymbols.Proofs.CommandOutput
import DeadSymbols.Proofs.DumpEncoding
import DeadSymbols.Proofs.UpperCase

/-!
# Settings that were read are valid and normal

A document may spell a setting in many ways: a number of workers as a text, a policy in any
case, a command as one text or as a list, a directory as a number.  What is read from it
has one form.  Every text that a setting may lack is absent or not empty, the command has a
word, the log level is in upper case, and a document that writes the settings out again is
read as the same settings.  What is read depends on the entries under the keys of settings
alone, and not on their order or on the entries among which they stand.  Only what no key
says may depend on the number of processors.

## Main results

* `Value.display_ne_empty` — the text of a value that does not count as absent.
* `Settings.isNormal_of_ofValue`, `Settings.ofValue_written` — what is read is normal, and
  normal settings are read back.
* `Settings.ofValue_congr` — the questions on which the settings of a mapping depend.
-/

namespace DeadSymbols

/-! ## Texts that are not empty -/

namespace Double

theorem placed_ne_nil (digits : List Char) (point : Int) : placed digits point ≠ [] := by
  unfold placed
  split
  · split
    · exact List.cons_ne_nil _ _
    · split <;> simp
  · split <;> simp

theorem text_ne_empty (x : Double) : x.text ≠ "" := by
  cases x with
  | nan => decide
  | infinite negative => cases negative <;> decide
  | finite negative m e =>
      rw [text, ne_eq, String.ofList_eq_empty_iff]
      cases negative with
      | true => exact List.cons_ne_nil _ _
      | false =>
          by_cases hm : m = 0
          · simp [hm]
          · simpa [hm] using placed_ne_nil _ _

end Double

namespace Value

theorem toString_int_ne_empty (n : Int) : toString n ≠ "" := by
  cases n with
  | ofNat n =>
      show String.ofList (Nat.toDigits 10 n) ≠ ""
      rw [ne_eq, String.ofList_eq_empty_iff]
      exact Nat.toDigits_ne_nil
  | negSucc n =>
      show "-" ++ toString (n + 1) ≠ ""
      simp

theorem append_ne_empty (s : String) {t : String} (h : t ≠ "") : s ++ t ≠ "" := by
  intro hempty
  exact h (String.append_eq_empty_iff.mp hempty).2

theorem literal_ne_empty (v : Value) : v.literal ≠ "" := by
  unfold literal
  cases v with
  | null => decide
  | bool b => cases b <;> decide
  | int n => exact toString_int_ne_empty n
  | real x => exact x.text_ne_empty
  | text s => simp [Text.quoted, Text.quotedBy]
  | bytes content => simp [Text.quotedBytes]
  | set items =>
      dsimp only
      split
      · decide
      · exact append_ne_empty _ (by decide)
  | _ => exact append_ne_empty _ (by decide)

/-- A value that does not count as absent has a text. -/
theorem display_ne_empty {v : Value} (h : v.isFalsy = false) : v.display ≠ "" := by
  cases v with
  | text s => simpa [isFalsy, display] using h
  | date d => simp [display, Date.display]
  | clock t => simp [display, Clock.display]
  | moment m => simp [display, Moment.display]
  | _ => exact literal_ne_empty _

/-! ## Entries -/

theorem entry?_append (entries entries' : List (Value × Value)) (key : String) :
    entry? (entries ++ entries') key =
      (Value.entry? entries key).or (Value.entry? entries' key) := by
  fun_induction entry? entries key with
  | case1 => rfl
  | case2 v rest => simp
  | case3 k v rest hk ih => simpa [hk] using ih
  | case4 e rest he ih =>
      rw [List.cons_append, entry?, ih]
      exact he

/-- Two mappings hold the same entries under the keys, in whatever order and among whatever
other entries, and no such key has two values. -/
structure AgreeOn (keys : List String) (entries entries' : List (Value × Value)) : Prop where
  mem_iff : ∀ key ∈ keys, ∀ v, (.text key, v) ∈ entries ↔ (.text key, v) ∈ entries'
  single : ∀ key ∈ keys, ∀ v v', (.text key, v) ∈ entries → (.text key, v') ∈ entries → v = v'

theorem AgreeOn.entry?_eq {keys : List String} {entries entries' : List (Value × Value)}
    {key : String} (h : AgreeOn keys entries entries') (hkey : key ∈ keys) :
    entry? entries' key = entry? entries key := by
  by_cases hthere : ∃ v, (Value.text key, v) ∈ entries
  · obtain ⟨v, hv⟩ := hthere
    have hsingle : ∀ e ∈ entries, e.1 = .text key → e.2 = v := by
      rintro ⟨k, w⟩ he rfl
      exact h.single key hkey w v he hv
    rw [entry?_eq_some hv hsingle]
    apply entry?_eq_some ((h.mem_iff key hkey v).mp hv)
    rintro ⟨k, w⟩ he rfl
    exact hsingle _ ((h.mem_iff key hkey w).mpr he) rfl
  · have hnone : ∀ e ∈ entries, e.1 ≠ .text key := by
      rintro ⟨k, w⟩ he rfl
      exact hthere ⟨w, he⟩
    rw [entry?_eq_none hnone]
    apply entry?_eq_none
    rintro ⟨k, w⟩ he rfl
    exact hthere ⟨w, (h.mem_iff key hkey w).mpr he⟩

/-- The value under one of the fields of an object that holds nothing else. -/
theorem entry?_present {fields : List (String × Option Value)} {f : String × Option Value}
    (hkeys : (fields.map Prod.fst).Nodup) (hf : f ∈ fields) :
    entry? (present fields) f.1 = f.2 := by
  have hobject : (Value.map (present fields)).IsObject fields :=
    ⟨present fields, [], rfl, by simp, by simp⟩
  exact Except.ok.inj (hobject.answers hkeys f hf)

end Value

namespace Settings

open Session (exists_of_except_bind)

/-! ## What is read is normal -/

/-- Settings as reading leaves them. -/
structure IsNormal (s : Settings) : Prop where
  workers : 1 ≤ s.workers
  policy : Policy.ofName? s.policy.name = some s.policy
  sourceRoot : s.sourceRoot ≠ some ""
  logLevel : s.logLevel ≠ some ""
  upperCase : ∀ level ∈ s.logLevel, Text.upperCase level = level
  command : s.indexer.command ≠ []

theorem ofName?_name (p : Policy) : Policy.ofName? p.name = some p := by
  cases p <;> decide

theorem textOf_eq_ok {v : Value} {s : String} (h : textOf v = .ok s) : s = v.display := by
  unfold textOf at h
  split at h
  · exact (Except.ok.inj h).symm
  · cases h

/-- A setting that may be absent is absent, or its reader gave it for a value that does not
count as absent. -/
theorem exists_of_present {α : Type} {entries : Entries} {key : String}
    {reader : Value → Except SettingsFault α} {a : α}
    (h : (present? entries key).mapM reader = .ok (some a)) :
    ∃ v : Value, v.isFalsy = false ∧ reader v = .ok a := by
  cases hv : present? entries key with
  | none =>
      rw [hv] at h
      cases h
  | some v =>
      rw [hv] at h
      obtain ⟨b, hb, hreturn⟩ := exists_of_except_bind h
      cases hreturn
      have hthere := (Option.filter_eq_some_iff.mp hv).2
      exact ⟨v, by simpa using hthere, hb⟩

theorem ne_empty_of_present {entries : Entries} {key : String} {o : Option String}
    (h : (present? entries key).mapM textOf = .ok o) : o ≠ some "" := by
  rintro rfl
  obtain ⟨v, hv, htext⟩ := exists_of_present h
  exact Value.display_ne_empty hv (textOf_eq_ok htext).symm

theorem logLevelOf_eq_ok {v : Value} {level : String} (h : logLevelOf v = .ok level) :
    level = Text.upperCase v.display := by
  unfold logLevelOf textOf at h
  split at h
  · exact (Except.ok.inj h).symm
  · cases h

theorem ne_nil_of_mapM {items : List Value} {words : List String} (hitems : items ≠ [])
    (h : items.mapM textOf = .ok words) : words ≠ [] := by
  cases items with
  | nil => exact absurd rfl hitems
  | cons v rest =>
      rw [List.mapM_cons] at h
      obtain ⟨word, -, hrest⟩ := exists_of_except_bind h
      obtain ⟨words, -, hreturn⟩ := exists_of_except_bind hrest
      cases hreturn
      exact List.cons_ne_nil _ _

/-- A command that is read has a word. -/
theorem ne_nil_of_commandOf {v : Value} {words : List String} (h : commandOf v = .ok words) :
    words ≠ [] := by
  unfold commandOf at h
  split at h
  next s =>
    dsimp only at h
    split at h
    next => cases h
    next hwords =>
      cases h
      simpa using hwords
  next =>
    split at h
    next => cases h
    next hthere =>
      -- A collection that does not count as absent has a part.
      split at h
      next items => exact ne_nil_of_mapM (by simpa [Value.isFalsy] using hthere) h
      next items => exact ne_nil_of_mapM (by simpa [Value.isFalsy] using hthere) h
      next a b => exact ne_nil_of_mapM (List.cons_ne_nil _ _) h
      next entries => exact ne_nil_of_mapM (by simpa [Value.isFalsy] using hthere) h
      next content =>
        cases h
        simpa [Value.isFalsy] using hthere
      next => cases h

variable {processors : Option Nat}

/-- What the keys of a mapping say about each of the settings. -/
structure ReadsAs (processors : Option Nat) (entries : Entries) (s : Settings) : Prop where
  workers : keyed entries "workers" (defaultWorkers processors) workersOf = .ok s.workers
  vendorMarkers :
    keyed entries "vendor_markers" defaultVendorMarkers markersOf = .ok s.vendorMarkers
  sourceRoot : (present? entries "source_root").mapM textOf = .ok s.sourceRoot
  policy : keyed entries "trait_impl_policy" Policy.resolve policyOf = .ok s.policy
  logLevel : (present? entries "log_level").mapM logLevelOf = .ok s.logLevel
  indexer : indexerUnder (Value.entry? entries "indexer") = .ok s.indexer
  macroSuppression :
    ((Value.entry? entries "macro_suppression").map (!·.isFalsy)).getD true =
      s.macroSuppression

theorem readsAs_of_ofValue {entries : Entries} {s : Settings}
    (h : ofValue processors (.map entries) = .ok s) : ReadsAs processors entries s := by
  obtain ⟨workers, hworkers, h⟩ := exists_of_except_bind h
  obtain ⟨markers, hmarkers, h⟩ := exists_of_except_bind h
  obtain ⟨root, hroot, h⟩ := exists_of_except_bind h
  obtain ⟨policy, hpolicy, h⟩ := exists_of_except_bind h
  obtain ⟨level, hlevel, h⟩ := exists_of_except_bind h
  obtain ⟨indexer, hindexer, h⟩ := exists_of_except_bind h
  cases h
  exact ⟨hworkers, hmarkers, hroot, hpolicy, hlevel, hindexer, rfl⟩

theorem ofValue_of_readsAs {entries : Entries} {s : Settings}
    (h : ReadsAs processors entries s) : ofValue processors (.map entries) = .ok s := by
  obtain ⟨hworkers, hmarkers, hroot, hpolicy, hlevel, hindexer, hsuppression⟩ := h
  simp only [ofValue, default, hworkers, hmarkers, hroot, hpolicy, hlevel, hindexer, hsuppression]
  rfl

theorem command_ne_nil_of_indexerOf {entries : Entries} {i : Indexer}
    (h : indexerOf entries = .ok i) : i.command ≠ [] := by
  obtain ⟨command, hcommand, h⟩ := exists_of_except_bind h
  obtain ⟨_, -, h⟩ := exists_of_except_bind h
  obtain ⟨_, -, h⟩ := exists_of_except_bind h
  cases h
  unfold keyed at hcommand
  split at hcommand
  · exact ne_nil_of_commandOf hcommand
  · cases hcommand
    exact List.cons_ne_nil _ _

theorem command_ne_nil_of_indexerUnder {v? : Option Value} {i : Indexer}
    (h : indexerUnder v? = .ok i) : i.command ≠ [] := by
  unfold indexerUnder at h
  split at h
  · exact command_ne_nil_of_indexerOf h
  · cases h
    exact List.cons_ne_nil _ _

/-- The settings that a mapping gives are normal. -/
theorem isNormal_of_ofValue {entries : Entries} {s : Settings}
    (h : ofValue processors (.map entries) = .ok s) : s.IsNormal := by
  have hreads := readsAs_of_ofValue h
  have hlevel : ∀ level, s.logLevel = some level → ∃ v : Value,
      v.isFalsy = false ∧ level = Text.upperCase v.display := by
    intro level hlevel
    obtain ⟨v, hv, hread⟩ := exists_of_present (hreads.logLevel.trans (congrArg _ hlevel))
    exact ⟨v, hv, logLevelOf_eq_ok hread⟩
  refine ⟨one_le_workers_of_ofValue h, ofName?_name s.policy, ne_empty_of_present
    hreads.sourceRoot, ?_, ?_, command_ne_nil_of_indexerUnder hreads.indexer⟩
  · intro hempty
    obtain ⟨v, hv, heq⟩ := hlevel "" hempty
    exact Text.upperCase_ne_empty (Value.display_ne_empty hv) heq.symm
  · intro level hmem
    obtain ⟨v, -, rfl⟩ := hlevel level hmem
    exact Text.upperCase_upperCase v.display

/-! ## Normal settings are read back -/

/-- The choice of an indexer, written out. -/
def writtenIndexer (i : Indexer) : Value :=
  .map
    [(.text "command", .list (i.command.map .text)),
     (.text "output_dir", .text i.outputDirectory),
     (.text "index_name", .text i.indexName)]

/-- The keys of settings, with what they say; a setting that is absent has none. -/
def fields (s : Settings) : List (String × Option Value) :=
  [("workers", some (.int s.workers)),
   ("vendor_markers", some (.list (s.vendorMarkers.map .text))),
   ("source_root", s.sourceRoot.map .text),
   ("trait_impl_policy", some (.text s.policy.name)),
   ("macro_suppression", some (.bool s.macroSuppression)),
   ("log_level", s.logLevel.map .text),
   ("indexer", some (writtenIndexer s.indexer))]

/-- The document that writes all settings out. -/
def written (s : Settings) : Value :=
  .map (Value.present s.fields)

theorem keyed_of_entry {α : Type} {entries : Entries} {key : String} {v : Value} {absent : α}
    {reader : Value → Except SettingsFault α} (h : Value.entry? entries key = some v) :
    keyed entries key absent reader = reader v := by
  rw [keyed, h]

theorem mapM_textOf (words : List String) : (words.map Value.text).mapM textOf = .ok words := by
  induction words with
  | nil => rfl
  | cons word rest ih =>
      rw [List.map_cons, List.mapM_cons, ih]
      rfl

theorem workersOf_int {n : Nat} (h : 1 ≤ n) : workersOf (.int n) = .ok n := by
  have hn : ¬ (n : Int) < 1 := by omega
  simp [workersOf, Value.toInt, hn]

theorem markersOf_texts (markers : List String) :
    markersOf (.list (markers.map .text)) = .ok markers := by
  cases markers with
  | nil => rfl
  | cons marker rest => exact mapM_textOf (marker :: rest)

theorem policyOf_name (p : Policy) : policyOf (.text p.name) = .ok p := by
  cases p <;> rfl

theorem commandOf_texts {words : List String} (h : words ≠ []) :
    commandOf (.list (words.map .text)) = .ok words := by
  cases words with
  | nil => exact absurd rfl h
  | cons word rest => exact mapM_textOf (word :: rest)

/-- A text that is not empty does not count as absent. -/
theorem present?_of_entry {entries : Entries} {key : String} {o : Option String}
    (h : Value.entry? entries key = o.map .text) (ho : o ≠ some "") :
    present? entries key = o.map .text := by
  cases o with
  | none => rw [present?, h]; rfl
  | some s =>
      have hs : (Value.text s).isFalsy = false := by
        simpa [Value.isFalsy] using ho
      simp [present?, h, hs]

theorem indexerOf_written {i : Indexer} (h : i.command ≠ []) :
    indexerUnder (some (writtenIndexer i)) = .ok i := by
  simp only [indexerUnder, writtenIndexer, indexerOf]
  rw [keyed_of_entry (v := .list (i.command.map .text)) rfl, commandOf_texts h]
  rfl

/-- Normal settings that are written out are read as they are, whatever the number of
processors. -/
theorem ofValue_written {s : Settings} (h : s.IsNormal) (processors : Option Nat) :
    ofValue processors s.written = .ok s := by
  have hanswers : ∀ f ∈ s.fields, Value.entry? (Value.present s.fields) f.1 = f.2 :=
    fun f hf => Value.entry?_present (by simp [fields]) hf
  rw [written]
  generalize Value.present s.fields = entries at hanswers ⊢
  simp only [fields, List.forall_mem_cons] at hanswers
  obtain ⟨hworkers, hmarkers, hroot, hpolicy, hsuppression, hlevel, hindexer, -⟩ := hanswers
  apply ofValue_of_readsAs
  constructor
  · rw [keyed_of_entry hworkers, workersOf_int h.workers]
  · rw [keyed_of_entry hmarkers, markersOf_texts]
  · rw [present?_of_entry hroot h.sourceRoot]
    cases s.sourceRoot <;> rfl
  · rw [keyed_of_entry hpolicy, policyOf_name]
  · rw [present?_of_entry hlevel h.logLevel]
    cases hs : s.logLevel with
    | none => rfl
    | some level =>
        show (some <$> Except.ok (Text.upperCase level)) = _
        rw [h.upperCase level hs]
        rfl
  · rw [hindexer, indexerOf_written h.command]
  · rw [hsuppression]
    simp [Value.isFalsy]

/-! ## What settings depend on -/

/-- The keys of settings in a document. -/
def keys : List String :=
  ["workers", "vendor_markers", "source_root", "trait_impl_policy", "macro_suppression",
   "log_level", "indexer"]

/-- The keys of the choice of an indexer. -/
def indexerKeys : List String :=
  ["command", "output_dir", "index_name"]

theorem indexerOf_congr {inner inner' : Entries} (h : Value.AgreeOn indexerKeys inner inner') :
    indexerOf inner' = indexerOf inner := by
  have hanswers : ∀ key ∈ indexerKeys, Value.entry? inner' key = Value.entry? inner key :=
    fun _ hkey => h.entry?_eq hkey
  simp only [indexerKeys, List.forall_mem_cons] at hanswers
  obtain ⟨hcommand, hdirectory, hname, -⟩ := hanswers
  simp only [indexerOf, keyed, hcommand, hdirectory, hname]

/-- Mappings that answer alike, as to the indexer up to what is read, give the same settings
or the same fault. -/
theorem ofValue_congr {entries entries' : Entries}
    (h : ∀ key ∈ keys, key ≠ "indexer" →
      Value.entry? entries' key = Value.entry? entries key)
    (hindexer : indexerUnder (Value.entry? entries' "indexer") =
      indexerUnder (Value.entry? entries "indexer")) :
    ofValue processors (.map entries') = ofValue processors (.map entries) := by
  simp only [keys, List.forall_mem_cons] at h
  obtain ⟨hworkers, hmarkers, hroot, hpolicy, hsuppression, hlevel, -⟩ := h
  simp only [ofValue, keyed, present?, hindexer, hworkers (by decide), hmarkers (by decide),
    hroot (by decide), hpolicy (by decide), hsuppression (by decide), hlevel (by decide)]

theorem ofValue_of_agreeOn {entries entries' : Entries}
    (h : Value.AgreeOn keys entries entries') :
    ofValue processors (.map entries') = ofValue processors (.map entries) :=
  ofValue_congr (fun _ hkey _ => h.entry?_eq hkey)
    (congrArg indexerUnder (h.entry?_eq (by decide)))

theorem ofValue_of_agreeOn_indexer {before inner inner' after : Entries}
    (h : Value.AgreeOn indexerKeys inner inner') :
    ofValue processors (.map (before ++ (.text "indexer", .map inner') :: after)) =
      ofValue processors (.map (before ++ (.text "indexer", .map inner) :: after)) := by
  apply ofValue_congr
  · intro key _ hkey
    simp only [Value.entry?_append, Value.entry?_text_cons, if_neg hkey.symm]
  · rw [Value.entry?_append, Value.entry?_append]
    -- An entry before this one decides; otherwise the two choices are read alike.
    cases Value.entry? before "indexer" with
    | some v => rfl
    | none =>
        simp only [Value.entry?_text_cons, if_true, Option.none_or, indexerUnder]
        exact indexerOf_congr h

/-- Settings that a mapping gives are valid and in normal form: written out again they are
read as they are, whatever the number of processors.  They do not depend on the order of
the entries or on entries under other keys, in the mapping itself and in the one that
chooses the indexer. -/
theorem accepted_settings_normal {entries : Entries} {s : Settings}
    (h : ofValue processors (.map entries) = .ok s) :
    s.IsNormal ∧ (∀ processors', ofValue processors' s.written = .ok s) ∧
      (∀ entries', Value.AgreeOn keys entries entries' →
        ofValue processors (.map entries') = .ok s) ∧
      ∀ before inner inner' after : Entries,
        entries = before ++ (Value.text "indexer", Value.map inner) :: after →
        Value.AgreeOn indexerKeys inner inner' →
        ofValue processors
          (.map (before ++ (Value.text "indexer", Value.map inner') :: after)) = .ok s := by
  have hnormal := isNormal_of_ofValue h
  refine ⟨hnormal, ofValue_written hnormal, ?_, ?_⟩
  · intro entries' hagree
    rw [ofValue_of_agreeOn hagree, h]
  · rintro before inner inner' after rfl hagree
    rw [ofValue_of_agreeOn_indexer hagree, h]

/-- The choice of an indexer by its command, beside a key that means nothing. -/
def unusualIndexer : Entries :=
  [(.text "command", .text "index  it"), (.text "tool", .null)]

/-- Settings that are spelled in unusual ways around the choice of an indexer. -/
def unusualEntries (indexer : Entries) : Entries :=
  ([(.text "log_level", .text "straße"), (.int 7, .null), (.text "workers", .text " 1_2 ")] :
      Entries) ++
    (Value.text "indexer", Value.map indexer) ::
      ([(.text "trait_impl_policy", .text " ALWAYS\n"), (.text "source_root", .bool true)] :
        Entries)

/-- The settings that they give. -/
def unusualSettings : Settings :=
  { default none with
    workers := 12
    sourceRoot := some "True"
    policy := .always
    logLevel := some "STRASSE"
    indexer := { Indexer.default with command := ["index", "it"] } }

theorem ofValue_unusualEntries :
    ofValue (some 4) (.map (unusualEntries unusualIndexer)) = .ok unusualSettings := by
  rfl

theorem accepted_settings_normal_unusual :
    ofValue (some 4) (.map (unusualEntries unusualIndexer)) = .ok unusualSettings ∧
      unusualSettings.IsNormal ∧ ofValue none unusualSettings.written = .ok unusualSettings ∧
      ofValue (some 4) (.map ((.text "colour", .null) :: (unusualEntries unusualIndexer).reverse)) =
        .ok unusualSettings ∧
      ofValue (some 4) (.map (unusualEntries ((.null, .int 1) :: unusualIndexer.reverse))) =
        .ok unusualSettings := by
  have hread := ofValue_unusualEntries
  obtain ⟨hnormal, hwritten, hentries, hindexer⟩ := accepted_settings_normal hread
  refine ⟨hread, hnormal, hwritten none, hentries _ ?_, hindexer _ _ _ _ rfl ?_⟩
  · constructor
    · simp [keys, unusualEntries]
    · simp [keys, unusualEntries]
  · constructor
    · simp [indexerKeys, unusualIndexer]
    · simp [indexerKeys, unusualIndexer]

end Settings

end DeadSymbols
