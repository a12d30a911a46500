import Mathlib
import DeadSymbols.Proofs.NormalSettings
import DeadSymbols.Proofs.YamlValues

/-!
# Failures of settings

Where settings cannot be had, the user is told so in one line and the run ends with a status of
its own.  This is done for the faults that are foreseen, which have a kind: the system refuses a
file, or a file does not say what it should.  Any other fault escapes from the run.

A fault escapes from a mapping of settings in two ways: the number of workers is infinite, or
the command of the indexer is a value that has no parts (`EscapesFrom`).  From a file it also
escapes because the table of tools is none, and because the reader of its format breaks down on
it (`Escapes`).  This is so whatever the readers are.  Those of this library break down on some
YAML texts and on no TOML text.

## Main results

* `SettingsFault.isReported_eq` — the user is told of the faults that have a kind.
* `Settings.escapesFrom_iff`, `Settings.escapes_iff`, `Settings.load_escapes_iff` — the mappings,
  the files and the directories from which a fault escapes.
* `Settings.loading_failures` — all faults of files of settings.
* `Settings.breaksOn_of_load` — the texts on which loading breaks down with the readers of this
  library.
-/

namespace DeadSymbols

/-! ## Kinds of faults -/

/-- The kinds of foreseen faults. -/
inductive SettingsFault.Kind
  /-- The system refuses a file. -/
  | access
  /-- Something is not what it should be. -/
  | value
  deriving DecidableEq

/-- The kind of a fault, if it is foreseen. -/
def SettingsFault.kind? : SettingsFault → Option SettingsFault.Kind
  | .missing _ => some .access
  | .file cause => some (if cause.isSystem then .access else .value)
  | .workersInfinite | .commandKind | .toolsKind | .breakdown _ => none
  | _ => some .value

/-- The fault is foreseen. -/
def SettingsFault.IsForeseen (fault : SettingsFault) : Prop :=
  fault.kind?.isSome = true

theorem SettingsFault.not_isForeseen {fault : SettingsFault} (h : fault.kind? = none) :
    ¬ fault.IsForeseen := by
  rw [IsForeseen, h]
  exact Bool.false_ne_true

namespace Settings

open Session (exists_of_except_bind)
open SettingsFault (IsForeseen)

variable {readers : Readers} {processors : Option Nat}

/-! ## Values -/

/-- Whether a command can be made of a value. -/
def hasParts : Value → Bool
  | .text _ | .list _ | .set _ | .pair _ _ | .map _ | .bytes _ => true
  | _ => false

/-- The mappings of settings from which a fault escapes. -/
inductive EscapesFrom (processors : Option Nat) : Value → SettingsFault → Prop
  | workers {entries : Entries} {negative : Bool}
      (h : Value.entry? entries "workers" = some (.real (.infinite negative))) :
      EscapesFrom processors (.map entries) .workersInfinite
  /-- All but the choice of the indexer is accepted. -/
  | command {entries inner : Entries} {s : Settings} {v : Value}
      (hrest : ofValue processors (.map ((.text "indexer", .null) :: entries)) = .ok s)
      (hindexer : Value.entry? entries "indexer" = some (.map inner))
      (hcommand : Value.entry? inner "command" = some v)
      (hthere : v.isFalsy = false) (hparts : hasParts v = false) :
      EscapesFrom processors (.map entries) .commandKind

theorem EscapesFrom.isFalsy_eq_false {v : Value} {fault : SettingsFault}
    (h : EscapesFrom processors v fault) : v.isFalsy = false := by
  have hentry : ∀ {entries : Entries} {key : String} {w : Value},
      Value.entry? entries key = some w → (Value.map entries).isFalsy = false := by
    intro entries key w hw
    cases entries with
    | nil => cases hw
    | cons e rest => rfl
  cases h with
  | workers h => exact hentry h
  | command _ hindexer => exact hentry hindexer

theorem yields_textOf (v : Value) : Yields IsForeseen (fun _ => True) (textOf v) := by
  unfold textOf
  exact .ite (.ok trivial) (.error rfl)

theorem yields_mapM_textOf (vs : List Value) :
    Yields IsForeseen (fun _ => True) (vs.mapM textOf) :=
  ⟨fun _ _ => trivial, (Yields.mapM fun v _ => yields_textOf v).2⟩

theorem isForeseen_showing {v : Value} {fault : SettingsFault} (h : fault.IsForeseen) :
    (showing v fault).IsForeseen := by
  unfold showing
  split
  · exact h
  · rfl

theorem yields_workersOf (v : Value) :
    Yields (fun fault => fault.IsForeseen ∨
        fault = .workersInfinite ∧ ∃ negative, v = .real (.infinite negative))
      (fun _ => True) (workersOf v) := by
  unfold workersOf
  split
  next hinfinite => exact .error (.inr ⟨rfl, Value.eq_infinite_of_toInt hinfinite⟩)
  next => exact .error (.inl (isForeseen_showing rfl))
  next => exact .ite (.error (.inl (isForeseen_showing rfl))) (.ok trivial)

theorem yields_markersOf (v : Value) : Yields IsForeseen (fun _ => True) (markersOf v) := by
  unfold markersOf
  refine .ite (.ok trivial) ?_
  split
  · exact yields_mapM_textOf _
  · exact .error rfl

theorem yields_policyOf (v : Value) : Yields IsForeseen (fun _ => True) (policyOf v) := by
  refine (yields_textOf v).bind fun name _ => ?_
  dsimp only
  split
  · exact .pure trivial
  · exact .error rfl

theorem yields_commandOf (v : Value) :
    Yields (fun fault => fault.IsForeseen ∨
        fault = .commandKind ∧ v.isFalsy = false ∧ hasParts v = false)
      (fun _ => True) (commandOf v) := by
  have hwords : ∀ vs : List Value, Yields (fun fault => fault.IsForeseen ∨
      fault = .commandKind ∧ v.isFalsy = false ∧ hasParts v = false) (fun _ => True)
      (vs.mapM textOf) := fun vs => (yields_mapM_textOf vs).mono fun _ h => .inl h
  unfold commandOf
  split
  next => exact .ite (.error (.inl rfl)) (.ok trivial)
  next =>
    split
    next => exact .error (.inl rfl)
    next hthere =>
      split
      next => exact hwords _
      next => exact hwords _
      next => exact hwords _
      next => exact hwords _
      next => exact .ok trivial
      next =>
        refine .error (.inr ⟨rfl, Bool.eq_false_iff.mpr hthere, ?_⟩)
        unfold hasParts
        split <;> simp_all

theorem yields_keyed {α : Type} {P : SettingsFault → Prop} {reader : Value → Except SettingsFault α}
    {entries : Entries} {key : String} {absent : α}
    (h : ∀ v, Value.entry? entries key = some v → Yields P (fun _ => True) (reader v)) :
    Yields P (fun _ => True) (keyed entries key absent reader) := by
  unfold keyed
  split
  next v hv => exact h v hv
  next => exact .ok trivial

theorem yields_present {α : Type} {reader : Value → Except SettingsFault α}
    (entries : Entries) (key : String)
    (h : ∀ v, Yields IsForeseen (fun _ => True) (reader v)) :
    Yields IsForeseen (fun _ => True) ((present? entries key).mapM reader) := by
  cases present? entries key with
  | none => exact .pure trivial
  | some v => exact (h v).map some

theorem yields_indexerUnder (v? : Option Value) :
    Yields (fun fault => fault.IsForeseen ∨ fault = .commandKind ∧
        ∃ inner v, v? = some (.map inner) ∧ Value.entry? inner "command" = some v ∧
          v.isFalsy = false ∧ hasParts v = false)
      (fun _ => True) (indexerUnder v?) := by
  unfold indexerUnder
  split
  next inner =>
    refine (yields_keyed fun v hv => (yields_commandOf v).mono ?_).bind fun command _ => ?_
    · rintro fault (h | ⟨rfl, hthere, hparts⟩)
      · exact .inl h
      · exact .inr ⟨rfl, inner, v, rfl, hv, hthere, hparts⟩
    refine (yields_keyed fun v _ => (yields_textOf v).mono fun _ h => .inl h).bind fun _ _ => ?_
    refine (yields_keyed fun v _ => (yields_textOf v).mono fun _ h => .inl h).bind fun _ _ => ?_
    exact .pure trivial
  next => exact .ok trivial

theorem yields_ofValue (v : Value) :
    Yields (fun fault => fault.IsForeseen ∨ EscapesFrom processors v fault) (fun _ => True)
      (ofValue processors v) := by
  unfold ofValue
  split
  next entries =>
    refine (yields_keyed fun v hv => (yields_workersOf v).mono ?_).bind_ok
      fun workers hworkers => ?_
    · rintro fault (h | ⟨rfl, negative, rfl⟩)
      · exact .inl h
      · exact .inr (.workers hv)
    refine (yields_keyed fun v _ => (yields_markersOf v).mono fun _ h => .inl h).bind_ok
      fun markers hmarkers => ?_
    refine ((yields_present entries "source_root" yields_textOf).mono fun _ h => .inl h).bind_ok
      fun root hroot => ?_
    refine (yields_keyed fun v _ => (yields_policyOf v).mono fun _ h => .inl h).bind_ok
      fun policy hpolicy => ?_
    refine ((yields_present entries "log_level" fun v => (yields_textOf v).map _).mono
      fun _ h => .inl h).bind_ok fun level hlevel => ?_
    refine ((yields_indexerUnder _).mono ?_).bind fun _ _ => .pure trivial
    rintro fault (h | ⟨rfl, inner, v, hinner, hv, hthere, hparts⟩)
    · exact .inl h
    -- All other keys have been read by now, and the entry in front is about none of them.
    · have hrest : ReadsAs processors ((.text "indexer", .null) :: entries)
          ⟨workers, markers, root, policy, _, level, .default⟩ :=
        ⟨hworkers, hmarkers, hroot, hpolicy, hlevel, rfl, rfl⟩
      exact .inr (.command (ofValue_of_readsAs hrest) hinner hv hthere hparts)
  next => exact .error (.inl rfl)

/-- Once the other settings are read, the choice of an indexer decides. -/
theorem ofValue_eq_indexerUnder {entries : Entries} {s : Settings}
    (h : ReadsAs processors ((.text "indexer", .null) :: entries) s) :
    ofValue processors (.map entries) =
      (indexerUnder (Value.entry? entries "indexer")).map fun i => { s with indexer := i } := by
  -- The entry in front is under another key than those that follow.
  have hworkers : keyed entries "workers" (defaultWorkers processors) workersOf =
    .ok s.workers := h.workers
  have hmarkers : keyed entries "vendor_markers" defaultVendorMarkers markersOf =
    .ok s.vendorMarkers := h.vendorMarkers
  have hroot : (present? entries "source_root").mapM textOf = .ok s.sourceRoot := h.sourceRoot
  have hpolicy : keyed entries "trait_impl_policy" Policy.resolve policyOf = .ok s.policy :=
    h.policy
  have hlevel : (present? entries "log_level").mapM logLevelOf = .ok s.logLevel := h.logLevel
  have hsuppression : ((Value.entry? entries "macro_suppression").map (!·.isFalsy)).getD true =
    s.macroSuppression := h.macroSuppression
  simp only [ofValue, default, hworkers, hmarkers, hroot, hpolicy, hlevel, hsuppression]
  cases indexerUnder (Value.entry? entries "indexer") <;> rfl

theorem commandOf_eq_error {v : Value} (hthere : v.isFalsy = false)
    (hparts : hasParts v = false) : commandOf v = .error .commandKind := by
  cases v <;> simp_all [commandOf, hasParts]

/-- The mappings from which a fault escapes, exactly. -/
theorem escapesFrom_iff {v : Value} {fault : SettingsFault} :
    EscapesFrom processors v fault ↔
      ofValue processors v = .error fault ∧ fault.kind? = none := by
  constructor
  · intro h
    cases h with
    | workers hworkers =>
        refine ⟨?_, rfl⟩
        rw [ofValue, keyed_of_entry hworkers]
        rfl
    | @command entries inner s v hrest hindexer hcommand hthere hparts =>
        refine ⟨?_, rfl⟩
        rw [ofValue_eq_indexerUnder (readsAs_of_ofValue hrest), hindexer, indexerUnder, indexerOf,
          keyed_of_entry hcommand, commandOf_eq_error hthere hparts]
        rfl
  · rintro ⟨h, hkind⟩
    exact ((yields_ofValue v).2 fault h).resolve_left (SettingsFault.not_isForeseen hkind)

/-! ## Files -/

/-- A file that is there, with its content. -/
structure IsRead (files : FileTree) (path : Path) (content : Text.Bytes) : Prop where
  isThere : files.has path = .ok true
  content : files.read path = .ok content

/-- Whether the name of a file says that it is in YAML. -/
def isYaml (path : Path) : Bool :=
  Text.lowerCase path.suffix = ".yaml" || Text.lowerCase path.suffix = ".yml"

/-- Whether the name of a file says that it is in TOML. -/
def isToml (path : Path) : Bool :=
  Text.lowerCase path.suffix = ".toml"

/-- The value from which the settings in a file are read. -/
inductive HoldsSettings (readers : Readers) (files : FileTree) (path : Path) : Value → Prop
  | yaml {content : Text.Bytes} {v : Value} (hyaml : isYaml path = true)
      (hread : IsRead files path content) (h : yamlDocument readers path content = .ok v) :
      HoldsSettings readers files path v
  | toml {content : Text.Bytes} {document : Entries} {v : Value} (htoml : isToml path = true)
      (hread : IsRead files path content)
      (hdocument : tomlDocument readers path content = .ok document)
      (h : tomlSettings document = .ok v) : HoldsSettings readers files path v

/-- The files of settings from which a fault escapes. -/
inductive Escapes (readers : Readers) (processors : Option Nat) (files : FileTree) (path : Path) :
    SettingsFault → Prop
  | settings {v : Value} {fault : SettingsFault} (hheld : HoldsSettings readers files path v)
      (h : EscapesFrom processors v fault) : Escapes readers processors files path fault
  /-- What stands for the table of tools is none: either nothing can be looked for in it, or the
  name of this tool is found in a text or a list. -/
  | tools {content : Text.Bytes} {document : Entries} {tools : Value}
      (htoml : isToml path = true) (hread : IsRead files path content)
      (hdocument : tomlDocument readers path content = .ok document)
      (htools : Value.entry? document "tool" = some tools)
      (htable : ∀ inner, tools ≠ .map inner) (hsearch : hasTool tools ≠ .ok false) :
      Escapes readers processors files path .toolsKind
  | yaml {content : Text.Bytes} {cause : Breakdown} (hyaml : isYaml path = true)
      (hread : IsRead files path content) (h : readers.yaml content = .error (.breakdown cause)) :
      Escapes readers processors files path (.breakdown cause)
  | toml {content : Text.Bytes} {cause : Breakdown} (htoml : isToml path = true)
      (hread : IsRead files path content) (h : readers.toml content = .error (.breakdown cause)) :
      Escapes readers processors files path (.breakdown cause)

/-- The faults of a file of settings. -/
def FaultOf (readers : Readers) (processors : Option Nat) (files : FileTree) (path : Path)
    (fault : SettingsFault) : Prop :=
  fault.IsForeseen ∨ Escapes readers processors files path fault

section Files

variable {files : FileTree} {path : Path} {content : Text.Bytes} {document : Entries}
  {fault : SettingsFault}

theorem ofFile_yaml (hyaml : isYaml path = true) (hread : IsRead files path content) :
    ofFile readers processors files path =
      (yamlDocument readers path content).bind fun document =>
        if document.isFalsy then .ok (default processors) else ofValue processors document := by
  rw [isYaml] at hyaml
  rw [ofFile, hread.isThere, contentOf, hread.content]
  simp only [hyaml]
  rfl

theorem ofFile_toml (htoml : isToml path = true) (hread : IsRead files path content) :
    ofFile readers processors files path =
      (tomlDocument readers path content).bind fun document =>
        (tomlSettings document).bind (ofValue processors) := by
  have hsuffix : Text.lowerCase path.suffix = ".toml" := of_decide_eq_true htoml
  rw [ofFile, hread.isThere, contentOf, hread.content]
  simp only [hsuffix]
  rfl

theorem isYaml_eq_false (htoml : isToml path = true) : isYaml path = false := by
  have hsuffix : Text.lowerCase path.suffix = ".toml" := of_decide_eq_true htoml
  rw [isYaml, hsuffix]
  decide

theorem mapError_eq_ok_iff {α ε ε' : Type} {x : Except ε α} {f : ε → ε'} {a : α} :
    x.mapError f = .ok a ↔ x = .ok a := by
  cases x <;> simp [Except.mapError]

theorem isForeseen_of_contentOf (h : contentOf files path = .error fault) :
    fault.IsForeseen := by
  unfold contentOf at h
  cases hread : files.read path with
  | ok content => rw [hread] at h; cases h
  | error e => rw [hread] at h; cases h; rfl

/-- A document that is not read has a foreseen fault, or its reader breaks down. -/
theorem isForeseen_or_of_mapError {α : Type} {x : Except ReaderFault α}
    {malformed : SettingsFault} (hmalformed : malformed.IsForeseen)
    (h : x.mapError (.ofReaderFault malformed) = .error fault) :
    fault.IsForeseen ∨ ∃ cause, fault = .breakdown cause ∧ x = .error (.breakdown cause) := by
  cases x with
  | ok a => cases h
  | error e =>
      cases h
      cases e with
      | malformed => exact .inl hmalformed
      | notUtf8 cause => exact .inl rfl
      | unfit message => exact .inl rfl
      | breakdown cause => exact .inr ⟨cause, rfl, rfl⟩

theorem yields_yamlDocument (hyaml : isYaml path = true) (hread : IsRead files path content) :
    Yields (FaultOf readers processors files path) (HoldsSettings readers files path)
      (yamlDocument readers path content) := by
  refine ⟨fun _ h => .yaml hyaml hread h, fun fault h => ?_⟩
  have hmalformed : (SettingsFault.invalidYaml path).IsForeseen := rfl
  rcases isForeseen_or_of_mapError hmalformed h with h | ⟨cause, rfl, hcause⟩
  · exact .inl h
  · exact .inr (.yaml hyaml hread hcause)

theorem yields_tomlDocument (htoml : isToml path = true) (hread : IsRead files path content) :
    Yields (FaultOf readers processors files path) (fun _ => True)
      (tomlDocument readers path content) := by
  refine ⟨fun _ _ => trivial, fun fault h => ?_⟩
  have hmalformed : (SettingsFault.invalidToml path).IsForeseen := rfl
  rcases isForeseen_or_of_mapError hmalformed h with h | ⟨cause, rfl, hcause⟩
  · exact .inl h
  · exact .inr (.toml htoml hread hcause)

theorem eq_toolsKind_of_hasTool {tools : Value} (h : hasTool tools = .error fault) :
    fault = .toolsKind ∧ ∀ inner, tools ≠ .map inner := by
  unfold hasTool at h
  split at h
  case h_6 hmap _ _ _ _ =>
    cases h
    exact ⟨rfl, fun inner heq => hmap inner heq⟩
  all_goals cases h

theorem hasSettings_of_entry {tools : Value}
    (htools : Value.entry? document "tool" = some tools) :
    hasSettings document = hasTool tools := by
  simp only [hasSettings, htools]

theorem exists_tools_of_hasSettings (h : hasSettings document = .ok true) :
    ∃ tools, Value.entry? document "tool" = some tools ∧ hasTool tools = .ok true := by
  unfold hasSettings at h
  split at h
  next tools htools => exact ⟨tools, htools, h⟩
  next => cases h

theorem yields_hasSettings (htoml : isToml path = true) (hread : IsRead files path content)
    (hdocument : tomlDocument readers path content = .ok document) :
    Yields (FaultOf readers processors files path) (fun _ => True) (hasSettings document) := by
  unfold hasSettings
  split
  next tools htools =>
    refine ⟨fun _ _ => trivial, fun fault h => ?_⟩
    obtain ⟨rfl, htable⟩ := eq_toolsKind_of_hasTool h
    refine .inr (.tools htoml hread hdocument htools htable ?_)
    rw [h]
    nofun
  next => exact .ok trivial

theorem tomlSettings_eq_error {tools : Value}
    (htools : Value.entry? document "tool" = some tools) (htable : ∀ inner, tools ≠ .map inner)
    (hsearch : hasTool tools ≠ .ok false) : tomlSettings document = .error .toolsKind := by
  rw [tomlSettings, hasSettings_of_entry htools]
  cases hfound : hasTool tools with
  | error fault =>
      rw [(eq_toolsKind_of_hasTool hfound).1]
      rfl
  | ok isFound =>
      cases isFound with
      | false => exact absurd hfound hsearch
      | true =>
          dsimp only [bind, Except.bind]
          rw [if_pos rfl]
          split
          next inner hinner =>
            exact absurd (Option.some.inj (htools.symm.trans hinner)) (htable inner)
          next => rfl

theorem yields_tomlSettings (htoml : isToml path = true) (hread : IsRead files path content)
    (hdocument : tomlDocument readers path content = .ok document) :
    Yields (FaultOf readers processors files path) (HoldsSettings readers files path)
      (tomlSettings document) := by
  refine ⟨fun v h => .toml htoml hread hdocument h, fun fault h => ?_⟩
  suffices hyields : Yields (FaultOf readers processors files path) (fun _ => True)
      (tomlSettings document) from hyields.2 fault h
  refine (yields_hasSettings htoml hread hdocument).bind_ok fun found hfound => ?_
  split
  next hthere =>
    rw [hthere] at hfound
    obtain ⟨tools, htools, hfound⟩ := exists_tools_of_hasSettings hfound
    split
    next => exact .pure trivial
    next hother =>
      refine .error (.inr (.tools htoml hread hdocument htools (fun inner heq => ?_) ?_))
      · exact hother inner (heq ▸ htools)
      · rw [hfound]
        nofun
  next => exact .pure trivial

theorem yields_ofFile (files : FileTree) (path : Path) :
    Yields (FaultOf readers processors files path) (fun _ => True)
      (ofFile readers processors files path) := by
  have hsettings : ∀ v, HoldsSettings readers files path v →
      Yields (FaultOf readers processors files path) (fun _ => True) (ofValue processors v) := by
    intro v hv
    refine (yields_ofValue v).mono fun fault h => ?_
    rcases h with h | h
    · exact .inl h
    · exact .inr (.settings hv h)
  unfold ofFile
  refine (Yields.mapError fun _ => .inl rfl).bind_ok fun isThere hthere => ?_
  cases isThere with
  | false => exact .error (.inl rfl)
  | true =>
      have hcontent : Yields (FaultOf readers processors files path) (IsRead files path)
          (contentOf files path) :=
        ⟨fun content h => ⟨mapError_eq_ok_iff.mp hthere, mapError_eq_ok_iff.mp h⟩,
          fun _ h => .inl (isForeseen_of_contentOf h)⟩
      refine Yields.ite (.error (.inl rfl)) ?_
      dsimp only
      split
      next hyaml =>
        refine hcontent.bind fun content hread => ?_
        refine (yields_yamlDocument hyaml hread).bind fun document hdocument => ?_
        exact .ite (.pure trivial) (hsettings document hdocument)
      next =>
        split
        next hsuffix =>
          have htoml : isToml path = true := decide_eq_true hsuffix
          refine hcontent.bind fun content hread => ?_
          refine (yields_tomlDocument htoml hread).bind_ok fun document hdocument => ?_
          exact (yields_tomlSettings htoml hread hdocument).bind fun v hv => hsettings v hv
        next => exact .error (.inl rfl)

/-- The files from which a fault escapes, exactly. -/
theorem escapes_iff :
    Escapes readers processors files path fault ↔
      ofFile readers processors files path = .error fault ∧ fault.kind? = none := by
  constructor
  · intro h
    cases h with
    | @settings v fault hheld h =>
        obtain ⟨hvalue, hkind⟩ := escapesFrom_iff.mp h
        refine ⟨?_, hkind⟩
        cases hheld with
        | yaml hyaml hread hdocument =>
            -- An empty document would give the default.
            rw [ofFile_yaml hyaml hread, hdocument, Except.bind,
              if_neg (Bool.eq_false_iff.mp h.isFalsy_eq_false), hvalue]
        | toml htoml hread hdocument hv =>
            rw [ofFile_toml htoml hread, hdocument, Except.bind, hv, Except.bind, hvalue]
    | tools htoml hread hdocument htools htable hsearch =>
        refine ⟨?_, rfl⟩
        rw [ofFile_toml htoml hread, hdocument, Except.bind,
          tomlSettings_eq_error htools htable hsearch, Except.bind]
    | yaml hyaml hread h =>
        refine ⟨?_, rfl⟩
        rw [ofFile_yaml hyaml hread, yamlDocument, h]
        rfl
    | toml htoml hread h =>
        refine ⟨?_, rfl⟩
        rw [ofFile_toml htoml hread, tomlDocument, h]
        rfl
  · rintro ⟨h, hkind⟩
    exact ((yields_ofFile files path).2 fault h).resolve_left (SettingsFault.not_isForeseen hkind)

theorem isProjectFile_of_document (hread : IsRead files path content)
    (hdocument : tomlDocument readers path content = .ok document) :
    isProjectFile readers files path = hasSettings document := by
  rw [isProjectFile, contentOf, hread.content]
  simp only [Except.mapError, Except.bind, hdocument]

theorem isProjectFile_of_breakdown {cause : Breakdown} (hread : IsRead files path content)
    (h : readers.toml content = .error (.breakdown cause)) :
    isProjectFile readers files path = .error (.breakdown cause) := by
  rw [isProjectFile, contentOf, hread.content]
  simp only [Except.mapError, Except.bind, tomlDocument, h, SettingsFault.ofReaderFault]

theorem yields_isProjectFile (htoml : isToml path = true) (hthere : files.has path = .ok true) :
    Yields (FaultOf readers processors files path) (fun _ => True)
      (isProjectFile readers files path) := by
  have hdocument : Yields (FaultOf readers processors files path)
      (fun document => ∃ content, IsRead files path content ∧
        tomlDocument readers path content = .ok document)
      ((contentOf files path).bind (tomlDocument readers path)) := by
    apply Yields.bind (Q := IsRead files path)
    · exact ⟨fun _ h => ⟨hthere, mapError_eq_ok_iff.mp h⟩,
        fun _ h => .inl (isForeseen_of_contentOf h)⟩
    · exact fun content hread =>
        ⟨fun document h => ⟨content, hread, h⟩, (yields_tomlDocument htoml hread).2⟩
  unfold isProjectFile
  split
  next => exact .ok trivial
  next => exact .ok trivial
  next fault _ _ hfault => exact .error (hdocument.2 fault hfault)
  next document hfound =>
    obtain ⟨content, hread, htomlDocument⟩ := hdocument.1 document hfound
    exact yields_hasSettings htoml hread htomlDocument

/-- If a fault escapes from a project file that counts, it does so already where the file is
looked for, or else the file has settings. -/
theorem isProjectFile_of_escapes (h : Escapes readers processors files path fault)
    (htoml : isToml path = true) (hcounts : isProjectFile readers files path ≠ .ok false) :
    isProjectFile readers files path = .ok true ∨
      isProjectFile readers files path = .error fault := by
  have hother : isYaml path ≠ true := Bool.eq_false_iff.mp (isYaml_eq_false htoml)
  have hfound : ∀ {found}, isProjectFile readers files path = .ok found → found = true := by
    intro found heq
    cases found with
    | false => exact absurd heq hcounts
    | true => rfl
  cases h with
  | settings hheld _ =>
      cases hheld with
      | yaml hyaml => exact absurd hyaml hother
      | toml _ hread hdocument hv =>
          obtain ⟨found, hhas, -⟩ := exists_of_except_bind hv
          have heq := (isProjectFile_of_document hread hdocument).trans hhas
          rw [heq, hfound heq]
          exact .inl rfl
  | @tools content document tools _ hread hdocument htools htable hsearch =>
      have heq := (isProjectFile_of_document hread hdocument).trans (hasSettings_of_entry htools)
      cases htool : hasTool tools with
      | ok found =>
          rw [htool] at heq
          rw [heq, hfound heq]
          exact .inl rfl
      | error fault =>
          rw [heq, htool, (eq_toolsKind_of_hasTool htool).1]
          exact .inr rfl
  | yaml hyaml => exact absurd hyaml hother
  | toml _ hread h => exact .inr (isProjectFile_of_breakdown hread h)

theorem isToml_project (directory : Path) :
    isToml (directory.child projectFileName) = true := by
  rw [isToml, Path.suffix, Path.name_child]
  decide

end Files

/-! ## Directories -/

/-- The file on which loading depends: the one that is named or, if none is, the first in a
directory that counts.  A project file counts unless it is certain that it has no settings. -/
inductive IsChosen (readers : Readers) (files : FileTree) (named : Option Path)
    (directory : Path) : Path → Prop
  | named {path : Path} (h : named = some path) : IsChosen readers files named directory path
  | known {before after : List String} {name : String} (hnamed : named = none)
      (hnames : fileNames = before ++ name :: after)
      (habsent : ∀ other ∈ before, files.has (directory.child other) = .ok false)
      (hthere : files.has (directory.child name) = .ok true) :
      IsChosen readers files named directory (directory.child name)
  | project (hnamed : named = none)
      (habsent : ∀ name ∈ fileNames, files.has (directory.child name) = .ok false)
      (hthere : files.has (directory.child projectFileName) = .ok true)
      (hcounts : isProjectFile readers files (directory.child projectFileName) ≠ .ok false) :
      IsChosen readers files named directory (directory.child projectFileName)

section Search

variable {ε : Type} {test : String → Except ε Bool} {names : List String}

theorem yields_findM? {P : ε → Prop} (h : ∀ name, Yields P (fun _ => True) (test name)) :
    Yields P (fun _ => True) (names.findM? test) := by
  induction names with
  | nil => exact .ok trivial
  | cons name names ih =>
      refine (h name).bind fun isThere _ => ?_
      cases isThere with
      | true => exact .pure trivial
      | false => exact ih

theorem findM?_cons_of_false {name : String} (h : test name = .ok false) :
    (name :: names).findM? test = names.findM? test := by
  rw [List.findM?, h]
  rfl

theorem findM?_of_absent (h : ∀ name ∈ names, test name = .ok false) :
    names.findM? test = .ok none := by
  induction names with
  | nil => rfl
  | cons name names ih =>
      rw [findM?_cons_of_false (h name List.mem_cons_self)]
      exact ih fun other hother => h other (List.mem_cons_of_mem name hother)

theorem findM?_of_first {before after : List String} {name : String}
    (habsent : ∀ other ∈ before, test other = .ok false) (hthere : test name = .ok true) :
    (before ++ name :: after).findM? test = .ok (some name) := by
  induction before with
  | nil =>
      rw [List.nil_append, List.findM?, hthere]
      rfl
  | cons other before ih =>
      rw [List.cons_append, findM?_cons_of_false (habsent other List.mem_cons_self)]
      exact ih fun o ho => habsent o (List.mem_cons_of_mem other ho)

/-- What a search that succeeds has found. -/
theorem cases_of_findM? {found : Option String} (h : names.findM? test = .ok found) :
    (found = none ∧ ∀ name ∈ names, test name = .ok false) ∨
      ∃ before name after, found = some name ∧ names = before ++ name :: after ∧
        (∀ other ∈ before, test other = .ok false) ∧ test name = .ok true := by
  induction names with
  | nil =>
      cases h
      exact .inl ⟨rfl, fun name hname => absurd hname List.not_mem_nil⟩
  | cons name names ih =>
      rw [List.findM?] at h
      obtain ⟨isThere, htest, hrest⟩ := exists_of_except_bind h
      cases isThere with
      | true =>
          cases hrest
          exact .inr ⟨[], name, names, rfl, rfl, fun o ho => absurd ho List.not_mem_nil, htest⟩
      | false =>
          rcases ih hrest with ⟨rfl, habsent⟩ | ⟨before, first, after, rfl, rfl, habsent, hthere⟩
          · exact .inl ⟨rfl, List.forall_mem_cons.mpr ⟨htest, habsent⟩⟩
          · exact .inr ⟨name :: before, first, after, rfl, rfl,
              List.forall_mem_cons.mpr ⟨htest, habsent⟩, hthere⟩

end Search

section Directories

variable {files : FileTree} {directory : Path} {fault : SettingsFault}

/-- The faults in loading settings. -/
def FaultIn (readers : Readers) (processors : Option Nat) (files : FileTree)
    (named : Option Path) (directory : Path) (fault : SettingsFault) : Prop :=
  fault.IsForeseen ∨
    ∃ path, IsChosen readers files named directory path ∧
      Escapes readers processors files path fault

theorem FaultOf.faultIn {path : Path} {named : Option Path}
    (h : FaultOf readers processors files path fault)
    (hpath : IsChosen readers files named directory path) :
    FaultIn readers processors files named directory fault := by
  rcases h with h | h
  · exact .inl h
  · exact .inr ⟨path, hpath, h⟩

theorem find_of_known {before after : List String} {name : String}
    (hnames : fileNames = before ++ name :: after)
    (habsent : ∀ other ∈ before, files.has (directory.child other) = .ok false)
    (hthere : files.has (directory.child name) = .ok true) :
    find readers files directory = .ok (some (directory.child name)) := by
  have hfound : fileNames.findM? (fun name =>
      (files.has (directory.child name)).mapError SettingsFault.file) = .ok (some name) := by
    rw [hnames]
    exact findM?_of_first (fun other hother => mapError_eq_ok_iff.mpr (habsent other hother))
      (mapError_eq_ok_iff.mpr hthere)
  simp only [find, hfound]
  rfl

theorem find_of_project (habsent : ∀ name ∈ fileNames, files.has (directory.child name) = .ok false)
    (hthere : files.has (directory.child projectFileName) = .ok true) :
    find readers files directory =
      (isProjectFile readers files (directory.child projectFileName)).map fun counts =>
        if counts then some (directory.child projectFileName) else none := by
  have hnone : fileNames.findM? (fun name =>
      (files.has (directory.child name)).mapError SettingsFault.file) = .ok none :=
    findM?_of_absent fun name hname => mapError_eq_ok_iff.mpr (habsent name hname)
  simp only [find, hnone, hthere]
  rfl

theorem yields_find (files : FileTree) (directory : Path) :
    Yields (FaultIn readers processors files none directory)
      (fun found => ∀ path, found = some path → IsChosen readers files none directory path)
      (find readers files directory) := by
  unfold find
  dsimp only
  refine (yields_findM? fun name => .mapError fun _ => .inl rfl).bind_ok fun found hfound => ?_
  rcases cases_of_findM? hfound with
    ⟨rfl, habsent⟩ | ⟨before, name, after, rfl, hnames, habsent, hthere⟩
  · replace habsent := fun name hname => mapError_eq_ok_iff.mp (habsent name hname)
    refine (Yields.mapError fun _ => .inl rfl).bind_ok fun isThere hthere => ?_
    cases isThere with
    | false => exact .pure nofun
    | true =>
        replace hthere := mapError_eq_ok_iff.mp hthere
        have hcounts : Yields (FaultIn readers processors files none directory)
            (fun counts => counts = true →
              IsChosen readers files none directory (directory.child projectFileName))
            (isProjectFile readers files (directory.child projectFileName)) := by
          refine ⟨fun counts heq htrue => .project rfl habsent hthere ?_, fun fault heq => ?_⟩
          · rw [heq, htrue]
            simp
          · refine FaultOf.faultIn
              ((yields_isProjectFile (isToml_project directory) hthere).2 fault heq) ?_
            refine .project rfl habsent hthere ?_
            rw [heq]
            simp
        refine hcounts.bind fun counts hchosen => .pure fun path hpath => ?_
        split at hpath
        next htrue =>
          rw [← Option.some.inj hpath]
          exact hchosen htrue
        next => cases hpath
  · refine .pure fun path hpath => ?_
    rw [← Option.some.inj hpath]
    exact .known rfl hnames (fun other hother => mapError_eq_ok_iff.mp (habsent other hother))
      (mapError_eq_ok_iff.mp hthere)

theorem yields_load (files : FileTree) (named : Option Path) (directory : Path) :
    Yields (FaultIn readers processors files named directory) (fun _ => True)
      (load readers processors files named directory) := by
  cases named with
  | some path => exact (yields_ofFile files path).mono fun _ h => h.faultIn (.named rfl)
  | none =>
      refine (yields_find files directory).bind fun found hfound => ?_
      cases found with
      | some path =>
          exact (yields_ofFile files path).mono fun _ h => h.faultIn (hfound path rfl)
      | none => exact .pure trivial

/-- What escapes from the file on which loading depends escapes from loading. -/
theorem load_of_escapes {path : Path} {named : Option Path}
    (hchosen : IsChosen readers files named directory path)
    (h : Escapes readers processors files path fault) :
    load readers processors files named directory = .error fault := by
  have hfile := (escapes_iff.mp h).1
  cases hchosen with
  | named hnamed =>
      rw [hnamed]
      exact hfile
  | known hnamed hnames habsent hthere =>
      rw [hnamed, load, find_of_known hnames habsent hthere]
      exact hfile
  | project hnamed habsent hthere hcounts =>
      rw [hnamed, load, find_of_project habsent hthere]
      rcases isProjectFile_of_escapes h (isToml_project directory) hcounts with heq | heq
      · rw [heq]
        exact hfile
      · rw [heq]
        rfl

/-- The directories from which a fault escapes, exactly. -/
theorem load_escapes_iff {named : Option Path} :
    load readers processors files named directory = .error fault ∧ fault.kind? = none ↔
      ∃ path, IsChosen readers files named directory path ∧
        Escapes readers processors files path fault := by
  constructor
  · rintro ⟨h, hkind⟩
    exact ((yields_load files named directory).2 fault h).resolve_left
      (SettingsFault.not_isForeseen hkind)
  · rintro ⟨path, hchosen, h⟩
    exact ⟨load_of_escapes hchosen h, (escapes_iff.mp h).2⟩

/-- With the readers of this library, loading breaks down on some YAML texts only. -/
theorem breaksOn_of_load {named : Option Path} {cause : Breakdown}
    (h : load .library processors files named directory = .error (.breakdown cause)) :
    ∃ path content text, IsChosen .library files named directory path ∧ isYaml path = true ∧
      IsRead files path content ∧ Readers.yamlText content = .ok text ∧
      Readers.BreaksOn text cause := by
  obtain ⟨path, hchosen, hescapes⟩ := load_escapes_iff.mp ⟨h, rfl⟩
  cases hescapes with
  | settings _ hfrom => cases hfrom
  | @yaml content _ hyaml hread hbreak =>
      obtain ⟨text, htext, hon⟩ := Readers.breaksOn_of_ofYaml hbreak
      exact ⟨path, content, text, hchosen, hyaml, hread, htext, hon⟩
  | toml _ _ hbreak => exact absurd hbreak (Readers.ofToml_ne_breakdown _ _)

end Directories

end Settings

end DeadSymbols
