import DeadSymbols.Settings.Basic
import DeadSymbols.Value

/-!
# Settings from a document

Settings are read from a mapping, key by key in a fixed order; the first key with a fault decides.
Keys that mean nothing are passed over, and so are most values that count as absent. What no key
says is as for a user who chooses nothing.
-/

namespace DeadSymbols.Settings

/-- The entries of a mapping, with the operations the keys need. -/
abbrev Entries := List (Value × Value)

/-- The value under a key, unless it counts as absent. -/
def present? (entries : Entries) (key : String) : Option Value :=
  (Value.entry? entries key).filter (!·.isFalsy)

/-- The text of a value, unless it cannot be written. -/
def textOf (v : Value) : Except SettingsFault String :=
  if v.isWritable then .ok v.display else .error .unwritable

/-- A fault whose wording shows a value, unless the value cannot be written. -/
def showing (v : Value) (fault : SettingsFault) : SettingsFault :=
  if v.isWritable then fault else .unwritable

/-- The number of workers, which is one at least. -/
def workersOf (v : Value) : Except SettingsFault Nat :=
  match v.toInt with
  | .error .infinite => .error .workersInfinite
  | .error _ => .error (showing v (.workersKind v.literal))
  | .ok n => if n < 1 then .error (showing (.int n) (.workersTooFew n)) else .ok n.toNat

/-- The marks of vendored directories. -/
def markersOf (v : Value) : Except SettingsFault (List String) :=
  if v.isFalsy then .ok []
  else
    match v with
    | .list items => items.mapM textOf
    | _ => .error .markersKind

/-- The policy of a name, around which blanks and whose case do not matter. -/
def policyOf (v : Value) : Except SettingsFault Policy := do
  let name := Text.lowerCase (Text.trim (← textOf v))
  match Policy.ofName? name with
  | some p => return p
  | none => throw (.unknownPolicy name)

/-- The name of a log level, in upper case. -/
def logLevelOf (v : Value) : Except SettingsFault String :=
  (textOf v).map Text.upperCase

/-- The words of a command: a text is split at blanks, a collection gives its parts. -/
def commandOf (v : Value) : Except SettingsFault (List String) :=
  match v with
  | .text s =>
    let words := Text.words s
    if words.isEmpty then .error .emptyCommand else .ok words
  | _ =>
    if v.isFalsy then .error .emptyCommand
    else
      match v with
      | .list items => items.mapM textOf
      | .set items => items.mapM textOf
      | .pair a b => [a, b].mapM textOf
      | .map entries => (entries.map (·.1)).mapM textOf
      | .bytes content => .ok (content.map fun b => toString b.toNat)
      | _ => .error .commandKind

/-- The value a key's reader gives, or the default if the key is not there. -/
def keyed {α : Type} (entries : Entries) (key : String) (absent : α)
    (reader : Value → Except SettingsFault α) : Except SettingsFault α :=
  match Value.entry? entries key with
  | some v => reader v
  | none => .ok absent

/-- The indexer of a mapping. -/
def indexerOf (entries : Entries) : Except SettingsFault Indexer := do
  return {
    command := ← keyed entries "command" Indexer.default.command commandOf
    outputDirectory := ← keyed entries "output_dir" Indexer.default.outputDirectory textOf
    indexName := ← keyed entries "index_name" Indexer.default.indexName textOf }

/-- The indexer that a setting chooses, if it is a mapping. -/
def indexerUnder : Option Value → Except SettingsFault Indexer
  | some (.map inner) => indexerOf inner
  | _ => .ok .default

/-- The settings of a document, given the number of processors. -/
def ofValue (processors : Option Nat) (v : Value) : Except SettingsFault Settings := do
  match v with
  | .map entries =>
    let absent := default processors
    let workers ← keyed entries "workers" absent.workers workersOf
    let vendorMarkers ← keyed entries "vendor_markers" absent.vendorMarkers markersOf
    let sourceRoot ← (present? entries "source_root").mapM textOf
    let policy ← keyed entries "trait_impl_policy" absent.policy policyOf
    let logLevel ← (present? entries "log_level").mapM logLevelOf
    let indexer ← indexerUnder (Value.entry? entries "indexer")
    return {
      workers
      vendorMarkers
      sourceRoot
      policy
      macroSuppression :=
        ((Value.entry? entries "macro_suppression").map (!·.isFalsy)).getD absent.macroSuppression
      logLevel
      indexer }
  | _ => throw .notMapping

end DeadSymbols.Settings
