import DeadSymbols.Build
import DeadSymbols.Detector
import DeadSymbols.Indexer
import DeadSymbols.Settings.Reader

/-!
# Settings

What a user can choose about an analysis, with the choices made for whoever chooses nothing, and the
faults that a file of settings can have.
-/

namespace DeadSymbols

/-- How an analysis is done. -/
structure Settings where
  workers : Nat
  vendorMarkers : List String
  /-- The directory of the sources; by default it is found from the place of the dump. -/
  sourceRoot : Option String
  policy : Policy
  /-- Whether definitions in macro input are kept out of the report. -/
  macroSuppression : Bool
  logLevel : Option String
  indexer : Indexer
  deriving DecidableEq, Repr

namespace Settings

/-- The number of workers unless the settings give another: one for each processor, or one if it
is not known how many there are. -/
def defaultWorkers : Option Nat → Nat
  | some (n + 1) => n + 1
  | _ => 1

/-- The settings of a user who chooses nothing, given the number of processors. -/
def default (processors : Option Nat) : Settings :=
  { workers := defaultWorkers processors
    vendorMarkers := defaultVendorMarkers
    sourceRoot := none
    policy := .resolve
    macroSuppression := true
    logLevel := none
    indexer := .default }

end Settings

/-- Why there are no settings. -/
inductive SettingsFault
  /-- The document is not a mapping. -/
  | notMapping
  /-- The number of workers, given as it is written, is no integer. -/
  | workersKind (literal : String)
  | workersTooFew (n : Int)
  | workersInfinite
  | markersKind
  | unknownPolicy (name : String)
  | emptyCommand
  /-- The indexer's command has no words. -/
  | commandKind
  /-- An integer that is to be written out has too many digits. -/
  | unwritable
  | missing (path : Path)
  /-- No format goes with the ending of the name. -/
  | format (suffix : String)
  | invalidYaml (path : Path)
  | invalidToml (path : Path)
  | notUtf8 (cause : Text.Utf8Error)
  /-- Something in a document has no value. -/
  | unfit (message : String)
  /-- The reader of a document broke down. -/
  | breakdown (cause : Breakdown)
  | file (cause : FileError)
  /-- The table of tools cannot hold the settings. -/
  | toolsKind
  deriving DecidableEq, Repr

namespace SettingsFault

/-- The fault of a document that is not read, given the fault of one that is not in its format. -/
def ofReaderFault (malformed : SettingsFault) : ReaderFault → SettingsFault
  | .malformed => malformed
  | .notUtf8 cause => notUtf8 cause
  | .unfit message => unfit message
  | .breakdown cause => breakdown cause

/-- Whether the user is told about the fault in words. -/
def isReported : SettingsFault → Bool
  | workersInfinite | commandKind | toolsKind | breakdown _ => false
  | _ => true

/-- The wording of a fault. -/
def message : SettingsFault → String
  | notMapping => "config root must be a mapping"
  | workersKind literal => "workers must be an integer, got " ++ literal
  | workersTooFew n => "workers must be >= 1, got " ++ toString n
  | workersInfinite => "cannot convert float infinity to integer"
  | markersKind => "vendor_markers must be a list"
  | unknownPolicy name =>
    "trait_impl_policy must be one of " ++ String.intercalate ", " (Policy.all.map Policy.name) ++
      ": " ++ name
  | emptyCommand => "indexer.command must not be empty"
  | commandKind => "the command is not a list"
  | unwritable => Integer.unwritableMessage
  | missing path => "config file not found: " ++ path.toString
  | format suffix => "unsupported config file format: " ++ suffix
  | invalidYaml path => "invalid YAML in " ++ path.toString
  | invalidToml path => "invalid TOML in " ++ path.toString
  | notUtf8 cause => cause.message
  | unfit message => message
  | breakdown cause => cause.message
  | file cause => cause.message
  | toolsKind => "the table of tools is not a table"

end SettingsFault

end DeadSymbols
