import DeadSymbols.Settings.Reader
import DeadSymbols.Toml.Document
import DeadSymbols.Yaml.Document

/-!
# The readers of this library

The readers of YAML and TOML documents, which the program reads its settings with. A file of
settings is text in UTF-8, whose lines may end in several ways. Documents may nest as deep as they
want, so these readers never break down on the depth of one.
-/

namespace DeadSymbols

/-- What a fault of a YAML text is to a reader. -/
def YamlFault.toReaderFault : YamlFault → ReaderFault
  | .malformed => .malformed
  | .character => .unfit "chr() arg not in range(0x110000)"
  | .integer cause => .unfit (Integer.faultMessage cause)
  | .number text => .unfit ("could not convert string to float: " ++ Text.quoted text)
  | .calendar cause => .unfit cause.message
  | .characterNumber | .tooManyGroups => .breakdown .overflow
  | .emptyNumber => .breakdown .index
  | .truth => .breakdown .lookup
  | .timestamp => .breakdown .attribute
  | .timestampKind => .breakdown .kind

/-- What a fault of a TOML text is to a reader. -/
def TomlFault.toReaderFault : TomlFault → ReaderFault
  | .malformed => .malformed
  | .integer cause => .unfit (Integer.faultMessage cause)

namespace Readers

/-- The text of a YAML file, with one way of ending lines. The file is read in parts: a character
that breaks off at the end is met as a part of its own, so its place counts from its first byte. -/
def yamlText (content : Text.Bytes) : Except Text.Utf8Error String :=
  match Text.strictText content with
  | .ok text => .ok (String.ofList (Text.withLineFeeds true text.toList))
  | .error e => .error (if e.why = .ending then { e with position := 0 } else e)

/-- The reader of YAML files. -/
def ofYaml (content : Text.Bytes) : Except ReaderFault Value :=
  match yamlText content with
  | .error e => .error (.notUtf8 e)
  | .ok text => (Yaml.read text).mapError YamlFault.toReaderFault

/-- The reader of TOML files; they are read whole, so the place of a wrong byte counts from the
start. -/
def ofToml (content : Text.Bytes) : Except ReaderFault (List (Value × Value)) :=
  match Text.strictText content with
  | .error e => .error (.notUtf8 e)
  | .ok text => (Toml.read text).mapError TomlFault.toReaderFault

/-- The readers of this library. -/
def library : Readers := ⟨ofYaml, ofToml⟩

end Readers

end DeadSymbols
