import DeadSymbols.Settings.Document

/-!
# Files of settings

Settings are kept in a YAML file or in a TOML file, and the ending of the name says in which. If no
file is named, a directory is searched for files of known names. The project file of some build
tools counts only if it has a table of settings for this tool.

The readers of the two formats and the number of processors are given by the caller.
-/

namespace DeadSymbols.Settings

/-- The names of the files that are searched for, the first that is there being taken. -/
def fileNames : List String :=
  ["deadsym.yaml", "deadsym.yml", ".deadsym.yaml", ".deadsym.yml"]

/-- The project file, which is searched for last. -/
def projectFileName : String := "pyproject.toml"

/-- The name of the table of settings inside the table of tools. -/
def toolName : String := "deadsym"

/-- The content of a file. -/
def contentOf (files : FileTree) (path : Path) : Except SettingsFault Text.Bytes :=
  (files.read path).mapError .file

section

variable (readers : Readers) (processors : Option Nat)

/-- The document in a YAML file. -/
def yamlDocument (path : Path) (content : Text.Bytes) : Except SettingsFault Value :=
  (readers.yaml content).mapError (.ofReaderFault (.invalidYaml path))

/-- The document in a TOML file. -/
def tomlDocument (path : Path) (content : Text.Bytes) : Except SettingsFault Entries :=
  (readers.toml content).mapError (.ofReaderFault (.invalidToml path))

/-- Whether a table of tools has an entry for this one. A text has it if the name occurs in it, and
a collection if it is one of its items. -/
def hasTool (tools : Value) : Except SettingsFault Bool :=
  match tools with
  | .map entries => .ok (Value.entry? entries toolName).isSome
  | .text s => .ok (Text.occursIn toolName s)
  | .list items => .ok (items.any (·.sameKey (.text toolName)))
  | .set items => .ok (items.any (·.sameKey (.text toolName)))
  | .pair a b => .ok ([a, b].any (·.sameKey (.text toolName)))
  | _ => .error .toolsKind

/-- Whether a document has settings in its table of tools. -/
def hasSettings (document : Entries) : Except SettingsFault Bool :=
  match Value.entry? document "tool" with
  | some tools => hasTool tools
  | none => .ok false

/-- The settings in a TOML document: those in the table of tools or, if there are none, the whole
document. -/
def tomlSettings (document : Entries) : Except SettingsFault Value := do
  if ← hasSettings document then
    match Value.entry? document "tool" with
    | some (.map tools) => return (Value.entry? tools toolName).getD .null
    | _ => throw .toolsKind
  else return .map document

/-- The settings in a file. -/
def ofFile (files : FileTree) (path : Path) : Except SettingsFault Settings := do
  if !(← (files.has path).mapError SettingsFault.file) then throw (.missing path)
  let suffix := Text.lowerCase path.suffix
  if suffix = ".yaml" || suffix = ".yml" then
    let document ← yamlDocument readers path (← contentOf files path)
    if document.isFalsy then return default processors
    ofValue processors document
  else if suffix = ".toml" then
    ofValue processors (← tomlSettings (← tomlDocument readers path (← contentOf files path)))
  else throw (.format suffix)

/-- Whether a project file has settings. One that cannot be read, or is not TOML, has none. -/
def isProjectFile (files : FileTree) (path : Path) : Except SettingsFault Bool :=
  match (contentOf files path).bind (tomlDocument readers path) with
  | .error (.file _) | .error (.invalidToml _) => .ok false
  | .error fault => .error fault
  | .ok document => hasSettings document

/-- The file of settings in a directory. -/
def find (files : FileTree) (directory : Path) : Except SettingsFault (Option Path) := do
  let isThere (name : String) : Except SettingsFault Bool :=
    (files.has (directory.child name)).mapError .file
  match ← fileNames.findM? isThere with
  | some name => return some (directory.child name)
  | none =>
    let project := directory.child projectFileName
    if !(← isThere projectFileName) then return none
    return if ← isProjectFile readers files project then some project else none

/-- The settings in the file that is named or, if none is, in the one found in a directory. -/
def load (files : FileTree) (named : Option Path) (directory : Path) :
    Except SettingsFault Settings := do
  match named with
  | some path => ofFile readers processors files path
  | none =>
    match ← find readers files directory with
    | some path => ofFile readers processors files path
    | none => return default processors

end

end DeadSymbols.Settings
