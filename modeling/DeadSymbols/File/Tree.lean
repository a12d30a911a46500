import DeadSymbols.File.Path
import DeadSymbols.Text.Quoted
import DeadSymbols.Text.Utf8

/-!
# File trees

The files a run can see, as a value: what stands at each location, and the location that relative
paths start from. There are no links, so a location is the list of names from the top. Every
operation gives a new tree or says why it cannot be done, with the path it was asked about.
-/

namespace DeadSymbols

/-- The names from the top of the tree down to a file or directory. -/
abbrev Location := List String

/-- What stands at a location. -/
inductive Entry
  | file (content : Text.Bytes)
  | directory
  deriving DecidableEq, Repr

/-- Why an operation on a path cannot be done. -/
inductive FileFault
  | missing
  | present
  | notDirectory
  | isDirectory
  | nameTooLong
  /-- The path holds a character that no path may hold. -/
  | nul
  deriving DecidableEq, Repr

/-- A fault with the path that the operation was about. -/
structure FileError where
  fault : FileFault
  path : Path
  deriving DecidableEq, Repr

/-- The system's number and wording of a fault. -/
def FileFault.describe : FileFault → String
  | .missing => "[Errno 2] No such file or directory"
  | .present => "[Errno 17] File exists"
  | .notDirectory => "[Errno 20] Not a directory"
  | .isDirectory => "[Errno 21] Is a directory"
  | .nameTooLong => "[Errno 36] File name too long"
  | .nul => "embedded null byte"

/-- The wording of an error. -/
def FileError.message (e : FileError) : String :=
  match e.fault with
  | .nul => e.fault.describe
  | _ => e.fault.describe ++ ": " ++ Text.quoted e.path.toString

/-- Whether the system itself refused, as opposed to a path that was never handed to it. -/
def FileError.isSystem (e : FileError) : Bool := e.fault != .nul

/-- What stands where. The top is always a directory. -/
structure FileTree where
  /-- The location that relative paths start from. -/
  cwd : Location
  entries : List (Location × Entry)
  deriving DecidableEq, Repr

namespace FileTree

/-- A tree with no files in which the location is a directory. -/
def bare (cwd : Location) : FileTree :=
  ⟨cwd, (List.range cwd.length).map fun n => (cwd.take (n + 1), .directory)⟩

/-- What stands at a location. -/
def entry? (t : FileTree) (place : Location) : Option Entry :=
  if place.isEmpty then some .directory else t.entries.lookup place

/-- The greatest number of bytes of one name. -/
def maxName : Nat := 255

/-- The number of bytes that no path reaches. -/
def maxPath : Nat := 4096

/-- The location that names lead to from a location; every location on the way but the last has to
be a directory. -/
def walk (t : FileTree) (start : Location) : List String → Except FileFault Location
  | [] => .ok start
  | name :: rest =>
    match t.entry? start with
    | none => .error .missing
    | some (.file _) => .error .notDirectory
    | some .directory =>
      if maxName < name.utf8ByteSize then .error .nameTooLong
      else if name = ".." then walk t start.dropLast rest
      else walk t (start ++ [name]) rest

/-- The location a path leads to, whether or not something stands there. -/
def locate (t : FileTree) (p : Path) : Except FileFault Location :=
  if p.holdsNul then .error .nul
  else if maxPath ≤ p.toString.utf8ByteSize then .error .nameTooLong
  else t.walk (if p.isAbsolute then [] else t.cwd) p.parts

/-- What stands at a path. -/
def stat (t : FileTree) (p : Path) : Except FileError Entry :=
  match t.locate p with
  | .error fault => .error ⟨fault, p⟩
  | .ok place =>
    match t.entry? place with
    | none => .error ⟨.missing, p⟩
    | some entry => .ok entry

/-- Whether something that satisfies the test stands at a path. A path on which nothing can stand
answers no; any other refusal of the system is an error. -/
def holds (t : FileTree) (test : Entry → Bool) (p : Path) : Except FileError Bool :=
  match t.stat p with
  | .ok entry => .ok (test entry)
  | .error e =>
    match e.fault with
    | .missing | .notDirectory | .nul => .ok false
    | _ => .error e

/-- Whether something stands at a path. -/
def has (t : FileTree) (p : Path) : Except FileError Bool :=
  t.holds (fun _ => true) p

/-- Whether a directory stands at a path. -/
def hasDirectory (t : FileTree) (p : Path) : Except FileError Bool :=
  t.holds (fun | .directory => true | .file _ => false) p

/-- The content of the file at a path. -/
def read (t : FileTree) (p : Path) : Except FileError Text.Bytes :=
  match t.stat p with
  | .error e => .error e
  | .ok .directory => .error ⟨.isDirectory, p⟩
  | .ok (.file content) => .ok content

/-- The name under which an entry stands directly in a directory. -/
def nameIn? (directory : Location) (place : Location) : Option String :=
  match place.getLast? with
  | some name => if place.dropLast = directory then some name else none
  | none => none

/-- The names that stand directly in the directory at a location, each once. -/
def namesIn (t : FileTree) (place : Location) : List String :=
  (t.entries.filterMap fun e => nameIn? place e.1).eraseDups

/-- The names that stand directly in the directory at a location, with what stands there. -/
def entriesIn (t : FileTree) (place : Location) : List (String × Entry) :=
  (t.namesIn place).filterMap fun name =>
    (t.entry? (place ++ [name])).map fun entry => (name, entry)

/-- The names in the directory at a path, with what stands there. -/
def list (t : FileTree) (p : Path) : Except FileError (List (String × Entry)) :=
  match t.locate p with
  | .error fault => .error ⟨fault, p⟩
  | .ok place =>
    match t.entry? place with
    | none => .error ⟨.missing, p⟩
    | some (.file _) => .error ⟨.notDirectory, p⟩
    | some .directory => .ok (t.entriesIn place)

/-- The tree with an entry put at a location. -/
def put (t : FileTree) (place : Location) (entry : Entry) : FileTree :=
  { t with entries := t.entries.filter (fun e => e.1 != place) ++ [(place, entry)] }

/-- The tree with a file written. The directory it goes to has to be there. -/
def write (t : FileTree) (p : Path) (content : Text.Bytes) : Except FileError FileTree :=
  match t.locate p with
  | .error fault => .error ⟨fault, p⟩
  | .ok place =>
    match t.entry? place with
    | some .directory => .error ⟨.isDirectory, p⟩
    | some (.file _) => .ok (t.put place (.file content))
    | none =>
      match t.entry? place.dropLast with
      | some .directory => .ok (t.put place (.file content))
      | some (.file _) => .error ⟨.notDirectory, p⟩
      | none => .error ⟨.missing, p⟩

/-- The tree without the file at a path. -/
def remove (t : FileTree) (p : Path) : Except FileError FileTree :=
  match t.locate p with
  | .error fault => .error ⟨fault, p⟩
  | .ok place =>
    match t.entry? place with
    | none => .error ⟨.missing, p⟩
    | some .directory => .error ⟨.isDirectory, p⟩
    | some (.file _) => .ok { t with entries := t.entries.filter fun e => e.1 != place }

/-- The tree with one new directory. -/
def makeDirectory (t : FileTree) (p : Path) : Except FileError FileTree :=
  match t.locate p with
  | .error fault => .error ⟨fault, p⟩
  | .ok place =>
    match t.entry? place with
    | some _ => .error ⟨.present, p⟩
    | none =>
      match t.entry? place.dropLast with
      | some .directory => .ok (t.put place .directory)
      | some (.file _) => .error ⟨.notDirectory, p⟩
      | none => .error ⟨.missing, p⟩

/-- The tree with a directory at the path and at all paths above it, made where missing; `depth`
bounds the number of paths above. -/
def makeDirectoriesAux : Nat → FileTree → Path → Except FileError FileTree
  | depth, t, p =>
    match t.makeDirectory p with
    | .ok t' => .ok t'
    | .error e =>
      match e.fault, depth with
      | .missing, depth + 1 =>
        if p.parent = p then .error e
        else
          match makeDirectoriesAux depth t p.parent with
          | .error e' => .error e'
          | .ok t' =>
            match t'.makeDirectory p with
            | .ok t'' => .ok t''
            | .error e' =>
              match t'.hasDirectory p with
              | .ok true => .ok t'
              | _ => .error e'
      | _, _ =>
        match t.hasDirectory p with
        | .ok true => .ok t
        | _ => .error e

/-- The tree with a directory at the path and at all paths above it. -/
def makeDirectories (t : FileTree) (p : Path) : Except FileError FileTree :=
  makeDirectoriesAux p.parts.length t p

/-- The tree with an entry at the path and directories at all paths above it. -/
def create (t : FileTree) (p : Path) (entry : Entry) : Except FileError FileTree :=
  match entry with
  | .directory => t.makeDirectories p
  | .file content =>
    match t.makeDirectories p.parent with
    | .error e => .error e
    | .ok t' => t'.write p content

end FileTree

end DeadSymbols
