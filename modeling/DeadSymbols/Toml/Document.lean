import DeadSymbols.Toml.Scalar

/-!
# TOML documents

A document is a sequence of statements: a key with a value, the header of a table, or the header of
the next table of a list. Keys of several parts reach into tables, which are made where missing.
What was written once stays as it is: a value is never replaced, a table gets one header, and
collections written inline are closed. Which tables have had their header, and which names are
closed, is kept beside the data.
-/

namespace DeadSymbols

namespace Toml

/-- The entries of a table. -/
abbrev Table := List (Value × Value)

/-- The parts of a key. -/
abbrev Key := List String

/-- The table changed at the end of a key, tables on the way made where missing. With `lists` a list
on the way leads to its last table. -/
def modifyAt (lists : Bool) (change : Table → Option Table) : Key → Table → Option Table
  | [], table => change table
  | part :: rest, table =>
    let put (v : Value) := Value.putEntry table (.text part) v
    match Value.entry? table part with
    | none => (modifyAt lists change rest []).map fun t => put (.map t)
    | some (.map inner) => (modifyAt lists change rest inner).map fun t => put (.map t)
    | some (.list items) =>
      match lists, items.getLast? with
      | true, some (.map inner) =>
        (modifyAt lists change rest inner).map fun t => put (.list (items.dropLast ++ [.map t]))
      | _, _ => none
    | some _ => none

/-- The table with a value written under a key that has none. -/
def insertAt (lists : Bool) (key : Key) (value : Value) (table : Table) : Option Table :=
  match key.getLast? with
  | none => none
  | some last =>
    modifyAt lists (fun t => match Value.entry? t last with
      | some _ => none
      | none => some (t ++ [(.text last, value)])) key.dropLast table

/-- The table with an empty table added to the list under a key. -/
def appendAt (key : Key) (table : Table) : Option Table :=
  match key.getLast? with
  | none => none
  | some last =>
    modifyAt true (fun t => match Value.entry? t last with
      | some (.list items) => some (Value.putEntry t (.text last) (.list (items ++ [.map []])))
      | some _ => none
      | none => some (t ++ [(.text last, .list [.map []])])) key.dropLast table

/-! ## What may still be written -/

/-- What is known about names. -/
structure Marks where
  /-- Names that are closed, with all names below them. -/
  closed : List Key
  /-- Tables that had their header. -/
  headed : List Key
  /-- Tables that count as headed from the next header on. -/
  pending : List Key

/-- Whether nothing can be written under a key any more. -/
def Marks.isClosed (m : Marks) (key : Key) : Bool :=
  m.closed.any fun k => k.isPrefixOf key

/-- Whether a table had its header. -/
def Marks.isHeaded (m : Marks) (key : Key) : Bool :=
  m.headed.contains key

/-- The marks without what concerns a key and the names below it. -/
def Marks.free (m : Marks) (key : Key) : Marks :=
  { m with
    closed := m.closed.filter fun k => !key.isPrefixOf k
    headed := m.headed.filter fun k => !key.isPrefixOf k }

/-- The marks in which pending tables count as headed. -/
def Marks.settle (m : Marks) : Marks :=
  { m with headed := m.pending ++ m.headed, pending := [] }

/-! ## Collections -/

/-- Leaves out a comment. -/
def skipComment : Reader Unit := do
  if ← startsWith "#" then
    let text ← takeWhile (· != '\n')
    if text.any isIllegal then fail

/-- Leaves out blanks, ends of lines and comments. -/
def skipBetweenItems : Nat → Reader Unit
  | 0 => pure ()
  | fuel + 1 => do
    skipWhile isSpaceOrLineEnd
    if ← startsWith "#" then
      skipComment
      skipBetweenItems fuel

/-- Whether a value is a collection. -/
def isCollection : Value → Bool
  | .list _ | .map _ => true
  | _ => false

mutual

/-- A value. Every value in a collection comes after a character of the collection, so the number of
characters bounds `fuel`. -/
def value : Nat → Reader Value
  | 0 => fail
  | fuel + 1 => do
    match ← peek with
    | some c =>
      if c = '"' || c = Text.singleQuote then return .text (← quotedText c true)
      else if c = '[' then
        skip 1
        skipBetweenItems fuel
        if ← startsWith "]" then
          skip 1
          return .list []
        return .list (← items fuel)
      else if c = Char.ofNat 123 then
        skip 1
        skipWhile isSpace
        if (← peek) = some (Char.ofNat 125) then
          skip 1
          return .map []
        return .map (← entries fuel [] [])
      else plainValue
    | none => fail

/-- The items of a list from one item on. -/
def items : Nat → Reader (List Value)
  | 0 => fail
  | fuel + 1 => do
    let v ← value fuel
    skipBetweenItems fuel
    match ← peek with
    | some ']' =>
      skip 1
      return [v]
    | some ',' =>
      skip 1
      skipBetweenItems fuel
      if ← startsWith "]" then
        skip 1
        return [v]
      return v :: (← items fuel)
    | _ => fail

/-- The entries of an inline table from one entry on, added to a table. -/
def entries : Nat → Table → List Key → Reader Table
  | 0, _, _ => fail
  | fuel + 1, table, closed => do
    let k ← key
    if !(← startsWith "=") then fail
    skip 1
    skipWhile isSpace
    let v ← value fuel
    if closed.any fun c => c.isPrefixOf k then fail
    match insertAt false k v table with
    | none => fail
    | some table' =>
      skipWhile isSpace
      match ← peek with
      | some c =>
        skip 1
        if c = Char.ofNat 125 then return table'
        else if c = ',' then
          skipWhile isSpace
          entries fuel table' (if isCollection v then k :: closed else closed)
        else fail
      | none => fail

end

/-! ## Statements -/

/-- A document as far as it was read. -/
structure State where
  table : Table
  marks : Marks
  /-- The table that entries go to. -/
  header : Key

/-- Reads the header of a table. -/
def tableHeader (s : State) : Reader State := do
  skip 1
  skipWhile isSpace
  let k ← key
  if s.marks.isHeaded k || s.marks.isClosed k then fail
  match modifyAt true some k s.table with
  | none => fail
  | some table =>
    if !(← startsWith "]") then fail
    skip 1
    return ⟨table, { s.marks with headed := k :: s.marks.headed }, k⟩

/-- Reads the header of the next table of a list. -/
def listHeader (s : State) : Reader State := do
  skip 2
  skipWhile isSpace
  let k ← key
  if s.marks.isClosed k then fail
  let marks := s.marks.free k
  match appendAt k s.table with
  | none => fail
  | some table =>
    if !(← startsWith "]]") then fail
    skip 2
    return ⟨table, { marks with headed := k :: marks.headed }, k⟩

/-- The keys of the tables between a header and the last part of a key. -/
def keysOnTheWay (header key : Key) : List Key :=
  (List.range (key.length - 1)).map fun n => header ++ key.take (n + 1)

/-- Reads a key with its value. -/
def assignment (s : State) : Reader State := do
  let k ← key
  if !(← startsWith "=") then fail
  skip 1
  skipWhile isSpace
  let v ← value ((← get).length + 1)
  let between := keysOnTheWay s.header k
  if between.any s.marks.isHeaded then fail
  if s.marks.isClosed (s.header ++ k.dropLast) then fail
  match insertAt true (s.header ++ k) v s.table with
  | none => fail
  | some table =>
    let marks := { s.marks with pending := between ++ s.marks.pending }
    let marks :=
      if isCollection v then { marks with closed := (s.header ++ k) :: marks.closed } else marks
    return ⟨table, marks, s.header⟩

/-- Reads statements up to the end. Every statement takes a character at least. -/
def statements : Nat → State → Reader Table
  | 0, _ => fail
  | fuel + 1, s => do
    skipWhile isSpace
    match ← peek with
    | none => return s.table
    | some c =>
      if c = '\n' then
        skip 1
        statements fuel s
      else
        let s ←
          if isBareKeyChar c || c = '"' || c = Text.singleQuote then assignment s
          else if c = '[' then
            let s := { s with marks := s.marks.settle }
            if ← startsWith "[[" then listHeader s else tableHeader s
          else if c = '#' then pure s
          else fail
        skipWhile isSpace
        skipComment
        match ← peek with
        | none => return s.table
        | some c =>
          if c ≠ '\n' then fail
          skip 1
          statements fuel s

/-- The table that a text spells. -/
def read (text : String) : Except TomlFault Table :=
  let cs := Text.withLineFeeds false text.toList
  ((statements (cs.length + 1) ⟨[], ⟨[], [], []⟩, []⟩).run cs).map (·.1)

end Toml

end DeadSymbols
