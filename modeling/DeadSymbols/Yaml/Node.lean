import DeadSymbols.Yaml.Lexer
import DeadSymbols.Yaml.Scalar

/-!
# YAML nodes

The tokens of a document form a tree of scalars, sequences and mappings, each with its tag. A node
may be given a name, an anchor, and an alias stands for the node that was last given its name. A
collection that holds itself, which an alias inside the node that it names would make, is no finite
tree and is left out: there the alias stands for a collection of that kind without content.
-/

namespace DeadSymbols.Yaml

/-- A node of a document. -/
inductive Node
  | scalar (tag : Tag) (text : String)
  | sequence (tag : Tag) (items : List Node)
  | mapping (tag : Tag) (entries : List (Node × Node))
  deriving Repr

/-- The tag of a node. -/
def Node.tag : Node → Tag
  | .scalar tag _ => tag
  | .sequence tag _ => tag
  | .mapping tag _ => tag

/-- The node without text. -/
def Node.empty : Node := .scalar .null ""

/-- What is known while the nodes of a document are read. -/
structure Reading where
  tokens : List Token
  /-- The fault that is met after the last token, if there is no end of the text. -/
  fault : YamlFault
  anchors : List (String × Node)
  /-- The beginnings of tags that handles stand for. -/
  handles : List (String × String)

/-- A step of the reading. -/
abbrev Read := StateT Reading (Except YamlFault)

namespace Read

/-- Gives up. -/
def fail {α : Type} : Read α := throw .malformed

/-- The next token. -/
def peek : Read Token := do
  let r ← get
  match r.tokens with
  | t :: _ => return t
  | [] => throw r.fault

/-- Leaves a token out. -/
def skip : Read Unit := modify fun r => { r with tokens := r.tokens.tail }

/-- Whether the next token is one of some. -/
def next (ts : List Token) : Read Bool := return ts.contains (← peek)

/-- What stands before a node. -/
structure Properties where
  anchor : Option String
  tag : Option String

/-- The full name of a tag. -/
def tagName (handle : Option String) (name : String) : Read String := do
  match handle with
  | none => return name
  | some h =>
    match (← get).handles.lookup h with
    | some start => return start ++ name
    | none => fail

/-- The anchor and the tag before a node, in either order. -/
def properties : Read Properties := do
  match ← peek with
  | .anchor a =>
    skip
    match ← peek with
    | .tag h n =>
      skip
      return ⟨some a, some (← tagName h n)⟩
    | _ => return ⟨some a, none⟩
  | .tag h n =>
    skip
    match ← peek with
    | .anchor a =>
      skip
      return ⟨some a, some (← tagName h n)⟩
    | _ => return ⟨none, some (← tagName h n)⟩
  | _ => return ⟨none, none⟩

/-- The tag that is written before a node; a lone exclamation mark is none. -/
def Properties.tag? (p : Properties) : Option Tag :=
  match p.tag with
  | some "!" => none
  | some name => some (Tag.ofName name)
  | none => none

/-- The tag of a scalar: the one that is written, or the one its form gives it, if its form
counts. -/
def Properties.scalarTag (p : Properties) (text : String) (plain : Bool) : Tag :=
  p.tag?.getD (if plain || p.tag.isSome then implicitTag text else .str)

/-- Gives a node its name, which no node has yet. -/
def declare (p : Properties) (n : Node) : Read Unit := do
  match p.anchor with
  | none => pure ()
  | some a =>
    if ((← get).anchors.lookup a).isSome then fail
    modify fun r => { r with anchors := (a, n) :: r.anchors }

/-- Gives a collection its name after its content was read. -/
def complete (p : Properties) (n : Node) : Read Node := do
  match p.anchor with
  | none => pure ()
  | some a => modify fun r => { r with anchors := (a, n) :: r.anchors }
  return n

/-- A sequence, given how its items are read. -/
def sequenceOf (p : Properties) (items : Read (List Node)) : Read Node := do
  let tag := p.tag?.getD .seq
  declare p (.sequence tag [])
  complete p (.sequence tag (← items))

/-- A mapping, given how its entries are read. -/
def mappingOf (p : Properties) (entries : Read (List (Node × Node))) : Read Node := do
  let tag := p.tag?.getD .map
  declare p (.mapping tag [])
  complete p (.mapping tag (← entries))

/-- A scalar. -/
def scalarOf (p : Properties) (text : String) (plain : Bool) : Read Node := do
  let n := Node.scalar (p.scalarTag text plain) text
  declare p n
  return n

/-- A node that is empty if one of some tokens follows. -/
def unlessNext (ts : List Token) (n : Read Node) : Read Node := do
  if ← next ts then return .empty else n

/-- The node after a value sign; without the sign it is empty. -/
def valueUnlessNext (ts : List Token) (n : Read Node) : Read Node := do
  if ← next [.value] then
    skip
    unlessNext ts n
  else return .empty

mutual

/-- A node. Block collections are looked for if `block` is set, and a block sequence that is not
indented more than the mapping around it if `flush` is. -/
def node : Nat → Bool → Bool → Read Node
  | 0, _, _ => fail
  | fuel + 1, block, flush => do
    match ← peek with
    | .alias name =>
      skip
      match (← get).anchors.lookup name with
      | some n => return n
      | none => fail
    | _ =>
      let p ← properties
      let t ← peek
      if flush && t = .blockEntry then sequenceOf p (flushSequence fuel)
      else
        match t with
        | .scalar text plain =>
          skip
          scalarOf p text plain
        | .flowSequenceStart =>
          skip
          sequenceOf p (flowSequence fuel true)
        | .flowMappingStart =>
          skip
          mappingOf p (flowMapping fuel true)
        | .blockSequenceStart =>
          if !block then fail
          skip
          sequenceOf p (blockSequence fuel)
        | .blockMappingStart =>
          if !block then fail
          skip
          mappingOf p (blockMapping fuel)
        | _ => if p.anchor.isSome || p.tag.isSome then scalarOf p "" true else fail

/-- The items of a block sequence. -/
def blockSequence : Nat → Read (List Node)
  | 0 => fail
  | fuel + 1 => do
    if ← next [.blockEntry] then
      skip
      let item ← unlessNext [.blockEntry, .blockEnd] (node fuel true false)
      return item :: (← blockSequence fuel)
    if !(← next [.blockEnd]) then fail
    skip
    return []

/-- The items of a block sequence that no mark ends. -/
def flushSequence : Nat → Read (List Node)
  | 0 => fail
  | fuel + 1 => do
    if ← next [.blockEntry] then
      skip
      let item ← unlessNext [.blockEntry, .key, .value, .blockEnd] (node fuel true false)
      return item :: (← flushSequence fuel)
    return []

/-- The entries of a block mapping. -/
def blockMapping : Nat → Read (List (Node × Node))
  | 0 => fail
  | fuel + 1 => do
    if ← next [.key] then
      skip
      let key ← unlessNext [.key, .value, .blockEnd] (node fuel true true)
      let value ← valueUnlessNext [.key, .value, .blockEnd] (node fuel true true)
      return (key, value) :: (← blockMapping fuel)
    if !(← next [.blockEnd]) then fail
    skip
    return []

/-- The items of a flow sequence. A key sign starts a mapping of one entry. -/
def flowSequence : Nat → Bool → Read (List Node)
  | 0, _ => fail
  | fuel + 1, first => do
    if !first && !(← next [.flowSequenceEnd]) then
      if !(← next [.flowEntry]) then fail
      skip
    if ← next [.flowSequenceEnd] then
      skip
      return []
    if ← next [.key] then
      skip
      let key ← unlessNext [.value, .flowEntry, .flowSequenceEnd] (node fuel false false)
      let value ← valueUnlessNext [.flowEntry, .flowSequenceEnd] (node fuel false false)
      return .mapping .map [(key, value)] :: (← flowSequence fuel false)
    let item ← node fuel false false
    return item :: (← flowSequence fuel false)

/-- The entries of a flow mapping. A node without a sign is a key without value. -/
def flowMapping : Nat → Bool → Read (List (Node × Node))
  | 0, _ => fail
  | fuel + 1, first => do
    if !first && !(← next [.flowMappingEnd]) then
      if !(← next [.flowEntry]) then fail
      skip
    if ← next [.flowMappingEnd] then
      skip
      return []
    if ← next [.key] then
      skip
      let key ← unlessNext [.value, .flowEntry, .flowMappingEnd] (node fuel false false)
      let value ← valueUnlessNext [.flowEntry, .flowMappingEnd] (node fuel false false)
      return (key, value) :: (← flowMapping fuel false)
    let key ← node fuel false false
    return (key, .empty) :: (← flowMapping fuel false)

end

/-! ## Documents -/

/-- The handles that need no directive. -/
def defaultHandles : List (String × String) := [("!", "!"), ("!!", Tag.family)]

/-- The directives before a document. A version is told once, and a handle explained once. -/
def directives : Nat → Bool → List (String × String) → Read (List (String × String))
  | 0, _, _ => fail
  | fuel + 1, versioned, handles => do
    match ← peek with
    | .directive d =>
      skip
      match d with
      | .version major =>
        if versioned || major ≠ 1 then fail
        directives fuel true handles
      | .tag handle expansion =>
        if (handles.lookup handle).isSome then fail
        directives fuel versioned (handles ++ [(handle, expansion)])
      | .unknown => directives fuel versioned handles
    | _ => return handles

/-- Leaves out the ends of documents. -/
def skipEnds : Nat → Read Unit
  | 0 => pure ()
  | fuel + 1 => do
    if ← next [.documentEnd] then
      skip
      skipEnds fuel

/-- Whether the document goes on with something other than a node. -/
def atBoundary : Read Bool := do
  match ← peek with
  | .directive _ => return true
  | t => return [.documentStart, .documentEnd, .textEnd].contains t

/-- The root of the only document of a text; a text may hold none. -/
def root (fuel : Nat) : Read (Option Node) := do
  let explicit ←
    match ← peek with
    | .directive _ => pure true
    | t => pure ([.documentStart, .textEnd].contains t)
  let found ←
    if explicit then do
      if ← next [.textEnd] then pure none
      else do
        let handles ← directives fuel false []
        if !(← next [.documentStart]) then fail
        skip
        modify fun r => { r with handles := handles ++ defaultHandles }
        if ← atBoundary then pure (some Node.empty) else some <$> node fuel true false
    else some <$> node fuel true false
  skipEnds fuel
  if !(← next [.textEnd]) then fail
  return found

end Read

/-- The root of the only document of a text. -/
def Node.ofString (text : String) : Except YamlFault (Option Node) :=
  let (ts, fault) := tokens text
  let start : Reading := ⟨ts, fault.getD .malformed, [], Read.defaultHandles⟩
  ((Read.root (3 * ts.length + 3)).run start).map (·.1)

end DeadSymbols.Yaml
