import DeadSymbols.Yaml.Node

/-!
# YAML documents

The value of a document is built level by level: the scalars of a collection are read before the
collections in it are looked into, so of several faults the one nearest to the root is told.

A mapping may merge other mappings into itself. What is merged comes first and gives way to what the
mapping itself says.
-/

namespace DeadSymbols.Yaml

/-- The entries of a mapping after its merges; `fuel` bounds the depth of the node. The key `=` is a
text like others. -/
def flatten : Nat → List (Node × Node) → Except YamlFault (List (Node × Node))
  | 0, _ => .error .malformed
  | fuel + 1, entries => do
    let parts ← entries.mapM fun (key, value) =>
      match key, value with
      | .scalar .value text, _ => pure ([], [(Node.scalar .str text, value)])
      | key, value =>
        if key.tag ≠ .merge then pure ([], [(key, value)])
        else
          match value with
          | .mapping _ inner => do return (← flatten fuel inner, [])
          | .sequence _ items => do
            let each ← items.mapM fun item =>
              match item with
              | .mapping _ inner => flatten fuel inner
              | _ => .error .malformed
            return (each.reverse.flatten, [])
          | _ => .error .malformed
    return parts.flatMap (·.1) ++ parts.flatMap (·.2)

/-- The text of a node that has to be a scalar. A mapping may hold it under the key `=`. -/
def text? : Nat → Node → Option String
  | _, .scalar _ text => some text
  | 0, _ => none
  | fuel + 1, .mapping _ entries =>
    match entries.find? fun (key, _) => key.tag = .value with
    | some (_, value) => text? fuel value
    | none => none
  | _, .sequence _ _ => none

/-- The value of a node under a tag for scalars. A timestamp has to be a scalar itself. -/
def atomValue (fuel : Nat) (n : Node) : Except YamlFault Value :=
  match n, text? fuel n with
  | _, none => .error .malformed
  | .mapping .timestamp _, some _ => .error .timestampKind
  | n, some text => scalarValue n.tag text

/-- What a collection holds: its items, or its entries with the check that each key can be one. -/
inductive Content
  | items (nodes : List Node)
  | entries (pairs : List (Node × Node)) (keyed : Bool)

/-- The content of a node under a tag for collections. -/
def content (fuel : Nat) (n : Node) : Except YamlFault Content :=
  match n.tag, n with
  | .seq, .sequence _ items => .ok (.items items)
  | .map, .mapping _ entries => do return .entries (← flatten fuel entries) true
  | .set, .mapping _ entries => do return .entries (← flatten fuel entries) true
  | .omap, .sequence _ items => singles items
  | .pairs, .sequence _ items => singles items
  | _, _ => .error .malformed
where
  /-- The entries of mappings with one entry each. -/
  singles (items : List Node) : Except YamlFault Content := do
    let pairs ← items.mapM fun item =>
      match item with
      | .mapping _ [pair] => .ok pair
      | _ => .error .malformed
    return .entries pairs false

/-- Checks a node and gives it back if its content is left to check. -/
def checkHead (fuel : Nat) (n : Node) : Except YamlFault (List Node) :=
  if n.tag.isCollection then .ok [n]
  else do
    let _ ← atomValue fuel n
    return []

/-- Checks the content of a collection and gives the collections in it. -/
def checkContent (fuel : Nat) (n : Node) : Except YamlFault (List Node) := do
  match ← content fuel n with
  | .items nodes => return (← nodes.mapM (checkHead fuel)).flatten
  | .entries pairs keyed =>
    let each ← pairs.mapM fun (key, value) => do
      let first ← checkHead fuel key
      if keyed && !first.isEmpty then throw .malformed
      return first ++ (← checkHead fuel value)
    return each.flatten

/-- Checks collections level by level. -/
def checkLevels (depth : Nat) : Nat → List Node → Except YamlFault Unit
  | _, [] => .ok ()
  | 0, _ => .error .malformed
  | fuel + 1, nodes => do
    let inner ← nodes.mapM (checkContent depth)
    checkLevels depth fuel inner.flatten

/-- Items without those that equal an earlier one. -/
def distinct (values : List Value) : List Value :=
  values.foldl (fun kept v => if kept.any (·.sameKey v) then kept else kept ++ [v]) []

/-- The value of a node. -/
def value (depth : Nat) : Nat → Node → Except YamlFault Value
  | 0, _ => .error .malformed
  | fuel + 1, n => do
    if !n.tag.isCollection then return ← atomValue depth n
    match ← content depth n with
    | .items nodes => return .list (← nodes.mapM (value depth fuel))
    | .entries pairs _ =>
      let pairs ← pairs.mapM fun (k, v) => do return (← value depth fuel k, ← value depth fuel v)
      match n.tag with
      | .map => return .map (pairs.foldl (fun es (k, v) => Value.putEntry es k v) [])
      | .set => return .set (distinct (pairs.map (·.1)))
      | _ => return .list (pairs.map fun (k, v) => .pair k v)

/-- The value of the only document of a text, nothing for a text without document. The length of
the text bounds the depth of its nodes. -/
def read (text : String) : Except YamlFault Value := do
  match ← Node.ofString text with
  | none => return .null
  | some root =>
    let depth := text.length + 1
    checkLevels depth depth (← checkHead depth root)
    value depth depth root

end DeadSymbols.Yaml
