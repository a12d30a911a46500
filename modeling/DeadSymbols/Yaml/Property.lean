import DeadSymbols.Yaml.Scan

/-!
# Scanning YAML: what stands between and before nodes

Blanks and comments between tokens, directives, and the anchors and tags that stand before a node.
-/

namespace DeadSymbols

namespace Yaml

/-! ## Between tokens -/

/-- Leaves out spaces, comments and ends of lines. -/
def skipToToken : Nat → Scan Unit
  | 0 => pure ()
  | fuel + 1 => do
    skipWhile (· == ' ')
    if (← peek) = '#' then skipWhile fun c => !isBreakOrEnd c
    if (← lineBreak) ≠ [] then
      if (← get).flow = 0 then allowKey true
      skipToToken fuel

/-- Leaves out the rest of a line that may hold a comment only. -/
def skipRestOfLine : Scan Unit := do
  skipWhile (· == ' ')
  if (← peek) = '#' then skipWhile fun c => !isBreakOrEnd c
  if !isBreakOrEnd (← peek) then fail
  let _ ← lineBreak

/-! ## Directives, anchors and tags -/

/-- A name that is not empty. -/
def name : Scan String := do
  let cs ← takeWhile isNameChar
  if cs.isEmpty then fail
  return String.ofList cs

/-- A number of a version. -/
def versionNumber : Scan Nat := do
  let cs ← takeWhile Text.isAsciiDigit
  if cs.isEmpty then fail
  if Integer.maxDigits < cs.length then throw (.integer (.tooLong cs.length))
  return Text.spelled 10 cs

/-- The bytes of a run of escapes in a tag. -/
def tagEscapes : Nat → Scan Text.Bytes
  | 0 => pure []
  | fuel + 1 => do
    if (← peek) ≠ '%' then return []
    skip 1
    let ds := (← get).rest.take 2
    if ds.length ≠ 2 || !ds.all Text.isHexDigit then fail
    skip 2
    return UInt8.ofNat (Text.spelled 16 ds) :: (← tagEscapes fuel)

/-- The characters of a tag. -/
def tagText : Nat → Scan (List Char)
  | 0 => pure []
  | fuel + 1 => do
    let c ← peek
    if !isTagChar c then return []
    if c = '%' then
      match Text.strictChars 0 (← tagEscapes fuel) with
      | .error _ => fail
      | .ok cs => return cs ++ (← tagText fuel)
    else
      skip 1
      return c :: (← tagText fuel)

/-- The characters of a tag, of which there has to be one at least. -/
def tagName : Scan String := do
  let s ← get
  let cs ← tagText (s.rest.length + 1)
  if (← get).index = s.index then fail
  return String.ofList cs

/-- The handle of a tag: an exclamation mark, or a name between two. -/
def tagHandle : Scan String := do
  if (← peek) ≠ '!' then fail
  if (← peekAt 1) = ' ' then
    skip 1
    return "!"
  let cs := (← get).rest.tail.takeWhile isNameChar
  if (← peekAt (cs.length + 1)) ≠ '!' then fail
  skip (cs.length + 2)
  return String.ofList ('!' :: cs ++ ['!'])

/-- A directive. -/
def directive : Scan Token := do
  skip 1
  let word ← name
  if !isSpaceOrEnd (← peek) then fail
  let d ←
    if word = "YAML" then do
      skipWhile (· == ' ')
      let major ← versionNumber
      if (← peek) ≠ '.' then fail
      skip 1
      let _ ← versionNumber
      if !isSpaceOrEnd (← peek) then fail
      pure (.version major)
    else if word = "TAG" then do
      skipWhile (· == ' ')
      let handle ← tagHandle
      if (← peek) ≠ ' ' then fail
      skipWhile (· == ' ')
      let expansion ← tagName
      if !isSpaceOrEnd (← peek) then fail
      pure (.tag handle expansion)
    else do
      skipWhile fun c => !isBreakOrEnd c
      pure .unknown
  skipRestOfLine
  return .directive d

/-- A character that may follow the name of an anchor or alias. -/
def isAfterName (c : Char) : Bool :=
  isBlankOrEnd c || c == Char.ofNat 125 || c == Char.ofNat 96 || "?:,]%@".toList.contains c

/-- The name after the sign of an anchor or alias. -/
def anchorName : Scan String := do
  skip 1
  let word ← name
  if !isAfterName (← peek) then fail
  return word

/-- A tag. -/
def tag : Scan Token := do
  let c ← peekAt 1
  let t ←
    if c = '<' then do
      skip 2
      let text ← tagName
      if (← peek) ≠ '>' then fail
      skip 1
      pure (.tag none text)
    else if isBlankOrEnd c then do
      skip 1
      pure (.tag none "!")
    else do
      let word := (← get).rest.tail.takeWhile fun c => !isSpaceOrEnd c
      let handle ← if word.contains '!' then tagHandle else do
        skip 1
        pure "!"
      pure (.tag (some handle) (← tagName))
  if !isSpaceOrEnd (← peek) then fail
  return t

end Yaml

end DeadSymbols
