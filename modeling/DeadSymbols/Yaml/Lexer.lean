import DeadSymbols.Yaml.Content

/-!
# Scanning YAML: all tokens of a text

The first characters of a token tell what it is. The tokens of a text are scanned one after another
until the text or the grammar ends.
-/

namespace DeadSymbols

namespace Yaml

/-! ## Tokens -/

/-- The value sign. A place remembered at this level turns out to be a key. -/
def fetchValue : Scan Unit := do
  let s ← get
  match s.keys.lookup s.flow with
  | some k =>
    set { s with keys := s.keys.filter fun (level, _) => level != s.flow }
    insertToken k.tokens .key
    if s.flow = 0 then
      if ← addIndent k.column then insertToken k.tokens .blockMappingStart
    allowKey false
  | none =>
    if s.flow = 0 then
      if !s.keyAllowed then fail
      if ← addIndent s.column then emit .blockMappingStart
    allowKey (s.flow == 0)
    dropKey
  skip 1
  emit .value

/-- A sign that starts an entry of a block collection, which may be the first. -/
def fetchBlockSign (opening sign : Token) (keyAfter : Bool) : Scan Unit := do
  let s ← get
  if s.flow = 0 then
    if !s.keyAllowed then fail
    if ← addIndent s.column then emit opening
  allowKey keyAfter
  dropKey
  skip 1
  emit sign

/-- A sign that opens a flow collection. -/
def fetchOpening (t : Token) : Scan Unit := do
  saveKey
  modify fun s => { s with flow := s.flow + 1 }
  allowKey true
  skip 1
  emit t

/-- A sign that closes a flow collection. -/
def fetchClosing (t : Token) : Scan Unit := do
  dropKey
  modify fun s => { s with flow := s.flow - 1 }
  allowKey false
  skip 1
  emit t

/-- What may be a key by itself. -/
def fetchKeyLike (scan : Scan Token) : Scan Unit := do
  saveKey
  allowKey false
  emit (← scan)

/-- A separator of documents, or a directive. -/
def fetchOutside (scan : Scan Token) : Scan Unit := do
  unwind (-1)
  dropKey
  allowKey false
  emit (← scan)

/-- Adds the next token; answers whether there are more. -/
def fetch : Scan Bool := do
  skipToToken ((← get).rest.length + 1)
  dropStaleKeys
  unwind (← get).column
  let s ← get
  let c ← peek
  let next ← peekAt 1
  let inFlow := s.flow != 0
  if s.rest.isEmpty then
    unwind (-1)
    dropKey
    emit .textEnd
    return false
  if c = '%' && s.column = 0 then fetchOutside directive
  else if c = '-' && s.column = 0 && (← atSeparator) then
    fetchOutside (do skip 3; pure .documentStart)
  else if c = '.' && s.column = 0 && (← atSeparator) then
    fetchOutside (do skip 3; pure .documentEnd)
  else if c = '[' then fetchOpening .flowSequenceStart
  else if c = Char.ofNat 123 then fetchOpening .flowMappingStart
  else if c = ']' then fetchClosing .flowSequenceEnd
  else if c = Char.ofNat 125 then fetchClosing .flowMappingEnd
  else if c = ',' then
    allowKey true
    dropKey
    skip 1
    emit .flowEntry
  else if c = '-' && isBlankOrEnd next then fetchBlockSign .blockSequenceStart .blockEntry true
  else if c = '?' && (inFlow || isBlankOrEnd next) then
    fetchBlockSign .blockMappingStart .key (!inFlow)
  else if c = ':' && (inFlow || isBlankOrEnd next) then fetchValue
  else if c = '*' then fetchKeyLike (.alias <$> anchorName)
  else if c = '&' then fetchKeyLike (.anchor <$> anchorName)
  else if c = '!' then fetchKeyLike tag
  else if (c = '|' || c = '>') && !inFlow then
    allowKey true
    dropKey
    emit (← blockScalar (c == '>'))
  else if c = Text.singleQuote then fetchKeyLike (quotedScalar false)
  else if c = '"' then fetchKeyLike (quotedScalar true)
  else if !(isBlankOrEnd c || isIndicator c) ||
      (!isBlankOrEnd next && (c = '-' || (!inFlow && (c = '?' || c = ':')))) then
    fetchKeyLike plainScalar
  else fail
  return true

/-- The tokens up to the end of the text or to the fault that ends the scan. Every round takes a
character at least. -/
def tokensAux : Nat → Scanner → List Token × Option YamlFault
  | 0, s => (s.tokens.toList, none)
  | fuel + 1, s =>
    match fetch.run s with
    | .error fault => (s.tokens.toList, some fault)
    | .ok (true, s') => tokensAux fuel s'
    | .ok (false, s') => (s'.tokens.toList, none)

/-- The tokens of a text, with the fault that ends them early. -/
def tokens (text : String) : List Token × Option YamlFault :=
  let cs := text.toList
  if !cs.all isAllowed then ([], some .malformed)
  else
    let start := Scanner.start cs
    tokensAux (cs.length + 2) (if cs.head?.any (·.toNat == 0xfeff) then start.advance else start)

end Yaml

end DeadSymbols
