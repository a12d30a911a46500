import DeadSymbols.Text.Digit
import DeadSymbols.Text.Quoted

/-!
# Command templates

A template is a text with fields in braces. A field names a text, may pick a character of it, may
ask for it in quotes, and may say how wide it is to be; two braces stand for one. Inside the last
part of a field there may be fields again, but in those no more.

Fields are worked on from left to right and the first fault decides.
-/

namespace DeadSymbols

/-- Why a template cannot be filled in. -/
inductive TemplateFault
  /-- The template or a field in it is not well formed. -/
  | malformed
  /-- A field names nothing that is given. -/
  | unknown
  /-- A field has a number, or picks a character past the end. -/
  | position
  /-- A field picks a character by something that is no number. -/
  | key
  /-- A field asks a text for a part that texts do not have. -/
  | part
  deriving DecidableEq, Repr

namespace Template

/-- The braces, which are written by number where they are text. -/
def openBrace : Char := Char.ofNat 123

/-- The closing brace. -/
def closeBrace : Char := Char.ofNat 125

/-- The greatest number a field may hold. -/
def maxNumber : Nat := (1 <<< 63) - 1

/-- The number that digits spell; other text is no number. -/
def number? (cs : List Char) : Except TemplateFault (Option Nat) :=
  if cs.isEmpty then .ok none
  else
    match cs.mapM Text.digitValue? with
    | none => .ok none
    | some digits =>
      let n := Text.ofDigits 10 digits
      if n ≤ maxNumber then .ok (some n) else .error .malformed

/-! ## Fields -/

/-- A field as it is written. -/
structure Field where
  name : List Char
  conversion : Option Char
  layout : List Char
  deriving DecidableEq, Repr

/-- The name of a field, the character that ends it, and the text after that. Brackets hide the
characters that would end it. -/
def fieldName (hidden : Bool) : List Char → Except TemplateFault (List Char × Char × List Char)
  | [] => .error .malformed
  | c :: rest =>
    if hidden then
      (fieldName (c != ']') rest).map fun (name, last, after) => (c :: name, last, after)
    else if c = openBrace then .error .malformed
    else if c = closeBrace ∨ c = ':' ∨ c = '!' then .ok ([], c, rest)
    else (fieldName (c == '[') rest).map fun (name, last, after) => (c :: name, last, after)

/-- The layout of a field up to the brace that closes the field, and the text after it. `depth`
fields are open inside the layout. -/
def fieldLayout (depth : Nat) : List Char → Except TemplateFault (List Char × List Char)
  | [] => .error .malformed
  | c :: rest =>
    if c = closeBrace then
      match depth with
      | 0 => .ok ([], rest)
      | depth + 1 => (fieldLayout depth rest).map fun (layout, after) => (c :: layout, after)
    else
      (fieldLayout (if c = openBrace then depth + 1 else depth) rest).map fun (layout, after) =>
        (c :: layout, after)

/-- The field whose opening brace was just read, and the text after it. -/
def field (cs : List Char) : Except TemplateFault (Field × List Char) :=
  match fieldName false cs with
  | .error e => .error e
  | .ok (name, last, rest) =>
    if last = closeBrace then .ok (⟨name, none, []⟩, rest)
    else if last = ':' then
      (fieldLayout 0 rest).map fun (layout, after) => (⟨name, none, layout⟩, after)
    else
      match rest with
      | [] => .error .malformed
      | [_] => .error .malformed
      | conversion :: c :: rest' =>
        if c = closeBrace then .ok (⟨name, some conversion, []⟩, rest')
        else if c = ':' then
          (fieldLayout 0 rest').map fun (layout, after) => (⟨name, some conversion, layout⟩, after)
        else .error .malformed

/-! ## What a field stands for -/

/-- The part of a field's name that says what it names. -/
def firstName (name : List Char) : List Char :=
  name.takeWhile fun c => c != '.' && c != '['

/-- A step from a text to a part of it. -/
inductive Access
  | attribute (name : List Char)
  | item (key : List Char)
  deriving DecidableEq, Repr

/-- The first step that the rest of a field's name spells out, and the text after it. -/
def access (cs : List Char) : Except TemplateFault (Access × List Char) :=
  match cs with
  | '.' :: rest =>
    let name := firstName rest
    if name.isEmpty then .error .malformed
    else .ok (.attribute name, rest.drop name.length)
  | '[' :: rest =>
    let key := rest.takeWhile (· != ']')
    match rest.drop key.length with
    | [] => .error .malformed
    | _ :: after => if key.isEmpty then .error .malformed else .ok (.item key, after)
  | _ => .error .malformed

/-- The part of a text that a step leads to. -/
def follow (value : List Char) : Access → Except TemplateFault (List Char)
  | .attribute _ => .error .part
  | .item key =>
    match number? key with
    | .error e => .error e
    | .ok none => .error .key
    | .ok (some n) =>
      match value[n]? with
      | some c => .ok [c]
      | none => .error .position

/-- The part of a text that steps lead to; each step is at least two characters long, so the number
of characters bounds `fuel`. -/
def followAll : Nat → List Char → List Char → Except TemplateFault (List Char)
  | _, value, [] => .ok value
  | 0, _, _ => .error .malformed
  | fuel + 1, value, steps =>
    match access steps with
    | .error e => .error e
    | .ok (step, rest) =>
      match follow value step with
      | .error e => .error e
      | .ok value' => followAll fuel value' rest

/-- The text a field's name stands for. There are no numbered texts. -/
def resolve (given : String → Option String) (name : List Char) :
    Except TemplateFault (List Char) :=
  let first := firstName name
  match number? first with
  | .error e => .error e
  | .ok index =>
    if first.isEmpty || index.isSome then .error .position
    else
      match given (String.ofList first) with
      | none => .error .unknown
      | some value => followAll name.length value.toList (name.drop first.length)

/-- The text in the form a conversion asks for. -/
def convert (value : List Char) : Option Char → Except TemplateFault (List Char)
  | none => .ok value
  | some 's' => .ok value
  | some 'r' => .ok (Text.quoted (String.ofList value)).toList
  | some 'a' => .ok (Text.quotedAscii (String.ofList value)).toList
  | some _ => .error .malformed

/-! ## Layouts -/

/-- How a text is laid out. -/
structure Layout where
  fill : Char
  align : Char
  width : Nat
  precision : Option Nat
  deriving DecidableEq, Repr

/-- Whether the character says where a text goes. -/
def isAlignment (c : Char) : Bool :=
  c == '<' || c == '>' || c == '=' || c == '^'

/-- The digits at the front, as a number if there are any, and the text after them. -/
def leadingNumber (cs : List Char) : Except TemplateFault (Option Nat × List Char) :=
  let digits := cs.takeWhile fun c => (Text.digitValue? c).isSome
  (number? digits).map fun n => (n, cs.drop digits.length)

/-- The fill and alignment at the front: the fill comes first and may be left out. -/
def alignment (cs : List Char) : Option Char × Option Char × List Char :=
  match cs with
  | f :: a :: rest =>
    if isAlignment a then (some f, some a, rest)
    else if isAlignment f then (none, some f, a :: rest)
    else (none, none, cs)
  | [a] => if isAlignment a then (none, some a, []) else (none, none, cs)
  | [] => (none, none, cs)

/-- The layout that a text spells. What only makes sense for numbers is refused. -/
def layout (cs : List Char) : Except TemplateFault Layout :=
  let (fill, align, rest) := alignment cs
  let (fill, rest) :=
    match fill, rest with
    | none, '0' :: rest' => (some '0', rest')
    | _, _ => (fill, rest)
  match leadingNumber rest with
  | .error e => .error e
  | .ok (width, rest) =>
    let precision : Except TemplateFault (Option Nat × List Char) :=
      match rest with
      | '.' :: rest' =>
        match leadingNumber rest' with
        | .error e => .error e
        | .ok (none, _) => .error .malformed
        | .ok (some n, after) => .ok (some n, after)
      | _ => .ok (none, rest)
    match precision with
    | .error e => .error e
    | .ok (precision, rest) =>
      if rest = [] ∨ rest = ['s'] then
        if align = some '=' then .error .malformed
        else .ok ⟨fill.getD ' ', align.getD '<', width.getD 0, precision⟩
      else .error .malformed

/-- A text laid out. -/
def Layout.apply (l : Layout) (value : List Char) : List Char :=
  let shown := match l.precision with
    | some n => value.take n
    | none => value
  let missing := l.width - shown.length
  let before := if l.align = '>' then missing else if l.align = '^' then missing / 2 else 0
  List.replicate before l.fill ++ shown ++ List.replicate (missing - before) l.fill

/-! ## Templates -/

/-- The template filled in, by a function that fills in the layouts of fields. Every round takes a
character at least, so their number bounds `fuel`. -/
def fillAux (given : String → Option String)
    (fillLayout : List Char → Except TemplateFault (List Char)) :
    Nat → List Char → Except TemplateFault (List Char)
  | _, [] => .ok []
  | 0, _ => .error .malformed
  | fuel + 1, c :: rest =>
    if c = openBrace then
      match rest with
      | [] => .error .malformed
      | d :: rest' =>
        if d = openBrace then (fillAux given fillLayout fuel rest').map (c :: ·)
        else do
          let (f, after) ← field rest
          let value ← convert (← resolve given f.name) f.conversion
          let spelled ← if f.layout.contains openBrace then fillLayout f.layout else .ok f.layout
          let shown ← if spelled.isEmpty then .ok value else (·.apply value) <$> layout spelled
          return shown ++ (← fillAux given fillLayout fuel after)
    else if c = closeBrace then
      match rest with
      | d :: rest' =>
        if d = closeBrace then (fillAux given fillLayout fuel rest').map (c :: ·)
        else .error .malformed
      | [] => .error .malformed
    else (fillAux given fillLayout fuel rest).map (c :: ·)

/-- A template without fields inside of fields, filled in. -/
def fillFlat (given : String → Option String) (cs : List Char) :
    Except TemplateFault (List Char) :=
  fillAux given (fun _ => .error .malformed) cs.length cs

/-- A template filled in with the given texts. -/
def fill (given : String → Option String) (template : String) : Except TemplateFault String :=
  let cs := template.toList
  (fillAux given (fillFlat given) cs.length cs).map String.ofList

end Template

end DeadSymbols
