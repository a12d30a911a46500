import DeadSymbols.Dump.Basic
import DeadSymbols.Value

/-!
# Dumps from document values

A dump is decoded field by field, and the first field that cannot be read decides the outcome: the
dependency table with its rows first, then the directory, then the definitions, then the
references. Numbers may be written in any way that stands for an integer and names may be any
value. Keys that are not asked for are ignored, and the lists of rows and of records may be
missing.
-/

namespace DeadSymbols

/-- Why a value is not a dump. -/
inductive DumpFault
  /-- A required key is not there. -/
  | missing (key : String)
  /-- A value is of a kind that has no such part, or stands for no integer. -/
  | kind
  /-- A value is asked for a key that it may lack, but is no mapping. -/
  | notMapping
  /-- A value spells no integer, or a pair has not two parts. -/
  | content
  /-- A definition has no identity. -/
  | definitionWithoutId
  /-- A reference has no target. -/
  | referenceWithoutTarget
  /-- A number is infinite. -/
  | infinite
  deriving DecidableEq, Repr

/-- The wording of a fault. -/
def DumpFault.message : DumpFault → String
  | .missing key => "KeyError(" ++ Text.quoted key ++ ")"
  | .kind => "TypeError"
  | .notMapping => "AttributeError"
  | .content => "ValueError"
  | .definitionWithoutId => "ValueError('definition without id')"
  | .referenceWithoutTarget => "ValueError('reference without ref_id')"
  | .infinite => "OverflowError"

namespace Dump.Decode

/-- The value under a required key. -/
def field (v : Value) (key : String) : Except DumpFault Value :=
  match v with
  | .map entries =>
    match Value.entry? entries key with
    | some w => .ok w
    | none => .error (.missing key)
  | _ => .error .kind

/-- The value under a key that may be missing. -/
def field? (v : Value) (key : String) : Except DumpFault (Option Value) :=
  match v with
  | .map entries => .ok (Value.entry? entries key)
  | _ => .error .notMapping

/-- The parts of a value: the items of a collection, the keys of a mapping, the characters of a
text. -/
def parts : Value → Except DumpFault (List Value)
  | .list items => .ok items
  | .set items => .ok items
  | .pair a b => .ok [a, b]
  | .map entries => .ok (entries.map (·.1))
  | .text s => .ok (s.toList.map fun c => .text (String.singleton c))
  | .bytes content => .ok (content.map fun b => .int b.toNat)
  | _ => .error .kind

/-- The parts of a value that may be absent; an absent one has none. -/
def partsOrNone : Option Value → Except DumpFault (List Value)
  | none => .ok []
  | some v => if v.isFalsy then .ok [] else parts v

/-- The integer a value stands for. -/
def integer (v : Value) : Except DumpFault Int :=
  match v.toInt with
  | .ok n => .ok n
  | .error .kind => .error .kind
  | .error (.spelling _) => .error .content
  | .error .infinite => .error .infinite

/-- The integer under a required key. -/
def integerField (v : Value) (key : String) : Except DumpFault Int := do
  integer (← field v key)

/-- The text under a required key. -/
def textField (v : Value) (key : String) : Except DumpFault String := do
  return (← field v key).display

/-- The name of a unit, empty if it is not given. -/
def nameField (v : Value) : Except DumpFault String := do
  return match ← field? v "name" with
    | some name => name.display
    | none => ""

/-- The identity of a unit: a pair of integers. -/
def unitId (v : Value) : Except DumpFault UnitId := do
  match ← parts v with
  | [high, low] => return ⟨← integer high, ← integer low⟩
  | _ => .error .content

/-- A local identity, or nothing if the value is null. -/
def localRef? (v : Value) : Except DumpFault (Option LocalRef) :=
  match v with
  | .null => .ok none
  | _ => do return some ⟨← integerField v "krate", ← integerField v "index"⟩

/-- A local identity under a key that may be missing. -/
def localRefField? (v : Value) (key : String) : Except DumpFault (Option LocalRef) := do
  match ← field? v key with
  | none => return none
  | some w => localRef? w

/-- A span. -/
def span (v : Value) : Except DumpFault Span := do
  return ⟨← textField v "file_name", ← integerField v "line_start",
    ← integerField v "column_start", ← integerField v "line_end", ← integerField v "column_end"⟩

/-- One row of the dependency table. -/
def dependency (v : Value) : Except DumpFault Dependency := do
  let ordinal ← integerField v "num"
  let id ← field v "id"
  let name ← nameField id
  let unit ← unitId (← field id "disambiguator")
  return ⟨ordinal, name, unit⟩

/-- Dependency table and directory of the unit. -/
def metadata (v : Value) : Except DumpFault Metadata := do
  let prelude ← field v "prelude"
  let crate ← field prelude "crate_id"
  let externals ← (← partsOrNone (← field? prelude "external_crates")).mapM dependency
  let name ← nameField crate
  let own ← unitId (← field crate "disambiguator")
  let compilation ← field? v "compilation"
  let directory ←
    match compilation.filter (!·.isFalsy) with
    | none => pure ""
    | some c =>
      match (← field? c "directory").filter (!·.isFalsy) with
      | none => pure ""
      | some d => pure d.display
  return ⟨⟨name, own, externals⟩, directory⟩

/-- A definition record. -/
def definition (v : Value) : Except DumpFault LocalDefinition := do
  match ← localRef? (← field v "id") with
  | none => .error .definitionWithoutId
  | some id =>
    return {
      kind := ← textField v "kind"
      name := ← textField v "name"
      id
      span := ← span (← field v "span")
      parent := ← localRefField? v "parent"
      declaration := ← localRefField? v "decl_id" }

/-- A reference record. -/
def reference (v : Value) : Except DumpFault LocalReference := do
  match ← localRef? (← field v "ref_id") with
  | none => .error .referenceWithoutTarget
  | some target =>
    return { kind := ← textField v "kind", target, span := ← span (← field v "span") }

end Decode

/-- The dump a value holds; `source` says where it comes from. -/
def ofValue (source : String) (v : Value) : Except DumpFault Dump := do
  let metadata ← Decode.metadata v
  let definitions ← (← Decode.partsOrNone (← Decode.field? v "defs")).mapM Decode.definition
  let references ← (← Decode.partsOrNone (← Decode.field? v "refs")).mapM Decode.reference
  return ⟨source, metadata, definitions, references⟩

end Dump

end DeadSymbols
