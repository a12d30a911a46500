import DeadSymbols.Index.Basic
import DeadSymbols.Index.Wire

/-!
# Indexes from bytes

Each kind of message takes in its fields one by one. A field with a number that the message does
not declare, or with a payload of another shape than declared, is passed over. A single value that
comes again replaces the earlier one, a message that comes again is merged into it, and a repeated
field grows.
-/

namespace DeadSymbols

open Wire (Field Payload)

namespace Index.Decode

/-- How deep messages and groups may be nested in an index. -/
def maxDepth : Nat := 100

/-- The value with a text set by a payload of the right shape. -/
def setText {α : Type} (set : String → α) (unchanged : α) (p : Payload) : Option α :=
  (p.text?).map fun
    | some s => set s
    | none => unchanged

/-- The value with a number set by a payload of the right shape. -/
def setInt {α : Type} (set : Int → α) (unchanged : α) (p : Payload) : α :=
  match p.int? with
  | some n => set n
  | none => unchanged

/-- The value that takes in the fields of a nested message, if the payload is one. -/
def inside {α : Type} (absorb : α → Field → Option α) (depth : Nat) (start : α) (p : Payload) :
    Option (Option α) :=
  match p with
  | .delimited content =>
    match Wire.fields depth content with
    | none => none
    | some fields => (fields.foldlM absorb start).map some
  | _ => some none

/-- Tool information with one field taken in. -/
def toolInfo (t : ToolInfo) (f : Field) : Option ToolInfo :=
  match f.number with
  | 1 => setText (fun s => { t with name := s }) t f.payload
  | 2 => setText (fun s => { t with version := s }) t f.payload
  | 3 => setText (fun s => { t with arguments := t.arguments ++ [s] }) t f.payload
  | _ => some t

/-- Index metadata with one field taken in. -/
def indexMetadata (m : IndexMetadata) (f : Field) : Option IndexMetadata :=
  match f.number with
  | 1 => some (setInt (fun n => { m with version := n }) m f.payload)
  | 2 => (inside toolInfo (maxDepth - 2) m.toolInfo f.payload).map fun
    | some t => { m with toolInfo := t }
    | none => m
  | 3 => setText (fun s => { m with projectRoot := s }) m f.payload
  | 4 => some (setInt (fun n => { m with textEncoding := n }) m f.payload)
  | _ => some m

/-- Symbol information with one field taken in. -/
def symbolInfo (s : SymbolInfo) (f : Field) : Option SymbolInfo :=
  match f.number with
  | 1 => setText (fun t => { s with symbol := t }) s f.payload
  | 3 => setText (fun t => { s with documentation := s.documentation ++ [t] }) s f.payload
  | 5 => some (setInt (fun n => { s with kind := n }) s f.payload)
  | 6 => setText (fun t => { s with displayName := t }) s f.payload
  | 8 => setText (fun t => { s with enclosingSymbol := t }) s f.payload
  | _ => some s

/-- An occurrence with one field taken in. -/
def occurrence (o : Occurrence) (f : Field) : Option Occurrence :=
  match f.number with
  | 1 => (f.payload.numbers).map fun ns => { o with range := o.range ++ ns }
  | 2 => setText (fun s => { o with symbol := s }) o f.payload
  | 3 => some (setInt (fun n => { o with roles := n }) o f.payload)
  | 5 => some (setInt (fun n => { o with syntaxKind := n }) o f.payload)
  | 7 => (f.payload.numbers).map fun ns => { o with enclosingRange := o.enclosingRange ++ ns }
  | _ => some o

/-- A document with one field taken in. -/
def document (d : Document) (f : Field) : Option Document :=
  match f.number with
  | 1 => setText (fun s => { d with relativePath := s }) d f.payload
  | 2 => (inside occurrence (maxDepth - 2) {} f.payload).map fun
    | some o => { d with occurrences := d.occurrences ++ [o] }
    | none => d
  | 3 => (inside symbolInfo (maxDepth - 2) {} f.payload).map fun
    | some s => { d with symbols := d.symbols ++ [s] }
    | none => d
  | 4 => setText (fun s => { d with language := s }) d f.payload
  | _ => some d

/-- An index with one field taken in. -/
def index (i : Index) (f : Field) : Option Index :=
  match f.number with
  | 1 => (inside indexMetadata (maxDepth - 1) i.metadata f.payload).map fun
    | some m => { i with metadata := m }
    | none => i
  | 2 => (inside document (maxDepth - 1) {} f.payload).map fun
    | some d => { i with documents := i.documents ++ [d] }
    | none => i
  | 3 => (inside symbolInfo (maxDepth - 1) {} f.payload).map fun
    | some s => { i with externalSymbols := i.externalSymbols ++ [s] }
    | none => i
  | _ => some i

end Index.Decode

/-- The index with these bytes, if they are one. -/
def Index.ofBytes? (bytes : Text.Bytes) : Option Index :=
  match Wire.fields Decode.maxDepth bytes with
  | none => none
  | some fields => fields.foldlM Decode.index {}

end DeadSymbols
