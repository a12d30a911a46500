import DeadSymbols.Index.Basic
import DeadSymbols.Index.Name
import DeadSymbols.Report

/-!
# Unused definitions of an index

An occurrence marked as definition defines its symbol and any other occurrence uses it. The last
definition of a symbol counts, and so does the last that is said about it. Defined symbols that no
occurrence uses and whose names do not start with an underscore are reported.
-/

namespace DeadSymbols

open SymbolName (Key)

/-- A defined symbol. -/
structure IndexedDefinition where
  symbol : String
  span : Span
  name : String
  kind : String
  deriving DecidableEq, Repr

/-- The definitions of an index and the keys it uses. -/
structure IndexAnalysis where
  projectRoot : String
  documents : Nat
  definitions : Ledger Key IndexedDefinition
  used : List Key
  deriving DecidableEq, Repr

namespace IndexAnalysis

/-- What is said about symbols, by key: name and kind. -/
abbrev Infos := Ledger Key (String × Int)

/-- What an index says about symbols: documents have the last word. -/
def infos (i : Index) : Infos :=
  let external := i.externalSymbols.foldl
    (fun (l : Infos) s => l.put ("", s.symbol) (s.displayName, s.kind)) .empty
  i.documents.foldl (fun l d => d.symbols.foldl
    (fun l s => l.put (SymbolName.key d.relativePath s.symbol) (s.displayName, s.kind)) l) external

/-- The definition that an occurrence makes. -/
def definition (infos : Infos) (path : String) (o : Occurrence) :
    Except RangeFault IndexedDefinition :=
  (Index.span path o.range).map fun span =>
    let (name, kind) := (infos.get? (SymbolName.key path o.symbol)).getD ("", 0)
    ⟨o.symbol, span, if name.isEmpty then SymbolName.display o.symbol else name,
      Index.kindName kind⟩

/-- The analysis with an occurrence taken in. An occurrence without a symbol says nothing. -/
def addOccurrence (infos : Infos) (path : String) (a : IndexAnalysis) (o : Occurrence) :
    Except RangeFault IndexAnalysis :=
  if o.symbol.isEmpty then .ok a
  else
    let key := SymbolName.key path o.symbol
    if o.isDefinition then
      (definition infos path o).map fun d => { a with definitions := a.definitions.put key d }
    else .ok { a with used := if a.used.contains key then a.used else a.used ++ [key] }

/-- The analysis with the occurrences of a document taken in. -/
def addDocument (infos : Infos) (a : IndexAnalysis) (d : Document) :
    Except RangeFault IndexAnalysis :=
  d.occurrences.foldlM (addOccurrence infos d.relativePath) a

/-- The analysis of an index. -/
def ofIndex (i : Index) : Except RangeFault IndexAnalysis :=
  i.documents.foldlM (addDocument (infos i))
    ⟨i.metadata.projectRoot, i.documents.length, .empty, []⟩

/-- What a report says about a definition. -/
def finding (d : IndexedDefinition) : Finding :=
  ⟨d.span, d.kind, d.name, d.symbol⟩

/-- Whether a definition under a key is reported. -/
def isReported (a : IndexAnalysis) (key : Key) (d : IndexedDefinition) : Bool :=
  !a.used.contains key && !"_".toList.isPrefixOf d.name.toList

/-- The report. -/
def report (a : IndexAnalysis) : List Finding :=
  Finding.inOrder
    ((a.definitions.entries.filter fun e => a.isReported e.1 e.2).map fun e => finding e.2)

/-- The counts that go with the report. -/
def counts (a : IndexAnalysis) : Counts :=
  [("documents", a.documents), ("definitions", a.definitions.size), ("referenced", a.used.length)]

end IndexAnalysis

end DeadSymbols
