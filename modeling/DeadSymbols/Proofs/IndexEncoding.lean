import Mathlib
import DeadSymbols.Index.Decode
import DeadSymbols.Proofs.MessageDecoding

/-!
# Indexes as they are written

The records of each kind of message of an index, one for each field it declares, under the number
of that field.  Decoding gives back the index that was written (`decoding_undoes_encoding`),
whichever form its records take and whatever other fields stand between them, in nested messages
too.

The reader has two limits, and a message that exceeds one is refused as a whole: messages and
groups nest at most `maxDepth` deep, and a payload with a length has fewer than `sizeLimit`
bytes.  The messages of an index nest three deep, so the first limit is met by groups in
undeclared fields only.

## Main results

* `takes_toolInfo`, `takes_indexMetadata`, `takes_symbolInfo`, `takes_occurrence`,
  `takes_document`, `takes_index` — each decoder on the records of its message.
* `ofBytes?_bytes` — an index from all forms of its bytes.
-/

namespace DeadSymbols

open Wire

/-! ## The records of an index -/

/-- What tool information says. -/
def ToolInfo.records (t : ToolInfo) : List Record :=
  [.text { val := 1 } t.name, .text { val := 2 } t.version, .texts { val := 3 } t.arguments]

/-- What metadata says. -/
def IndexMetadata.records (m : IndexMetadata) : List Record :=
  [.int { val := 1 } m.version, .message { val := 2 } m.toolInfo.records,
   .text { val := 3 } m.projectRoot, .int { val := 4 } m.textEncoding]

/-- What symbol information says. -/
def SymbolInfo.records (s : SymbolInfo) : List Record :=
  [.text { val := 1 } s.symbol, .texts { val := 3 } s.documentation, .int { val := 5 } s.kind,
   .text { val := 6 } s.displayName, .text { val := 8 } s.enclosingSymbol]

/-- What an occurrence says. -/
def Occurrence.records (o : Occurrence) : List Record :=
  [.ints { val := 1 } o.range, .text { val := 2 } o.symbol, .int { val := 3 } o.roles,
   .int { val := 5 } o.syntaxKind, .ints { val := 7 } o.enclosingRange]

/-- What a document says. -/
def Document.records (d : Document) : List Record :=
  [.text { val := 1 } d.relativePath,
   .messages { val := 2 } (d.occurrences.map Occurrence.records),
   .messages { val := 3 } (d.symbols.map SymbolInfo.records),
   .text { val := 4 } d.language]

/-- What an index says. -/
def Index.records (i : Index) : List Record :=
  [.message { val := 1 } i.metadata.records,
   .messages { val := 2 } (i.documents.map Document.records),
   .messages { val := 3 } (i.externalSymbols.map SymbolInfo.records)]

/-! ## Numbers of 32 bits -/

/-- The numbers of metadata have 32 bits. -/
def IndexMetadata.InRange (m : IndexMetadata) : Prop :=
  IsInt32 m.version ∧ IsInt32 m.textEncoding

instance (m : IndexMetadata) : Decidable m.InRange :=
  inferInstanceAs (Decidable (_ ∧ _))

/-- The numbers of symbol information have 32 bits. -/
def SymbolInfo.InRange (s : SymbolInfo) : Prop :=
  IsInt32 s.kind

instance (s : SymbolInfo) : Decidable s.InRange :=
  inferInstanceAs (Decidable (IsInt32 s.kind))

/-- The numbers of an occurrence have 32 bits. -/
def Occurrence.InRange (o : Occurrence) : Prop :=
  (∀ n ∈ o.range, IsInt32 n) ∧ IsInt32 o.roles ∧ IsInt32 o.syntaxKind ∧
    ∀ n ∈ o.enclosingRange, IsInt32 n

instance (o : Occurrence) : Decidable o.InRange :=
  inferInstanceAs (Decidable (_ ∧ _))

/-- The numbers of a document have 32 bits. -/
def Document.InRange (d : Document) : Prop :=
  (∀ o ∈ d.occurrences, o.InRange) ∧ ∀ s ∈ d.symbols, s.InRange

instance (d : Document) : Decidable d.InRange :=
  inferInstanceAs (Decidable (_ ∧ _))

/-- The numbers of an index have 32 bits. -/
def Index.InRange (i : Index) : Prop :=
  i.metadata.InRange ∧ (∀ d ∈ i.documents, d.InRange) ∧ ∀ s ∈ i.externalSymbols, s.InRange

instance (i : Index) : Decidable i.InRange :=
  inferInstanceAs (Decidable (_ ∧ _))

namespace Index

open Decode

/-! ## The decoders -/

theorem setText_textItem {α : Type} (set : String → α) (unchanged : α) (k : FieldNumber)
    (s : String) : setText set unchanged (textItem k s).field.payload = some (set s) := by
  rw [setText, text?_textItem, Option.map_some]

theorem setInt_intItem {α : Type} (set : Int → α) (unchanged : α) (k : FieldNumber) {n : Int}
    (h : IsInt32 n) : setInt set unchanged (intItem k n).field.payload = set n := by
  rw [setInt, int?_intItem h]

theorem map_inside_delimited {α β : Type} (absorb : α → Field → Option α) (depth : Nat)
    (start : α) (put : Option α → β) (content : Text.Bytes) :
    (inside absorb depth start (.delimited content)).map put =
      (message absorb depth start content).map fun m => put (some m) := by
  rw [inside, message]
  cases fields depth content with
  | none => rfl
  | some fs => exact Option.map_map put some _

/-- A decoder of tool information takes in its records. -/
theorem takes_toolInfo (t : ToolInfo) (depth : Nat) :
    Takes toolInfo depth {} t.records t := by
  have hname : TakesOne toolInfo depth {} (.text { val := 1 } t.name) { name := t.name } :=
    takesOne_text (setText_textItem _ _ _ _) fun h => by rw [h]
  have hversion : TakesOne toolInfo depth { name := t.name } (.text { val := 2 } t.version)
      { name := t.name, version := t.version } :=
    takesOne_text (setText_textItem _ _ _ _) fun h => by rw [h]
  have harguments : TakesOne toolInfo depth { name := t.name, version := t.version }
      (.texts { val := 3 } t.arguments) t :=
    takesOne_texts (ToolInfo.mk t.name t.version) fun _ _ => setText_textItem _ _ _ _
  exact .cons hname (.cons hversion (.cons harguments .nil))

theorem passesOver_toolInfo (t : ToolInfo) : PassesOver toolInfo t.records := by
  intro a f hf
  simp only [ToolInfo.records, List.forall_mem_cons, Record.number] at hf
  unfold toolInfo
  split <;> simp_all

/-- A decoder of metadata takes in its records. -/
theorem takes_indexMetadata {m : IndexMetadata} (hm : m.InRange) :
    Takes indexMetadata (maxDepth - 1) {} m.records m := by
  have hversion : TakesOne indexMetadata (maxDepth - 1) {} (.int { val := 1 } m.version)
      { version := m.version } :=
    takesOne_int (congrArg some (setInt_intItem _ _ _ hm.1)) fun h => by rw [h]
  have htool : TakesOne indexMetadata (maxDepth - 1) { version := m.version }
      (.message { val := 2 } m.toolInfo.records)
      { version := m.version, toolInfo := m.toolInfo } :=
    takesOne_message (fun t => ({ version := m.version, toolInfo := t } : IndexMetadata))
      (takes_toolInfo m.toolInfo _) (passesOver_toolInfo _)
      fun content => map_inside_delimited toolInfo (maxDepth - 2) _ _ content
  have hroot : TakesOne indexMetadata (maxDepth - 1)
      { version := m.version, toolInfo := m.toolInfo } (.text { val := 3 } m.projectRoot)
      { version := m.version, toolInfo := m.toolInfo, projectRoot := m.projectRoot } :=
    takesOne_text (setText_textItem _ _ _ _) fun h => by rw [h]
  have hencoding : TakesOne indexMetadata (maxDepth - 1)
      { version := m.version, toolInfo := m.toolInfo, projectRoot := m.projectRoot }
      (.int { val := 4 } m.textEncoding) m :=
    takesOne_int (congrArg some (setInt_intItem _ _ _ hm.2)) fun h => by rw [← h]
  exact .cons hversion (.cons htool (.cons hroot (.cons hencoding .nil)))

theorem passesOver_indexMetadata (m : IndexMetadata) : PassesOver indexMetadata m.records := by
  intro a f hf
  simp only [IndexMetadata.records, List.forall_mem_cons, Record.number] at hf
  unfold indexMetadata
  split <;> simp_all

/-- A decoder of symbol information takes in its records. -/
theorem takes_symbolInfo {s : SymbolInfo} (hs : s.InRange) (depth : Nat) :
    Takes symbolInfo depth {} s.records s := by
  have hsymbol : TakesOne symbolInfo depth {} (.text { val := 1 } s.symbol)
      { symbol := s.symbol } :=
    takesOne_text (setText_textItem _ _ _ _) fun h => by rw [h]
  have hdocumentation : TakesOne symbolInfo depth { symbol := s.symbol }
      (.texts { val := 3 } s.documentation)
      { symbol := s.symbol, documentation := s.documentation } :=
    takesOne_texts (fun ss => ({ symbol := s.symbol, documentation := ss } : SymbolInfo))
      fun _ _ => setText_textItem _ _ _ _
  have hkind : TakesOne symbolInfo depth
      { symbol := s.symbol, documentation := s.documentation } (.int { val := 5 } s.kind)
      { symbol := s.symbol, documentation := s.documentation, kind := s.kind } :=
    takesOne_int (congrArg some (setInt_intItem _ _ _ hs)) fun h => by rw [h]
  have hname : TakesOne symbolInfo depth
      { symbol := s.symbol, documentation := s.documentation, kind := s.kind }
      (.text { val := 6 } s.displayName)
      { symbol := s.symbol, documentation := s.documentation, kind := s.kind,
        displayName := s.displayName } :=
    takesOne_text (setText_textItem _ _ _ _) fun h => by rw [h]
  have henclosing : TakesOne symbolInfo depth
      { symbol := s.symbol, documentation := s.documentation, kind := s.kind,
        displayName := s.displayName } (.text { val := 8 } s.enclosingSymbol) s :=
    takesOne_text (setText_textItem _ _ _ _) fun h => by rw [← h]
  exact .cons hsymbol (.cons hdocumentation (.cons hkind (.cons hname (.cons henclosing .nil))))

theorem passesOver_symbolInfo (s : SymbolInfo) : PassesOver symbolInfo s.records := by
  intro a f hf
  simp only [SymbolInfo.records, List.forall_mem_cons, Record.number] at hf
  unfold symbolInfo
  split <;> simp_all

/-- A decoder of occurrences takes in the records of one. -/
theorem takes_occurrence {o : Occurrence} (ho : o.InRange) (depth : Nat) :
    Takes occurrence depth {} o.records o := by
  have hrange : TakesOne occurrence depth {} (.ints { val := 1 } o.range) { range := o.range } :=
    takesOne_ints (fun ns => ({ range := ns } : Occurrence)) (fun _ _ => rfl) ho.1
  have hsymbol : TakesOne occurrence depth { range := o.range } (.text { val := 2 } o.symbol)
      { range := o.range, symbol := o.symbol } :=
    takesOne_text (setText_textItem _ _ _ _) fun h => by rw [h]
  have hroles : TakesOne occurrence depth { range := o.range, symbol := o.symbol }
      (.int { val := 3 } o.roles) { range := o.range, symbol := o.symbol, roles := o.roles } :=
    takesOne_int (congrArg some (setInt_intItem _ _ _ ho.2.1)) fun h => by rw [h]
  have hsyntax : TakesOne occurrence depth
      { range := o.range, symbol := o.symbol, roles := o.roles } (.int { val := 5 } o.syntaxKind)
      { range := o.range, symbol := o.symbol, roles := o.roles, syntaxKind := o.syntaxKind } :=
    takesOne_int (congrArg some (setInt_intItem _ _ _ ho.2.2.1)) fun h => by rw [h]
  have henclosing : TakesOne occurrence depth
      { range := o.range, symbol := o.symbol, roles := o.roles, syntaxKind := o.syntaxKind }
      (.ints { val := 7 } o.enclosingRange) o :=
    takesOne_ints (Occurrence.mk o.range o.symbol o.roles o.syntaxKind) (fun _ _ => rfl)
      ho.2.2.2
  exact .cons hrange (.cons hsymbol (.cons hroles (.cons hsyntax (.cons henclosing .nil))))

theorem passesOver_occurrence (o : Occurrence) : PassesOver occurrence o.records := by
  intro a f hf
  simp only [Occurrence.records, List.forall_mem_cons, Record.number] at hf
  unfold occurrence
  split <;> simp_all

/-- A decoder of documents takes in the records of one. -/
theorem takes_document {d : Document} (hd : d.InRange) :
    Takes document (maxDepth - 1) {} d.records d := by
  have hpath : TakesOne document (maxDepth - 1) {} (.text { val := 1 } d.relativePath)
      { relativePath := d.relativePath } :=
    takesOne_text (setText_textItem _ _ _ _) fun h => by rw [h]
  have hoccurrences : TakesOne document (maxDepth - 1) { relativePath := d.relativePath }
      (.messages { val := 2 } (d.occurrences.map Occurrence.records))
      { relativePath := d.relativePath, occurrences := d.occurrences } :=
    takesOne_messages Occurrence.records
      (fun os => ({ relativePath := d.relativePath, occurrences := os } : Document))
      (fun o ho => takes_occurrence (hd.1 o ho) _) passesOver_occurrence
      fun _ content => map_inside_delimited occurrence (maxDepth - 2) _ _ content
  have hsymbols : TakesOne document (maxDepth - 1)
      { relativePath := d.relativePath, occurrences := d.occurrences }
      (.messages { val := 3 } (d.symbols.map SymbolInfo.records))
      { relativePath := d.relativePath, occurrences := d.occurrences, symbols := d.symbols } :=
    takesOne_messages SymbolInfo.records
      (fun ss => (
        { relativePath := d.relativePath, occurrences := d.occurrences, symbols := ss } :
          Document))
      (fun s hs => takes_symbolInfo (hd.2 s hs) _) passesOver_symbolInfo
      fun _ content => map_inside_delimited symbolInfo (maxDepth - 2) _ _ content
  have hlanguage : TakesOne document (maxDepth - 1)
      { relativePath := d.relativePath, occurrences := d.occurrences, symbols := d.symbols }
      (.text { val := 4 } d.language) d :=
    takesOne_text (setText_textItem _ _ _ _) fun h => by rw [← h]
  exact .cons hpath (.cons hoccurrences (.cons hsymbols (.cons hlanguage .nil)))

theorem passesOver_document (d : Document) : PassesOver document d.records := by
  intro a f hf
  simp only [Document.records, List.forall_mem_cons, Record.number] at hf
  unfold document
  split <;> simp_all

/-- A decoder of indexes takes in the records of one. -/
theorem takes_index {i : Index} (hi : i.InRange) : Takes index maxDepth {} i.records i := by
  have hmetadata : TakesOne index maxDepth {} (.message { val := 1 } i.metadata.records)
      { metadata := i.metadata } :=
    takesOne_message (fun m => ({ metadata := m } : Index)) (takes_indexMetadata hi.1)
      (passesOver_indexMetadata _)
      fun content => map_inside_delimited indexMetadata (maxDepth - 1) _ _ content
  have hdocuments : TakesOne index maxDepth { metadata := i.metadata }
      (.messages { val := 2 } (i.documents.map Document.records))
      { metadata := i.metadata, documents := i.documents } :=
    takesOne_messages Document.records
      (fun ds => ({ metadata := i.metadata, documents := ds } : Index))
      (fun d hd => takes_document (hi.2.1 d hd)) passesOver_document
      fun _ content => map_inside_delimited document (maxDepth - 1) _ _ content
  have hexternal : TakesOne index maxDepth { metadata := i.metadata, documents := i.documents }
      (.messages { val := 3 } (i.externalSymbols.map SymbolInfo.records)) i :=
    takesOne_messages SymbolInfo.records (Index.mk i.metadata i.documents)
      (fun s hs => takes_symbolInfo (hi.2.2 s hs) _) passesOver_symbolInfo
      fun _ content => map_inside_delimited symbolInfo (maxDepth - 1) _ _ content
  exact .cons hmetadata (.cons hdocuments (.cons hexternal .nil))

theorem passesOver_index (i : Index) : PassesOver index i.records := by
  intro a f hf
  simp only [Index.records, List.forall_mem_cons, Record.number] at hf
  unfold index
  split <;> simp_all

/-! ## Decoding undoes encoding -/

theorem ofBytes?_eq (bytes : Text.Bytes) : ofBytes? bytes = message index maxDepth {} bytes := by
  rw [ofBytes?, message]
  cases fields maxDepth bytes with
  | none => rfl
  | some fs => rfl

/-- An index from the bytes of any of its forms, unless they exceed a limit. -/
theorem ofBytes?_bytes {i : Index} (hi : i.InRange) {ps : List Part} (hps : Writes i.records ps)
    (hsize : (Part.bytes ps).length < 2 ^ 64) :
    ofBytes? (Part.bytes ps) = if Part.allFit maxDepth ps then some i else none := by
  rw [ofBytes?_eq]
  exact message_bytes (takes_index hi) (passesOver_index i) hps hsize

/-- **Decoding undoes encoding.** An index whose numbers have 32 bits is read back from its plain
encoding, packed or not, if that is short enough.  It is read back as well from every other form
of its records, with undeclared fields of every shape between the fields of each message, exactly
if messages and groups nest at most `maxDepth` deep and every payload with a length has fewer than
`sizeLimit` bytes.  All other forms are refused. -/
theorem decoding_undoes_encoding (i : Index) (hi : i.InRange) :
    (∀ packed, (Part.bytes (Record.partsAll packed i.records)).length < sizeLimit →
      ofBytes? (Part.bytes (Record.partsAll packed i.records)) = some i) ∧
    (∀ packed, Writes i.records (Record.partsAll packed i.records)) ∧
    ∀ ps, Writes i.records ps → (Part.bytes ps).length < 2 ^ 64 →
      ofBytes? (Part.bytes ps) = if Part.allFit maxDepth ps then some i else none := by
  refine ⟨?_, fun packed => writes_partsAll packed i.records,
    fun ps hps hsize => ofBytes?_bytes hi hps hsize⟩
  intro packed hsize
  have hlimit : sizeLimit < 2 ^ 64 := by decide
  rw [ofBytes?_bytes hi (writes_partsAll packed i.records) (Nat.lt_trans hsize hlimit),
    if_pos (allFit_partsAll packed maxDepth i.records hsize)]

/-- Undeclared fields of all shapes, with a group in a group. -/
def undeclared : List Part :=
  [.item (.varint { val := 15 } 300), .item (.fixed64 { val := 16 } (.replicate 8 255)),
   .item (.delimited { val := 17 } [1, 2, 3]),
   .item (.group { val := 18 } [.group { val := 19 } [.varint { val := 1 } 1]]),
   .item (.fixed32 { val := 2047 } (.replicate 4 0))]

/-- An index with negative numbers and a text outside of ASCII. -/
def mixedIndex : Index :=
  { metadata := { version := -1 },
    documents := [{ relativePath := "é", occurrences := [{ range := [1, -2, 3] }] }] }

/-- Its occurrence: a run, a single number and a run. -/
def mixedOccurrence : List Part :=
  .item (runItem { val := 1 } [1]) :: undeclared ++
    [.item (intItem { val := 1 } (-2)), .item (runItem { val := 1 } [3])]

/-- Its document. -/
def mixedDocument : List Part :=
  undeclared ++ [.item (textItem { val := 1 } "é"), .message { val := 2 } mixedOccurrence]

/-- The index with undeclared fields in all of its messages. -/
def mixedParts : List Part :=
  .message { val := 1 } (.item (intItem { val := 1 } (-1)) :: undeclared) :: undeclared ++
    [.message { val := 2 } mixedDocument]

theorem writes_mixedParts : Writes mixedIndex.records mixedParts := by
  have hmetadata : SaysAll (IndexMetadata.records { version := -1 })
      (kept (IndexMetadata.records { version := -1 })
        (.item (intItem { val := 1 } (-1)) :: undeclared)) :=
    .cons (.int _ (-1)) (.cons (.noMessage _ (.cons (.noText _) (.cons (.noText _)
      (.cons (.noTexts _) .nil)))) (.cons (.noText _) (.cons (.noInt _) .nil)))
  have hoccurrence : SaysAll (Occurrence.records { range := [1, -2, 3] })
      (kept (Occurrence.records { range := [1, -2, 3] }) mixedOccurrence) :=
    .cons (.runInts [1] (.oneInt (-2) (.runInts [3] (.noInts _))))
      (.cons (.noText _) (.cons (.noInt _) (.cons (.noInt _) (.cons (.noInts _) .nil))))
  have hdocument : SaysAll
      (Document.records { relativePath := "é", occurrences := [{ range := [1, -2, 3] }] })
      (kept (Document.records { relativePath := "é", occurrences := [{ range := [1, -2, 3] }] })
        mixedDocument) :=
    .cons (.text _ "é") (.cons (.oneMessage hoccurrence (.noMessages _))
      (.cons (.noMessages _) (.cons (.noText _) .nil)))
  exact .cons (.message _ hmetadata) (.cons (.oneMessage hdocument (.noMessages _))
    (.cons (.noMessages _) .nil))

theorem inRange_mixedIndex : mixedIndex.InRange := by
  decide

theorem decoding_undoes_encoding_mixedIndex :
    mixedIndex.InRange ∧
    ofBytes? (Part.bytes (Record.partsAll true mixedIndex.records)) = some mixedIndex ∧
    ofBytes? (Part.bytes (Record.partsAll false mixedIndex.records)) = some mixedIndex ∧
    Writes mixedIndex.records mixedParts ∧ Part.allFit maxDepth mixedParts = true ∧
    ofBytes? (Part.bytes mixedParts) = some mixedIndex := by
  have hmixed := decoding_undoes_encoding mixedIndex inRange_mixedIndex
  have hfits : Part.allFit maxDepth mixedParts = true := by decide +kernel
  refine ⟨inRange_mixedIndex, hmixed.1 true (by decide +kernel), hmixed.1 false (by decide +kernel),
    writes_mixedParts, hfits, ?_⟩
  rw [hmixed.2.2 mixedParts writes_mixedParts (by decide +kernel), if_pos hfits]

/-- Groups in groups, one more than the number says. -/
def nestedGroups : Nat → Item
  | 0 => .group { val := 4 } []
  | n + 1 => .group { val := 4 } [nestedGroups n]

/-- An index that says one thing. -/
def rootedIndex : Index :=
  { metadata := { projectRoot := "/p" } }

/-- A form of it with an undeclared field of groups that nest one deeper than the reader goes. -/
def tooDeepParts : List Part :=
  Record.partsAll true rootedIndex.records ++ [.item (nestedGroups maxDepth)]

/-- Undeclared fields that nest too deep make the reader refuse an index. -/
theorem too_deep_refused :
    rootedIndex.InRange ∧ Writes rootedIndex.records tooDeepParts ∧
    Part.bytes tooDeepParts = [0x0a, 0x04, 0x1a, 0x02, 0x2f, 0x70] ++
      List.replicate 101 0x23 ++ List.replicate 101 0x24 ∧
    ofBytes? (Part.bytes tooDeepParts) = none := by
  have hrange : rootedIndex.InRange := by decide
  -- Without the undeclared field, the parts are the plain encoding.
  have hwrites : Writes rootedIndex.records tooDeepParts :=
    writes_partsAll true rootedIndex.records
  have hfits : ¬Part.allFit maxDepth tooDeepParts = true := by decide +kernel
  refine ⟨hrange, hwrites, by decide +kernel, ?_⟩
  rw [ofBytes?_bytes hrange hwrites (by decide +kernel), if_neg hfits]

end Index

end DeadSymbols
