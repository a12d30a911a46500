import DeadSymbols.Ledger
import DeadSymbols.Span

/-!
# Symbol indexes

The part of an index that the analysis reads: documents with their occurrences, and what is said
about symbols. Symbols are texts that mean the same in the whole build, except local ones, which
mean something in their document only.

A field that an encoded index leaves out has the default of its type. That holds of the parts that
are messages of their own too, which are what is said about the index and about the tool: an
encoding tells a part that is left out from an empty one, and here both are the empty part.
-/

namespace DeadSymbols

/-- What made an index. -/
structure ToolInfo where
  name : String := ""
  version : String := ""
  arguments : List String := []
  deriving DecidableEq, Repr

/-- What is said about an index as a whole. -/
structure IndexMetadata where
  version : Int := 0
  /-- Empty also if the encoding says nothing about the tool. -/
  toolInfo : ToolInfo := {}
  projectRoot : String := ""
  textEncoding : Int := 0
  deriving DecidableEq, Repr

/-- What is said about a symbol. -/
structure SymbolInfo where
  symbol : String := ""
  documentation : List String := []
  kind : Int := 0
  displayName : String := ""
  enclosingSymbol : String := ""
  deriving DecidableEq, Repr

/-- A place where a symbol occurs. -/
structure Occurrence where
  range : List Int := []
  symbol : String := ""
  /-- A mask; its lowest bit marks a definition. -/
  roles : Int := 0
  syntaxKind : Int := 0
  enclosingRange : List Int := []
  deriving DecidableEq, Repr

/-- A source file. -/
structure Document where
  relativePath : String := ""
  language : String := ""
  occurrences : List Occurrence := []
  symbols : List SymbolInfo := []
  deriving DecidableEq, Repr

/-- An index. -/
structure Index where
  /-- Empty also if the encoding says nothing about the index. -/
  metadata : IndexMetadata := {}
  documents : List Document := []
  externalSymbols : List SymbolInfo := []
  deriving DecidableEq, Repr

/-- Whether the occurrence defines its symbol. -/
def Occurrence.isDefinition (o : Occurrence) : Bool :=
  o.roles % 2 == 1

/-- A range of another length than three or four, in a file. -/
structure RangeFault where
  path : String
  size : Nat
  deriving DecidableEq, Repr

/-- The wording of a fault. -/
def RangeFault.message (f : RangeFault) : String :=
  f.path ++ ": occurrence range has " ++ toString f.size ++ " elements"

/-- The span of a range, whose lines and columns count from zero. A range of three numbers stays on
one line. -/
def Index.span (path : String) (range : List Int) : Except RangeFault Span :=
  match range with
  | [line, column, columnEnd] => .ok ⟨path, line + 1, column + 1, line + 1, columnEnd + 1⟩
  | [line, column, lineEnd, columnEnd] =>
    .ok ⟨path, line + 1, column + 1, lineEnd + 1, columnEnd + 1⟩
  | _ => .error ⟨path, range.length⟩

/-- The names of the kinds of symbols, by number. -/
def Index.kindNames : List (Int × String) :=
  [(1, "Array"), (2, "Assertion"), (3, "AssociatedType"), (4, "Attribute"), (5, "Axiom"),
   (6, "Boolean"), (7, "Class"), (8, "Constant"), (9, "Constructor"), (10, "DataFamily"),
   (11, "Enum"), (12, "EnumMember"), (13, "Event"), (14, "Fact"), (15, "Field"), (16, "File"),
   (17, "Function"), (18, "Getter"), (19, "Grammar"), (20, "Instance"), (21, "Interface"),
   (22, "Key"), (23, "Lang"), (24, "Lemma"), (25, "Macro"), (26, "Method"),
   (27, "MethodReceiver"), (28, "Message"), (29, "Module"), (30, "Namespace"), (31, "Null"),
   (32, "Number"), (33, "Object"), (34, "Operator"), (35, "Package"), (36, "PackageObject"),
   (37, "Parameter"), (38, "ParameterLabel"), (39, "Pattern"), (40, "Predicate"),
   (41, "Property"), (42, "Protocol"), (43, "Quasiquoter"), (44, "SelfParameter"),
   (45, "Setter"), (46, "Signature"), (47, "Subscript"), (48, "String"), (49, "Struct"),
   (50, "Tactic"), (51, "Theorem"), (52, "Trait"), (53, "Type"), (54, "TypeAlias"),
   (55, "TypeClass"), (56, "TypeFamily"), (57, "TypeParameter"), (58, "Union"), (59, "Value"),
   (60, "Variable"), (62, "Contract"), (63, "Error"), (64, "Library"), (65, "Modifier"),
   (66, "AbstractMethod"), (67, "MethodSpecification"), (68, "ProtocolMethod"),
   (69, "PureVirtualMethod"), (70, "TraitMethod"), (71, "TypeClassMethod"), (72, "Accessor"),
   (73, "Delegate"), (74, "MethodAlias"), (75, "SingletonClass"), (76, "SingletonMethod"),
   (77, "StaticDataMember"), (78, "StaticEvent"), (79, "StaticField"), (80, "StaticMethod"),
   (81, "StaticProperty"), (82, "StaticVariable"), (83, "ThisParameter"), (84, "Extension"),
   (85, "Mixin"), (86, "Concept")]

/-- The name of a kind; zero says that the kind is not known. -/
def Index.kindName (kind : Int) : String :=
  if kind = 0 then "<unknown>"
  else (kindNames.lookup kind).getD ("Kind(" ++ toString kind ++ ")")

end DeadSymbols
