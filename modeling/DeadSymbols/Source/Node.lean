import DeadSymbols.Source.Extent

/-!
# Syntax trees

The tree of a source, as far as macro input is concerned: where macros are called and defined, where
attributes stand, and which functions have what name and return type. All else is a node of no
further interest, kept because something of interest may be inside it.

A tree made by a parser says more. What is asked of it beyond kinds and extents is here a part of
the kind: the path of an attribute, which is the text of the first part of what stands in its
brackets, and the name and the extent of the return type of a function, which the parser keeps as
parts under these names. The parts of a node are those that have a name in the grammar. Signs and
keywords have none; nothing is ever found in them, and the nodes before a function are asked for
without them.
-/

namespace DeadSymbols.Source

/-- What a node is. -/
inductive NodeKind
  /-- A call of a macro, from its path to its closing bracket. -/
  | macroCall
  | macroDefinition
  /-- An attribute of what follows it, with its path. -/
  | attribute (path : String)
  /-- An attribute of what it stands in. -/
  | innerAttribute
  /-- A function with a body. -/
  | function (name : String) (returnType : Option Extent)
  | comment
  | other
  deriving DecidableEq, Repr

/-- Whether everything in a node of the kind is macro input or belongs to an attribute. -/
def NodeKind.isMuting : NodeKind → Bool
  | .macroCall | .macroDefinition | .attribute _ | .innerAttribute => true
  | _ => false

/-- A node with its extent and its parts in reading order. -/
inductive Node
  | mk (kind : NodeKind) (extent : Extent) (children : List Node)
  deriving Repr

namespace Node

/-- What the node is. -/
def kind : Node → NodeKind
  | mk kind _ _ => kind

/-- Where the node is. -/
def extent : Node → Extent
  | mk _ extent _ => extent

/-- The parts of the node. -/
def children : Node → List Node
  | mk _ _ children => children

end Node

/-- What makes the tree of a source. -/
abbrev Parser := Text.Bytes → Node

end DeadSymbols.Source
