import DeadSymbols.Source.Node

/-!
# Regions of macro input

The regions of a source in which a definition may be made by a macro: macro calls and definitions,
attributes, and the heads of functions that are macros themselves. Nothing is looked for inside a
macro or an attribute, since the whole of it is a region already.

A function is a macro if one of the attributes before it says so. Its region goes from the first of
its attributes to its return type.
-/

namespace DeadSymbols.Region

open Source (Node NodeKind)
open Text (Bytes)

/-- The paths of the attributes that make a function a macro. -/
def entryPaths : List String :=
  ["proc_macro", "proc_macro_derive", "proc_macro_attribute"]

/-- A region that was found, with the name of the function if the function is a macro. -/
structure Found where
  region : Region
  entryPoint : Option String
  deriving DecidableEq, Repr

/-- The attributes before a node, given the nodes before it, nearest first. Comments may stand
between them. -/
def leadingAttributes (before : List Node) : List Node :=
  (before.takeWhile fun n =>
    match n.kind with
    | .attribute _ | .comment => true
    | _ => false).filter fun n => n.kind != .comment

/-- Whether the node is an attribute that makes a function a macro. -/
def isEntryAttribute (n : Node) : Bool :=
  match n.kind with
  | .attribute path => entryPaths.contains path
  | _ => false

/-- The earlier of two positions. -/
def earlier (p q : Position) : Position := if p.le q then p else q

/-- The later of two positions. -/
def later (p q : Position) : Position := if p.le q then q else p

/-- The least region with both regions in it. -/
def hull (a b : Region) : Region := ⟨earlier a.start b.start, later a.stop b.stop⟩

/-- The region of a function that is a macro, given the nodes before it, nearest first. -/
def entryRegion? (lines : List Bytes) (before : List Node) (returnType : Option Extent) :
    Option Region :=
  let attributes := leadingAttributes before
  if attributes.any isEntryAttribute then
    let parts := attributes.map (fun n => Source.region lines n.extent) ++
      (returnType.map (Source.region lines)).toList
    match parts with
    | [] => none
    | first :: rest => some (rest.foldl hull first)
  else none

/-- What a node of a kind contributes itself. -/
def ownRegions (lines : List Bytes) (before : List Node) (kind : NodeKind) (extent : Extent) :
    List Found :=
  match kind with
  | .function name returnType =>
    ((entryRegion? lines before returnType).map fun r => ⟨r, some name⟩).toList
  | _ => if kind.isMuting then [⟨Source.region lines extent, none⟩] else []

mutual

/-- The regions in a node, given the nodes before it, nearest first. A node comes before its parts,
and a later part before an earlier one. -/
def inNode (lines : List Bytes) (before : List Node) : Node → List Found
  | .mk kind extent children =>
    ownRegions lines before kind extent ++
      (if kind.isMuting then [] else inNodes lines [] children)

/-- The regions in nodes that follow each other. -/
def inNodes (lines : List Bytes) (before : List Node) : List Node → List Found
  | [] => []
  | n :: rest => inNodes lines (n :: before) rest ++ inNode lines before n

end

/-- The regions of a tree of a source, in the order of the search. -/
def search (source : Bytes) (tree : Node) : List Found :=
  inNode (Source.lines source) [] tree

/-- The regions in order. -/
def inOrder (found : List Found) : List Region :=
  (found.map (·.region)).mergeSort Region.le

/-- The regions of a tree of a source, in order. -/
def collect (source : Bytes) (tree : Node) : List Region :=
  inOrder (search source tree)

/-- The regions of a source in the tree that a parser makes of it, in order. -/
def ofSource (parse : Source.Parser) (source : Bytes) : List Region :=
  collect source (parse source)

end DeadSymbols.Region
