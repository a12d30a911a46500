import DeadSymbols.Source.Lexeme
import DeadSymbols.Source.Node

/-!
# The outline of a source

Reads the tree of a source off its lexemes. Brackets are matched first, which gives groups in
groups. In each list of groups and lexemes, attributes, macro definitions, macro calls and functions
are then recognised by how they begin; what is none of these stays as it is. Comments may stand
between any two lexemes.

A recogniser takes the list it is tried on and gives what it found with the list after it.
-/

namespace DeadSymbols.Source

open Text (Bytes)

/-- A lexeme, or a group of them between brackets. -/
inductive Piece
  | lexeme (l : Lexeme)
  | group (d : Delimiter) (extent : Extent) (inside : List Piece)

namespace Piece

/-- Where the piece is. -/
def extent : Piece → Extent
  | lexeme l => l.extent
  | group _ extent _ => extent

/-- Whether the piece is a comment. -/
def isComment : Piece → Bool
  | lexeme l => l.token == .comment
  | group _ _ _ => false

/-- The word that the piece is. -/
def word? : Piece → Option String
  | lexeme ⟨.word text, _⟩ => some text
  | _ => none

/-- Whether the piece is a given word. -/
def isWord (text : String) (p : Piece) : Bool := p.word? == some text

/-- Whether the piece is a given mark. -/
def isMark (text : String) : Piece → Bool
  | lexeme l => l.token == .mark text
  | group _ _ _ => false

/-- Whether the piece is a literal. -/
def isLiteral : Piece → Bool
  | lexeme l => l.token == .literal
  | group _ _ _ => false

/-- Whether the piece is a group. -/
def isGroup : Piece → Bool
  | group _ _ _ => true
  | lexeme _ => false

/-- Whether the piece is a group with given brackets. -/
def isGroupOf (d : Delimiter) : Piece → Bool
  | group d' _ _ => d' == d
  | lexeme _ => false

/-- The lexemes as pieces, up to a closing bracket that no lexeme among them opens; and the lexemes
from there on. A lexeme is used up by every call, so their number bounds `fuel`. -/
def ofLexemesAux : Nat → List Lexeme → List Piece × List Lexeme
  | 0, rest => ([], rest)
  | _ + 1, [] => ([], [])
  | fuel + 1, l :: rest =>
    match l.token with
    | .closes _ => ([], l :: rest)
    | .opens d =>
      let (inside, after) := ofLexemesAux fuel rest
      match after with
      | [] => ([group d l.extent inside], [])
      | close :: after' =>
        let (more, last) := ofLexemesAux fuel after'
        (group d (l.extent.hull close.extent) inside :: more, last)
    | _ =>
      let (more, last) := ofLexemesAux fuel rest
      (lexeme l :: more, last)

/-- The pieces of a list of lexemes. -/
def ofLexemes (ls : List Lexeme) : List Piece :=
  (ofLexemesAux (ls.length + 1) ls).1

end Piece

namespace Outline

/-- The pieces from the first one that is no comment. -/
def skipComments (ps : List Piece) : List Piece :=
  ps.dropWhile Piece.isComment

/-- The pieces after one that passes a test, comments before it left out. -/
def expect? (test : Piece → Bool) (ps : List Piece) : Option (Piece × List Piece) :=
  match skipComments ps with
  | p :: rest => if test p then some (p, rest) else none
  | [] => none

/-- The path at the front of an attribute, its words and marks written together. -/
def attributePath : List Piece → String
  | [] => ""
  | p :: rest =>
    if p.isComment then attributePath rest
    else
      match p.word? with
      | some text => text ++ attributePath rest
      | none => if p.isMark "::" then "::" ++ attributePath rest else ""

/-- An attribute. -/
def attribute? (ps : List Piece) : Option (NodeKind × Extent × List Piece) := do
  let (hash, rest) ← expect? (Piece.isMark "#") ps
  match expect? (Piece.isMark "!") rest with
  | some (_, rest) =>
    let (g, rest) ← expect? (Piece.isGroupOf .bracket) rest
    return (.innerAttribute, hash.extent.hull g.extent, rest)
  | none =>
    match ← expect? (Piece.isGroupOf .bracket) rest with
    | (.group _ extent inside, rest) =>
      return (.attribute (attributePath inside), hash.extent.hull extent, rest)
    | _ => none

/-- The words that may stand before an exclamation mark that begins an expression or a type, so that
they do not name a macro there. -/
def operatorWords : List String :=
  ["as", "break", "const", "for", "if", "impl", "in", "match", "mut", "return", "while", "yield"]

/-- The pieces after generic arguments, of which `depth` are open. -/
def skipAngles : Nat → List Piece → Option (List Piece)
  | _, [] => none
  | depth, p :: rest =>
    if p.isMark "<" then skipAngles (depth + 1) rest
    else if p.isMark ">" then
      match depth with
      | 0 => none
      | 1 => some rest
      | depth + 1 => skipAngles depth rest
    else skipAngles depth rest

/-- The pieces after the rest of a path, whose last segment was just read. -/
def pathRest : Nat → List Piece → List Piece
  | 0, ps => ps
  | fuel + 1, ps =>
    match expect? (Piece.isMark "::") ps with
    | none => ps
    | some (_, rest) =>
      match expect? (·.word?.isSome) rest with
      | some (_, rest') => pathRest fuel rest'
      | none =>
        match expect? (Piece.isMark "<") rest with
        | none => ps
        | some (_, rest') =>
          match skipAngles 1 rest' with
          | none => ps
          | some rest'' => pathRest fuel rest''

/-- The first piece of a path and the pieces after the path. -/
def path? (ps : List Piece) : Option (Piece × List Piece) :=
  match ps with
  | [] => none
  | p :: rest =>
    if p.isMark "::" then
      match expect? (·.word?.isSome) rest with
      | none => none
      | some (_, rest') => some (p, pathRest rest'.length rest')
    else
      match p.word? with
      | none => none
      | some text =>
        let after := pathRest rest.length rest
        if after.length = rest.length && operatorWords.contains text then none
        else some (p, after)

/-- A macro call. -/
def macroCall? (ps : List Piece) : Option (Extent × List Piece) := do
  let (first, rest) ← path? ps
  let (_, rest) ← expect? (Piece.isMark "!") rest
  let (g, rest) ← expect? Piece.isGroup rest
  return (first.extent.hull g.extent, rest)

/-- A macro definition. Unless its rules stand in braces, a semicolon belongs to it. -/
def macroDefinition? (ps : List Piece) : Option (Extent × List Piece) :=
  match ps with
  | [] => none
  | first :: rest =>
    if !first.isWord "macro_rules" then none
    else do
      let (_, rest) ← expect? (Piece.isMark "!") rest
      let (_, rest) ← expect? (·.word?.isSome) rest
      let (g, rest) ← expect? Piece.isGroup rest
      let extent := first.extent.hull g.extent
      if g.isGroupOf .brace then return (extent, rest)
      match expect? (Piece.isMark ";") rest with
      | some (semicolon, rest') => return (extent.hull semicolon.extent, rest')
      | none => return (extent, rest)

/-- The pieces after the visibility of an item. -/
def afterVisibility (ps : List Piece) : List Piece :=
  match expect? (Piece.isWord "pub") ps with
  | some (_, rest) =>
    match expect? (Piece.isGroupOf .parenthesis) rest with
    | some (_, rest') => rest'
    | none => rest
  | none =>
    match expect? (Piece.isWord "crate") ps with
    | some (_, rest) => rest
    | none => ps

/-- The words that may stand before a function. -/
def modifiers : List String := ["async", "const", "default", "extern", "gen", "safe", "unsafe"]

/-- The pieces after the modifiers of a function; one of them may have a literal with it. -/
def afterModifiers : List Piece → List Piece
  | [] => []
  | p :: rest =>
    if p.isComment || p.isLiteral || modifiers.any p.isWord then afterModifiers rest
    else p :: rest

/-- The pieces of a signature up to its end: a semicolon, a block, or the word `where` if the search
is for a type. `depth` generic arguments are open; a block among them ends nothing. -/
def signaturePart (inType : Bool) : Nat → Nat → List Piece → List Piece × List Piece
  | 0, _, ps => ([], ps)
  | _ + 1, _, [] => ([], [])
  | fuel + 1, depth, p :: rest =>
    match macroCall? (p :: rest) with
    | some (_, rest') =>
      let (part, after) := signaturePart inType fuel depth rest'
      ((p :: rest).take (rest.length + 1 - rest'.length) ++ part, after)
    | none =>
      if depth = 0 && (p.isMark ";" || p.isGroupOf .brace || (inType && p.isWord "where")) then
        ([], p :: rest)
      else
        let depth' :=
          if p.isMark "<" then depth + 1 else if p.isMark ">" then depth - 1 else depth
        let (part, after) := signaturePart inType fuel depth' rest
        (p :: part, after)

/-- The extent of pieces, comments at either end left out. -/
def extent? (ps : List Piece) : Option Extent :=
  match ps.filter fun p => !p.isComment with
  | [] => none
  | p :: rest => some (rest.foldl (fun e q => e.hull q.extent) p.extent)

/-- The pieces after the generic parameters of a function, if it has any. -/
def afterGenerics? (ps : List Piece) : Option (List Piece) :=
  match expect? (Piece.isMark "<") ps with
  | some (_, rest) => skipAngles 1 rest
  | none => some ps

/-- The extent of the return type of a function, if it has one, and the pieces after it. -/
def returnType (ps : List Piece) : Option Extent × List Piece :=
  match expect? (Piece.isMark "->") ps with
  | some (_, rest) =>
    let (part, after) := signaturePart true (rest.length + 1) 0 rest
    (extent? part, after)
  | none => (none, ps)

/-- A function that was recognised. -/
structure Function where
  name : String
  returnType : Option Extent
  extent : Extent
  /-- What stands after the word that introduces the function, its body included. -/
  inside : List Piece

/-- A function with a body. -/
def function? (ps : List Piece) : Option (Function × List Piece) := do
  let start ← ps.head?
  if start.isComment then none
  else
    let (_, inside) ← expect? (Piece.isWord "fn") (afterModifiers (afterVisibility ps))
    let (namePiece, rest) ← expect? (·.word?.isSome) inside
    let name ← namePiece.word?
    let rest ← afterGenerics? rest
    let (_, rest) ← expect? (Piece.isGroupOf .parenthesis) rest
    let (type, rest) := returnType rest
    let (_, rest) := signaturePart false (rest.length + 1) 0 rest
    let (body, rest) ← expect? (Piece.isGroupOf .brace) rest
    return (⟨name, type, start.extent.hull body.extent,
      inside.take (inside.length - rest.length)⟩, rest)

/-- The nodes of a list of pieces. Every call works on fewer lexemes than the last, so their number
bounds `fuel`. -/
def nodesAux : Nat → List Piece → List Node
  | 0, _ => []
  | _ + 1, [] => []
  | fuel + 1, p :: rest =>
    if p.isComment then .mk .comment p.extent [] :: nodesAux fuel rest
    else
      match attribute? (p :: rest) with
      | some (kind, extent, rest') => .mk kind extent [] :: nodesAux fuel rest'
      | none =>
        match macroDefinition? (p :: rest) with
        | some (extent, rest') => .mk .macroDefinition extent [] :: nodesAux fuel rest'
        | none =>
          match macroCall? (p :: rest) with
          | some (extent, rest') => .mk .macroCall extent [] :: nodesAux fuel rest'
          | none =>
            match function? (p :: rest) with
            | some (f, rest') =>
              .mk (.function f.name f.returnType) f.extent (nodesAux fuel f.inside) ::
                nodesAux fuel rest'
            | none =>
              match p with
              | .group _ extent inside =>
                .mk .other extent (nodesAux fuel inside) :: nodesAux fuel rest
              | .lexeme l => .mk .other l.extent [] :: nodesAux fuel rest

end Outline

/-- The outline of a source. -/
def outline (source : Bytes) : Node :=
  let ls := lexemes source
  .mk .other ⟨⟨0, 0⟩, Point.after ⟨0, 0⟩ source⟩
    (Outline.nodesAux (ls.length + 1) (Piece.ofLexemes ls))

/-- The number of columns that the places of a tree tell apart: 2 ^ 32. -/
def columnLimit : Nat := 4294967296

/-- The parser that makes outlines. A source of more bytes than columns can be told apart is not
looked into. -/
def parser : Parser := fun source =>
  if source.length < columnLimit then outline source else .mk .other ⟨⟨0, 0⟩, ⟨0, 0⟩⟩ []

end DeadSymbols.Source
