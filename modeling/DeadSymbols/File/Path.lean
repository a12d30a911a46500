import DeadSymbols.Text.Blank
import DeadSymbols.Text.Digit

/-!
# Paths

A path is the number of slashes it starts with and its parts. Empty parts and parts that are a
single dot say nothing and are dropped when a path is read, so equal paths have one written form;
a part of two dots is kept, because what it leads to depends on the files.
-/

namespace DeadSymbols

/-- A path in normal form. -/
structure Path where
  /-- Slashes at the front: none for a relative path, one or two for an absolute one. -/
  slashes : Nat
  parts : List String
  deriving DecidableEq, Repr

namespace Path

/-- The relative path with no parts. -/
def here : Path := ⟨0, []⟩

/-- The number of slashes that count: three or more are one. -/
def leadingSlashes (cs : List Char) : Nat :=
  let n := (cs.takeWhile (· == '/')).length
  if n ≤ 2 then n else 1

/-- Whether a part names something. -/
def isPart (part : String) : Bool :=
  part != "" && part != "."

/-- The path a text spells. -/
def ofString (s : String) : Path :=
  let cs := s.toList
  ⟨leadingSlashes cs, ((Text.splitAt '/' cs).map String.ofList).filter isPart⟩

/-- Whether the path starts at the top. -/
def isAbsolute (p : Path) : Bool := p.slashes != 0

/-- The written form. -/
def toString (p : Path) : String :=
  if p.slashes = 0 ∧ p.parts.isEmpty then "."
  else String.ofList (List.replicate p.slashes '/') ++ String.intercalate "/" p.parts

/-- The second path seen from the first; an absolute one is seen from anywhere. -/
def join (p q : Path) : Path :=
  if q.isAbsolute then q else ⟨p.slashes, p.parts ++ q.parts⟩

/-- The path with one part more. -/
def child (p : Path) (name : String) : Path :=
  ⟨p.slashes, p.parts ++ [name]⟩

/-- The last part, or nothing. -/
def name (p : Path) : String := p.parts.getLast?.getD ""

/-- The path without its last part. -/
def parent (p : Path) : Path := ⟨p.slashes, p.parts.dropLast⟩

/-- The path without its last `n` parts, if it has so many. -/
def ancestor? (p : Path) (n : Nat) : Option Path :=
  if n ≤ p.parts.length then some ⟨p.slashes, p.parts.take (p.parts.length - n)⟩ else none

/-- A name's ending from its last dot on, provided something stands before and after the dot. -/
def suffixOf (name : List Char) : List Char :=
  let ending := (name.reverse.takeWhile (· != '.')).reverse
  let before := name.length - ending.length
  if ending.isEmpty ∨ before ≤ 1 then [] else '.' :: ending

/-- The ending of the last part. -/
def suffix (p : Path) : String :=
  String.ofList (suffixOf p.name.toList)

/-- Whether a text holds the character that no path may hold. -/
def holdsNul (p : Path) : Bool :=
  p.parts.any fun part => part.toList.contains (Char.ofNat 0)

/-- The parts of an absolute path with every part of two dots taking its predecessor away. -/
def collapse (parts : List String) : List String :=
  (parts.foldl (fun kept part => if part = ".." then kept.tail else part :: kept) []).reverse

/-- The absolute path without parts of two dots, seen from a directory. -/
def resolve (p : Path) (base : List String) : Path :=
  ⟨1, collapse (if p.isAbsolute then p.parts else base ++ p.parts)⟩

end Path

end DeadSymbols
