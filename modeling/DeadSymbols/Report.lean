import DeadSymbols.Span

/-!
# Reports

A finding is one unused definition. A report lists findings by place, then kind, then name; the
symbol breaks the remaining ties, so that a report has one order whatever order its findings were
made in.
-/

namespace DeadSymbols

/-- An unused definition. -/
structure Finding where
  span : Span
  kind : String
  name : String
  /-- The printed identity. -/
  symbol : String
  deriving DecidableEq, Repr

/-- Findings in report order. -/
instance : Ord Finding where
  compare :=
    compareLex (compareOn Finding.span) <|
    compareLex (compareOn Finding.kind) <|
    compareLex (compareOn Finding.name) (compareOn Finding.symbol)

namespace Finding

/-- Whether the first finding may stand before the second. -/
def le (a b : Finding) : Bool := (compare a b).isLE

/-- The line printed for a finding. -/
def display (f : Finding) : String :=
  f.span.display ++ ": unused " ++ f.kind ++ " '" ++ f.name ++ "'"

/-- The findings in report order. -/
def inOrder (found : List Finding) : List Finding :=
  found.mergeSort le

end Finding

/-- The counts an analysis states about itself, with their names. -/
abbrev Counts := List (String × Nat)

end DeadSymbols
