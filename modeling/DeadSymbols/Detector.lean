import DeadSymbols.Graph
import DeadSymbols.Report
import DeadSymbols.Text.Quoted

/-!
# Finding unused definitions

A definition that no reference targets is a candidate. A candidate is reported unless a rule
suppresses it; the rules make up for what dumps are known to leave out, and are tried in a fixed
order, so that each suppressed definition has one reason. The last rule asks whether the definition
lies in macro input, a question that costs a look at the source; it is asked through a function
given by the caller, in a monad of the caller's choice, and only when no other rule applies.

Candidates can be worked on in batches. The report is put in order at the end and is the same for
every division into batches.
-/

namespace DeadSymbols

/-- How implementations of declared members are treated. -/
inductive Policy
  /-- Suppressed if the declared member is used or its unit is not covered. -/
  | resolve
  /-- Always suppressed. -/
  | always
  deriving DecidableEq, Repr

namespace Policy

/-- The name of a policy. -/
def name : Policy → String
  | .resolve => "resolve"
  | .always => "always"

/-- All policies, in the order in which messages list them. -/
def all : List Policy := [.resolve, .always]

/-- The policy of a name. -/
def ofName? (s : String) : Option Policy :=
  all.find? fun p => p.name = s

/-- The wording about a name that no policy has. -/
def unknownMessage (s : String) : String := "unknown trait_impl_policy: " ++ Text.quoted s

end Policy

/-- Why a definition is not reported. -/
inductive Reason
  | underscore
  | selfReceiver
  | localBinding
  | tupleVariant
  | implementation
  | associatedType
  | macroInput
  deriving DecidableEq, Repr

/-- The name of a reason. -/
def Reason.name : Reason → String
  | .underscore => "underscore"
  | .selfReceiver => "self-receiver"
  | .localBinding => "local"
  | .tupleVariant => "tuple-variant"
  | .implementation => "trait-impl"
  | .associatedType => "associated-type"
  | .macroInput => "macro"

namespace Detector

/-- Whether a definition implements a member about which the graph proves nothing: under `resolve`,
one that is used or that belongs to a unit outside the covered ones. -/
def isExcusedImplementation (g : SymbolGraph) (policy : Policy) (d : Definition) : Bool :=
  match d.declaration with
  | none => false
  | some member =>
    match policy with
    | .always => true
    | .resolve => g.isUsed member || !g.covered.contains member.unit

/-- Whether a definition is the associated type of a trait. -/
def isAssociatedType (g : SymbolGraph) (d : Definition) : Bool :=
  match g.lookup d.parent with
  | none => false
  | some parent => parent.kind == "Trait" && d.kind == "Type"

/-- The first rule that suppresses a definition, among those that need no source. -/
def graphReason (g : SymbolGraph) (policy : Policy) (d : Definition) : Option Reason :=
  if "_".toList.isPrefixOf d.name.toList then some .underscore
  else if d.kind = "Local" ∧ d.name = "self" then some .selfReceiver
  else if d.kind = "Local" then some .localBinding
  else if d.kind = "TupleVariant" then some .tupleVariant
  else if isExcusedImplementation g policy d then some .implementation
  else if isAssociatedType g d then some .associatedType
  else none

/-- What the detector asks about the source, and whom it tells about a suppressed definition. -/
structure Source (m : Type → Type) where
  /-- Whether a span of a unit lies in macro input. -/
  inMacroInput : UnitId → Span → m Bool
  /-- Takes note of a definition that is not reported. -/
  note : Definition → Reason → m Unit

/-- The source that knows of no macro input and takes no notes. -/
def Source.silent {m : Type → Type} [Monad m] : Source m :=
  ⟨fun _ _ => pure false, fun _ _ => pure ()⟩

/-- A source that answers by a function and takes no notes. -/
def Source.ofFunction (answer : UnitId → Span → Bool) : Source Id :=
  ⟨fun u s => answer u s, fun _ _ => ()⟩

section

variable {m : Type → Type} [Monad m]

/-- The first rule that suppresses a definition. -/
def reason (g : SymbolGraph) (policy : Policy) (source : Source m) (d : Definition) :
    m (Option Reason) :=
  match graphReason g policy d with
  | some r => pure (some r)
  | none => do
    return if ← source.inMacroInput d.id.unit d.span then some .macroInput else none

/-- What a report says about a definition. -/
def finding (d : Definition) : Finding :=
  ⟨d.span, d.kind, d.name, d.id.display⟩

/-- The findings among a list of candidates, in its order. -/
def evaluate (g : SymbolGraph) (policy : Policy) (source : Source m) :
    List Definition → m (List Finding)
  | [] => pure []
  | d :: rest => do
    match ← reason g policy source d with
    | some r =>
      source.note d r
      evaluate g policy source rest
    | none => return finding d :: (← evaluate g policy source rest)

/-- The findings among batches of candidates, one batch after the other. -/
def evaluateBatches (g : SymbolGraph) (policy : Policy) (source : Source m) :
    List (List Definition) → m (List Finding)
  | [] => pure []
  | batch :: rest => do
    return (← evaluate g policy source batch) ++ (← evaluateBatches g policy source rest)

end

/-- The definitions that no reference targets, in graph order. -/
def candidates (g : SymbolGraph) : List Definition :=
  (g.definitions.entries.filter fun e => !g.isUsed e.1).map (·.2)

/-- A list in consecutive parts of `size + 1` items; the last part may be shorter. -/
def chunks {α : Type} (size : Nat) (items : List α) : List (List α) :=
  match items with
  | [] => []
  | item :: rest => (item :: rest.take size) :: chunks size (rest.drop size)
termination_by items.length
decreasing_by simp only [List.length_cons, List.length_drop]; omega

/-- The number of candidates in a batch: four batches for each worker, rounded up. -/
def batchSize (candidates workers : Nat) : Nat :=
  max 1 ((candidates + 4 * workers - 1) / (4 * workers))

/-- How candidates are divided among workers. One worker, or one candidate, is not divided. -/
def batches (workers : Option Int) (items : List Definition) : List (List Definition) :=
  let count := (workers.getD 1).toNat
  if count ≤ 1 ∨ items.length < 2 then [items]
  else chunks (batchSize items.length count - 1) items

/-- The report on a graph. -/
def report {m : Type → Type} [Monad m] (g : SymbolGraph) (policy : Policy) (source : Source m)
    (workers : Option Int) : m (List Finding) := do
  return Finding.inOrder (← evaluateBatches g policy source (batches workers (candidates g)))

/-- The counts that go with a report. -/
def counts (g : SymbolGraph) : Counts :=
  [("definitions", g.definitions.size), ("referenced", g.references.size),
   ("units", g.covered.length)]

end Detector

end DeadSymbols
