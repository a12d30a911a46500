/-!
# Ledgers

A ledger is a map that remembers the order in which its keys were first written. Writing a key
again replaces its value and leaves the key at its place, so the entries are always listed in the
order of first writing, one for each key.
-/

namespace DeadSymbols

/-- A map with its keys in the order of first writing. -/
structure Ledger (α β : Type) where
  entries : List (α × β)
  deriving DecidableEq, Repr

namespace Ledger

variable {α β : Type} [DecidableEq α]

/-- The ledger with nothing written. -/
def empty : Ledger α β := ⟨[]⟩

/-- The entries after writing a value under a key. -/
def putList (key : α) (value : β) : List (α × β) → List (α × β)
  | [] => [(key, value)]
  | (k, v) :: rest => if k = key then (key, value) :: rest else (k, v) :: putList key value rest

/-- The ledger after writing a value under a key. -/
def put (l : Ledger α β) (key : α) (value : β) : Ledger α β :=
  ⟨putList key value l.entries⟩

/-- The value last written under a key. -/
def get? (l : Ledger α β) (key : α) : Option β :=
  l.entries.lookup key

/-- Whether something was written under a key. -/
def has (l : Ledger α β) (key : α) : Bool :=
  l.entries.any fun e => e.1 = key

/-- The keys in the order of first writing. -/
def keys (l : Ledger α β) : List α :=
  l.entries.map (·.1)

/-- The values in the order of their keys. -/
def values (l : Ledger α β) : List β :=
  l.entries.map (·.2)

/-- The number of keys. -/
def size (l : Ledger α β) : Nat :=
  l.entries.length

end Ledger

end DeadSymbols
