import DeadSymbols.Calendar
import DeadSymbols.Number.Integer
import DeadSymbols.Number.Shortest

/-!
# Document values

One type for what dump files and configuration files hold. A mapping is its list of entries in the
order in which the keys were first written; a later entry for a key replaces the value in place.
Numbers that are equal are one key, whatever their kind.

`display` is the text a value has on its own and `literal` the text it has inside a collection or
a message; they differ for texts and for dates.
-/

namespace DeadSymbols

/-- A value of a JSON, YAML or TOML document. -/
inductive Value
  | null
  | bool (b : Bool)
  | int (n : Int)
  | real (x : Double)
  | text (s : String)
  | bytes (content : Text.Bytes)
  | date (d : Date)
  | clock (t : Clock)
  | moment (m : Moment)
  | list (items : List Value)
  | pair (first second : Value)
  | set (items : List Value)
  | map (entries : List (Value × Value))
  deriving Repr

namespace Value

/-- The value of a value that is a number. -/
inductive Numeric
  | int (n : Int)
  | real (x : Double)

/-- A truth value counts as zero or one. -/
def numeric? : Value → Option Numeric
  | .bool b => some (.int (if b then 1 else 0))
  | .int n => some (.int n)
  | .real x => some (.real x)
  | _ => none

/-- Whether two numbers are equal. -/
def Numeric.same : Numeric → Numeric → Bool
  | .int m, .int n => m == n
  | .int m, .real y => y.equalsInt m
  | .real x, .int n => x.equalsInt n
  | .real x, .real y => x.sameKey y

/-- Whether two values are one key of a mapping. -/
def sameKey : Value → Value → Bool
  | .null, .null => true
  | .text s, .text t => s == t
  | .bytes b, .bytes c => b == c
  | .date d, .date e => d == e
  | .clock t, .clock u => t == u
  | .moment m, .moment n => m == n
  | .pair a b, .pair c d => sameKey a c && sameKey b d
  | v, w =>
    match v.numeric?, w.numeric? with
    | some m, some n => m.same n
    | _, _ => false

/-- Whether the value can be a key: a collection that could change cannot. -/
def isKey : Value → Bool
  | .list _ | .set _ | .map _ => false
  | .pair a b => a.isKey && b.isKey
  | _ => true

/-- The entries with one more written: a key that is present keeps its place. -/
def putEntry (entries : List (Value × Value)) (key value : Value) : List (Value × Value) :=
  match entries with
  | [] => [(key, value)]
  | (k, v) :: rest =>
    if k.sameKey key then (k, value) :: rest else (k, v) :: putEntry rest key value

/-- The value under a text key of a list of entries. -/
def entry? (entries : List (Value × Value)) (key : String) : Option Value :=
  match entries with
  | [] => none
  | (.text k, v) :: rest => if k = key then some v else entry? rest key
  | _ :: rest => entry? rest key

/-- Whether the value counts as absent where a setting asks for one: nothing, false, zero and all
that is empty. -/
def isFalsy : Value → Bool
  | .null => true
  | .bool b => !b
  | .int n => n == 0
  | .real x => x.isZero
  | .text s => s.isEmpty
  | .bytes b => b.isEmpty
  | .list items => items.isEmpty
  | .set items => items.isEmpty
  | .map entries => entries.isEmpty
  | _ => false

/-! ## Texts of values -/

mutual

/-- The text of a value inside a collection or a message. -/
def literal : Value → String
  | .null => "None"
  | .bool b => if b then "True" else "False"
  | .int n => toString n
  | .real x => x.text
  | .text s => Text.quoted s
  | .bytes content => Text.quotedBytes content
  | .date d => d.literal
  | .clock t => t.literal
  | .moment m => m.literal
  | .list items => "[" ++ String.intercalate ", " (literals items) ++ "]"
  | .pair a b => "(" ++ a.literal ++ ", " ++ b.literal ++ ")"
  | .set items =>
    if items.isEmpty then "set()" else "\x7b" ++ String.intercalate ", " (literals items) ++ "\x7d"
  | .map entries => "\x7b" ++ String.intercalate ", " (entryLiterals entries) ++ "\x7d"

/-- The texts of the items of a collection. -/
def literals : List Value → List String
  | [] => []
  | v :: rest => v.literal :: literals rest

/-- The texts of the entries of a mapping. -/
def entryLiterals : List (Value × Value) → List String
  | [] => []
  | (k, v) :: rest => (k.literal ++ ": " ++ v.literal) :: entryLiterals rest

end

/-- The text of a value on its own. -/
def display : Value → String
  | .text s => s
  | .date d => d.display
  | .clock t => t.display
  | .moment m => m.display
  | v => v.literal

mutual

/-- Whether the text of a value can be written: no integer in it has too many digits. -/
def isWritable : Value → Bool
  | .int n => Integer.isWritable n
  | .list items => areWritable items
  | .set items => areWritable items
  | .pair a b => a.isWritable && b.isWritable
  | .map entries => entriesAreWritable entries
  | _ => true

/-- Whether the texts of the items of a collection can be written. -/
def areWritable : List Value → Bool
  | [] => true
  | v :: rest => v.isWritable && areWritable rest

/-- Whether the texts of the entries of a mapping can be written. -/
def entriesAreWritable : List (Value × Value) → Bool
  | [] => true
  | (k, v) :: rest => k.isWritable && v.isWritable && entriesAreWritable rest

end

/-! ## Values as integers -/

/-- Why a value is not an integer. -/
inductive IntFault
  /-- It is of a kind that no integer is made of. -/
  | kind
  /-- It is a text that spells none, or not a number. -/
  | spelling (fault : Option IntegerFault)
  /-- It is infinite. -/
  | infinite
  deriving DecidableEq, Repr

/-- The integer a value stands for: a number loses its fraction, a text is read. -/
def toInt : Value → Except IntFault Int
  | .bool b => .ok (if b then 1 else 0)
  | .int n => .ok n
  | .real .nan => .error (.spelling none)
  | .real (.infinite _) => .error .infinite
  | .real x => .ok ((x.truncated?).getD 0)
  | .text s => (Integer.read s).mapError (.spelling ∘ some)
  | .bytes b => (Integer.readBytes b).mapError (.spelling ∘ some)
  | _ => .error .kind

end Value

end DeadSymbols
