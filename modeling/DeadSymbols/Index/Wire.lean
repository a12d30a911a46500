import DeadSymbols.Text.Utf8

/-!
# The wire format of an index

A message is a sequence of fields, each a number with a payload of one of five shapes. This module
cuts the bytes of one message into its fields; what a field means is decided elsewhere, by its
number and the shape of its payload.

Numbers are written seven bits to a byte, low bits first. A group is a stretch of fields between
two marks and is only ever skipped, but it has to be well formed.
-/

namespace DeadSymbols.Wire

open DeadSymbols.Text (Bytes)

/-- The payload of a field. -/
inductive Payload
  | varint (n : Nat)
  | fixed64 (content : Bytes)
  | delimited (content : Bytes)
  | group
  | fixed32 (content : Bytes)
  deriving DecidableEq, Repr

/-- A field of a message. -/
structure Field where
  number : Nat
  payload : Payload
  deriving DecidableEq, Repr

/-- A number of at most `limit` bytes and the bytes after it. -/
def varint : Nat → Bytes → Option (Nat × Bytes)
  | 0, _ => none
  | _ + 1, [] => none
  | limit + 1, b :: rest =>
    if b < 128 then some (b.toNat, rest)
    else
      match varint limit rest with
      | none => none
      | some (high, rest') => some (b.toNat - 128 + 128 * high, rest')

/-- A payload number: ten bytes at most, of which 64 bits count. -/
def number (bytes : Bytes) : Option (Nat × Bytes) :=
  (varint 10 bytes).map fun (n, rest) => (n % (1 <<< 64), rest)

/-- A field number with a shape: five bytes at most, within 32 bits. -/
def tag (bytes : Bytes) : Option (Nat × Bytes) :=
  (varint 5 bytes).filter fun (n, _) => n < 1 <<< 32

/-- The first `size` bytes and the bytes after them. -/
def take? (size : Nat) (bytes : Bytes) : Option (Bytes × Bytes) :=
  if size ≤ bytes.length then some (bytes.splitAt size) else none

/-- A length and that many bytes. -/
def delimited (bytes : Bytes) : Option (Bytes × Bytes) :=
  match number bytes with
  | none => none
  | some (size, rest) => if size < (1 <<< 31) - 1 then take? size rest else none

/-- The fields up to the end of the bytes or, inside the group of a number, up to its closing mark.
`mark` is the number of the group, and `depth` the number of groups that may still be opened. Each
field takes at least one byte, so the number of bytes bounds `fuel`. -/
def fieldsAux : Nat → Nat → Option Nat → Bytes → Option (List Field × Bytes)
  | 0, _, _, _ => none
  | _ + 1, _, mark, [] => if mark.isNone then some ([], []) else none
  | fuel + 1, depth, mark, bytes =>
    match tag bytes with
    | none => none
    | some (t, rest) =>
      let field := t / 8
      let shape := t % 8
      if shape = 4 then
        if mark = some field then some ([], rest) else none
      else if field = 0 then none
      else
        let payload : Option (Payload × Bytes) :=
          if shape = 0 then (number rest).map fun (n, r) => (.varint n, r)
          else if shape = 1 then (take? 8 rest).map fun (c, r) => (.fixed64 c, r)
          else if shape = 2 then (delimited rest).map fun (c, r) => (.delimited c, r)
          else if shape = 3 then
            match depth with
            | 0 => none
            | depth + 1 => (fieldsAux fuel depth (some field) rest).map fun (_, r) => (.group, r)
          else if shape = 5 then (take? 4 rest).map fun (c, r) => (.fixed32 c, r)
          else none
        match payload with
        | none => none
        | some (p, rest') =>
          match fieldsAux fuel depth mark rest' with
          | none => none
          | some (more, rest'') => some (⟨field, p⟩ :: more, rest'')

/-- The fields of the message with these bytes, in which `depth` groups may be nested. -/
def fields (depth : Nat) (bytes : Bytes) : Option (List Field) :=
  (fieldsAux (bytes.length + 1) depth none bytes).map (·.1)

/-- The signed number in the low 32 bits. -/
def toInt32 (n : Nat) : Int :=
  (n : Int).bmod (1 <<< 32)

/-- The numbers written one after the other up to the end of the bytes. -/
def packed : Nat → Bytes → Option (List Nat)
  | _, [] => some []
  | 0, _ => none
  | fuel + 1, bytes =>
    match number bytes with
    | none => none
    | some (n, rest) => (packed fuel rest).map (n :: ·)

/-- The signed numbers a field of a repeated number adds: one, or a whole run. A payload of another
shape adds nothing. -/
def Payload.numbers : Payload → Option (List Int)
  | .varint n => some [toInt32 n]
  | .delimited content => (packed content.length content).map (·.map toInt32)
  | _ => some []

/-- The number a field of a single number sets, if its payload has that shape. -/
def Payload.int? : Payload → Option Int
  | .varint n => some (toInt32 n)
  | _ => none

/-- The text of a payload; a payload of another shape is `none`, and one that is not UTF-8 fails. -/
def Payload.text? : Payload → Option (Option String)
  | .delimited content =>
    match Text.strictText content with
    | .ok s => some (some s)
    | .error _ => none
  | _ => some none

end DeadSymbols.Wire
