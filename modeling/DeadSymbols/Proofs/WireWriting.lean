import Mathlib
import DeadSymbols.Index.Wire
import DeadSymbols.Proofs.Utf8

/-!
# Fields as they are written

A writer beside the reader of the wire format.  An `Item` is a field to be written: its number
and its content are within the limits of the format by their types, and a group holds items
again.

Cutting the bytes of items gives back their fields (`fields_bytesAll`), unless an item is too
long or groups nest too deep.  Then the reader refuses the whole message, so its answer is known
for all items.

## Main results

* `varint_varintBytes` — reading a number undoes writing it.
* `fieldsAux_bytes` — one item is one step of the reader.
* `fieldsAux_bytesAll`, `fields_bytesAll` — items are cut into their fields.
* `packed_runBytes` — a run of numbers.
-/

namespace DeadSymbols.Wire

open DeadSymbols.Text (Bytes)

/-! ## Numbers -/

/-- The bytes of a number, seven bits to a byte and low bits first, if `limit` bytes suffice. -/
def varintBytes : Nat → Nat → Bytes
  | 0, _ => []
  | limit + 1, n =>
    if n < 128 then [UInt8.ofNat n]
    else UInt8.ofNat (n % 128 + 128) :: varintBytes limit (n / 128)

theorem varintBytes_length_pos (limit n : Nat) : 0 < (varintBytes (limit + 1) n).length := by
  rw [varintBytes]
  split <;> simp

/-- Reading a number undoes writing it. -/
theorem varint_varintBytes {limit n : Nat} (h : n < 128 ^ (limit + 1)) (rest : Bytes) :
    varint (limit + 1) (varintBytes (limit + 1) n ++ rest) = some (n, rest) := by
  induction limit generalizing n with
  | zero =>
    have hn : n < 128 := by simpa using h
    have hbyte : (UInt8.ofNat n).toNat = n := Text.toNat_byte (by omega)
    have hlow : UInt8.ofNat n < 128 := by
      rw [UInt8.lt_iff_toNat_lt, hbyte]
      exact hn
    simp [varintBytes, varint, hn, hlow, hbyte]
  | succ limit ih =>
    by_cases hn : n < 128
    · have hbyte : (UInt8.ofNat n).toNat = n := Text.toNat_byte (by omega)
      have hlow : UInt8.ofNat n < 128 := by
        rw [UInt8.lt_iff_toNat_lt, hbyte]
        exact hn
      rw [varintBytes, if_pos hn, List.singleton_append, varint, if_pos hlow, hbyte]
    · have hbyte : (UInt8.ofNat (n % 128 + 128)).toNat = n % 128 + 128 :=
        Text.toNat_byte (by omega)
      have hhigh : ¬ UInt8.ofNat (n % 128 + 128) < 128 := by
        rw [UInt8.lt_iff_toNat_lt, hbyte]
        exact Nat.not_lt.2 (Nat.le_add_left 128 _)
      have hdiv : n / 128 < 128 ^ (limit + 1) := by
        rw [pow_succ] at h
        exact Nat.div_lt_of_lt_mul (by rw [Nat.mul_comm]; exact h)
      have hsplit : n % 128 + 128 - 128 + 128 * (n / 128) = n := by omega
      rw [varintBytes, if_neg hn, List.cons_append, varint, if_neg hhigh, ih hdiv, hbyte]
      simp only [hsplit]

example : varintBytes 10 300 = [0xac, 0x02] := by decide

/-- Reading a payload number undoes writing it. -/
theorem number_varintBytes {n : Nat} (h : n < 2 ^ 64) (rest : Bytes) :
    number (varintBytes 10 n ++ rest) = some (n, rest) := by
  have hread : varint 10 (varintBytes 10 n ++ rest) = some (n, rest) :=
    varint_varintBytes (Nat.lt_trans h (by norm_num)) rest
  have hmod : n % (1 <<< 64) = n := Nat.mod_eq_of_lt h
  simp only [number, hread, Option.map_some, hmod]

/-- How many bytes are too many for a payload with a length. -/
def sizeLimit : Nat := 2 ^ 31 - 1

/-- A length and that many bytes are read back, unless they are too many. -/
theorem delimited_varintBytes {content : Bytes} (h : content.length < 2 ^ 64) (rest : Bytes) :
    delimited (varintBytes 10 content.length ++ (content ++ rest)) =
      if content.length < sizeLimit then some (content, rest) else none := by
  have htake : take? content.length (content ++ rest) = some (content, rest) := by
    simp [take?]
  rw [delimited, number_varintBytes h]
  simp only [htake]
  rfl

/-- The bytes of numbers written one after the other. -/
def runBytes (ns : List UInt64) : Bytes :=
  ns.flatMap fun n => varintBytes 10 n.toNat

theorem runBytes_cons (n : UInt64) (ns : List UInt64) :
    runBytes (n :: ns) = varintBytes 10 n.toNat ++ runBytes ns := rfl

/-- Reading a run of numbers undoes writing it. -/
theorem packed_runBytes {fuel : Nat} {ns : List UInt64} (h : (runBytes ns).length ≤ fuel) :
    packed fuel (runBytes ns) = some (ns.map (·.toNat)) := by
  induction ns generalizing fuel with
  | nil => cases fuel <;> rfl
  | cons n ns ih =>
    have hpos : 0 < (varintBytes 10 n.toNat).length := varintBytes_length_pos 9 _
    rw [runBytes_cons, List.length_append] at h
    cases fuel with
    | zero => omega
    | succ fuel =>
      have hne : varintBytes 10 n.toNat ++ runBytes ns ≠ [] :=
        List.append_ne_nil_of_left_ne_nil (List.length_pos_iff.1 hpos) _
      have hmore := ih (show (runBytes ns).length ≤ fuel by omega)
      rw [runBytes_cons, packed, number_varintBytes n.toNat_lt]
      · simp [hmore]
      · exact hne

/-! ## Items -/

/-- A field number that can be written: one of 29 bits that is not zero. -/
structure FieldNumber where
  val : Nat
  pos : 0 < val := by decide
  lt : val < 2 ^ 29 := by decide
  deriving DecidableEq, Repr

/-- A field to be written. -/
inductive Item
  | varint (number : FieldNumber) (n : UInt64)
  | fixed64 (number : FieldNumber) (content : Vector UInt8 8)
  | delimited (number : FieldNumber) (content : Bytes)
  | group (number : FieldNumber) (inside : List Item)
  | fixed32 (number : FieldNumber) (content : Vector UInt8 4)

/-- The bytes of a field number with a shape. -/
def tagBytes (number : FieldNumber) (shape : Nat) : Bytes :=
  varintBytes 5 (number.val * 8 + shape)

theorem tagBytes_length_pos (number : FieldNumber) (shape : Nat) :
    0 < (tagBytes number shape).length :=
  varintBytes_length_pos 4 _

namespace Item

/-- The number of an item. -/
def number : Item → FieldNumber
  | varint number _ | fixed64 number _ | delimited number _ | group number _
  | fixed32 number _ => number

/-- What the reader is to see of an item. -/
def field : Item → Field
  | varint number n => ⟨number.val, .varint n.toNat⟩
  | fixed64 number content => ⟨number.val, .fixed64 content.toList⟩
  | delimited number content => ⟨number.val, .delimited content⟩
  | group number _ => ⟨number.val, .group⟩
  | fixed32 number content => ⟨number.val, .fixed32 content.toList⟩

theorem field_number (i : Item) : i.field.number = i.number.val := by
  cases i <;> rfl

mutual

/-- The bytes of an item. -/
def bytes : Item → Bytes
  | varint number n => tagBytes number 0 ++ varintBytes 10 n.toNat
  | fixed64 number content => tagBytes number 1 ++ content.toList
  | delimited number content =>
    tagBytes number 2 ++ (varintBytes 10 content.length ++ content)
  | group number inside => tagBytes number 3 ++ (bytesAll inside ++ tagBytes number 4)
  | fixed32 number content => tagBytes number 5 ++ content.toList

/-- The bytes of items one after the other. -/
def bytesAll : List Item → Bytes
  | [] => []
  | i :: items => i.bytes ++ bytesAll items

end

mutual

/-- Whether the reader accepts an item where `depth` groups may still be opened. -/
def fits (depth : Nat) : Item → Bool
  | delimited _ content => decide (content.length < sizeLimit)
  | group _ inside => decide (0 < depth) && allFit (depth - 1) inside
  | varint .. | fixed64 .. | fixed32 .. => true

/-- Whether the reader accepts all of the items. -/
def allFit (depth : Nat) : List Item → Bool
  | [] => true
  | i :: items => i.fits depth && allFit depth items

end

theorem bytes_length_pos (i : Item) : 0 < i.bytes.length := by
  cases i with
  | varint number | fixed64 number | delimited number | group number | fixed32 number =>
    rw [bytes, List.length_append]
    exact Nat.add_pos_left (tagBytes_length_pos number _) _

end Item

/-! ## The reader on items -/

/-- Reading a field number with a shape undoes writing it. -/
theorem tag_tagBytes (k : FieldNumber) {shape : Nat} (h : shape < 8) (rest : Bytes) :
    tag (tagBytes k shape ++ rest) = some (k.val * 8 + shape, rest) := by
  have hlt : k.val * 8 + shape < 2 ^ 32 := by
    have := k.lt
    omega
  have hread : varint 5 (tagBytes k shape ++ rest) = some (k.val * 8 + shape, rest) :=
    varint_varintBytes (Nat.lt_trans hlt (by norm_num)) rest
  rw [tag, hread, Option.filter_some]
  exact if_pos (decide_eq_true hlt)

/-- The payload of a field with its number and its shape, and the bytes after it. -/
def payload (fuel depth number shape : Nat) (bytes : Bytes) : Option (Payload × Bytes) :=
  if shape = 0 then (Wire.number bytes).map fun q => (.varint q.1, q.2)
  else if shape = 1 then (take? 8 bytes).map fun q => (.fixed64 q.1, q.2)
  else if shape = 2 then (delimited bytes).map fun q => (.delimited q.1, q.2)
  else if shape = 3 then
    if 0 < depth then
      (fieldsAux fuel (depth - 1) (some number) bytes).map fun q => (.group, q.2)
    else none
  else if shape = 5 then (take? 4 bytes).map fun q => (.fixed32 q.1, q.2)
  else none

/-- One step of the reader: a field number with a shape, the payload, and the rest. -/
theorem fieldsAux_tagBytes (fuel depth : Nat) (mark : Option Nat) (k : FieldNumber)
    {shape : Nat} (h : shape < 8) (rest : Bytes) :
    fieldsAux (fuel + 1) depth mark (tagBytes k shape ++ rest) =
      if shape = 4 then if mark = some k.val then some ([], rest) else none
      else (payload fuel depth k.val shape rest).bind fun q =>
        (fieldsAux fuel depth mark q.2).map fun r => (⟨k.val, q.1⟩ :: r.1, r.2) := by
  have hne : tagBytes k shape ++ rest ≠ [] :=
    List.append_ne_nil_of_left_ne_nil (List.length_pos_iff.1 (tagBytes_length_pos k shape)) _
  have hnumber : (k.val * 8 + shape) / 8 = k.val := by omega
  have hshape : (k.val * 8 + shape) % 8 = shape := by omega
  have hk : k.val ≠ 0 := Nat.pos_iff_ne_zero.1 k.pos
  rw [fieldsAux, tag_tagBytes k h]
  · simp only [hnumber, hshape, if_neg hk]
    generalize hp : (ite (shape = 0) _ _ : Option (Payload × Bytes)) = p
    have hpayload : p = payload fuel depth k.val shape rest := by
      rw [← hp]
      cases depth <;> rfl
    rw [← hpayload]
    cases p with
    | none => rfl
    | some q => cases hmore : fieldsAux fuel depth mark q.2 <;> simp [hmore]
  · exact hne

/-- The mark that closes a group ends the fields inside it. -/
theorem fieldsAux_close (fuel depth : Nat) (k : FieldNumber) (rest : Bytes) :
    fieldsAux (fuel + 1) depth (some k.val) (tagBytes k 4 ++ rest) = some ([], rest) := by
  rw [fieldsAux_tagBytes _ _ _ k (by decide), if_pos rfl, if_pos rfl]

theorem take?_append {n : Nat} (v : Vector UInt8 n) (rest : Bytes) :
    take? n (v.toList ++ rest) = some (v.toList, rest) := by
  have hlength : v.toList.length = n := by simp
  simp [take?, List.take_left' hlength, List.drop_left' hlength]

mutual

/-- One item is one step of the reader. -/
theorem fieldsAux_bytes (i : Item) {fuel : Nat} (depth : Nat) (mark : Option Nat)
    (hsize : i.bytes.length < 2 ^ 64) (hfuel : i.bytes.length ≤ fuel) (tail : Bytes) :
    fieldsAux (fuel + 1) depth mark (i.bytes ++ tail) =
      if i.fits depth then
        (fieldsAux fuel depth mark tail).map fun r => (i.field :: r.1, r.2)
      else none := by
  cases i with
  | varint k n =>
    rw [Item.bytes, List.append_assoc, fieldsAux_tagBytes _ _ _ k (by decide)]
    simp [payload, number_varintBytes n.toNat_lt, Item.fits, Item.field]
  | fixed64 k content =>
    rw [Item.bytes, List.append_assoc, fieldsAux_tagBytes _ _ _ k (by decide)]
    simp [payload, take?_append, Item.fits, Item.field]
  | fixed32 k content =>
    rw [Item.bytes, List.append_assoc, fieldsAux_tagBytes _ _ _ k (by decide)]
    simp [payload, take?_append, Item.fits, Item.field]
  | delimited k content =>
    have hcontent : content.length < 2 ^ 64 := by
      simp only [Item.bytes, List.length_append] at hsize
      omega
    rw [Item.bytes, List.append_assoc, fieldsAux_tagBytes _ _ _ k (by decide)]
    by_cases hfits : content.length < sizeLimit
    · simp [payload, delimited_varintBytes hcontent, Item.fits, Item.field, hfits]
    · simp [payload, delimited_varintBytes hcontent, Item.fits, hfits]
  | group k inside =>
    have hlength : (Item.group k inside).bytes.length =
        (tagBytes k 3).length + ((Item.bytesAll inside).length + (tagBytes k 4).length) := by
      simp only [Item.bytes, List.length_append]
    have hopen := tagBytes_length_pos k 3
    -- The mark that closes the group is what the items inside are followed by.
    have hinside := fieldsAux_bytesAll inside (depth - 1) (some k.val)
      (show (Item.bytesAll inside).length < 2 ^ 64 by omega)
      (show (Item.bytesAll inside).length < fuel by omega)
      (fun fuel => fieldsAux_close fuel (depth - 1) k tail)
    rw [Item.bytes, List.append_assoc, fieldsAux_tagBytes _ _ _ k (by decide),
      if_neg (by decide), List.append_assoc]
    by_cases hdepth : 0 < depth
    · by_cases hfits : Item.allFit (depth - 1) inside = true
      · simp [payload, hinside, hdepth, hfits, Item.fits, Item.field]
      · simp [payload, hinside, hdepth, hfits, Item.fits]
    · simp [payload, hdepth, Item.fits]

/-- Items are cut into their fields, up to the bytes that end them. -/
theorem fieldsAux_bytesAll (items : List Item) {fuel : Nat} (depth : Nat) (mark : Option Nat)
    (hsize : (Item.bytesAll items).length < 2 ^ 64)
    (hfuel : (Item.bytesAll items).length < fuel) {tail rest : Bytes}
    (hclose : ∀ fuel, fieldsAux (fuel + 1) depth mark tail = some ([], rest)) :
    fieldsAux fuel depth mark (Item.bytesAll items ++ tail) =
      if Item.allFit depth items then some (items.map Item.field, rest) else none := by
  cases fuel with
  | zero => omega
  | succ fuel =>
    cases items with
    | nil => simp [Item.bytesAll, Item.allFit, hclose]
    | cons i items =>
      have hlength : (Item.bytesAll (i :: items)).length =
          i.bytes.length + (Item.bytesAll items).length := by
        simp only [Item.bytesAll, List.length_append]
      have hpos := i.bytes_length_pos
      have hmore := fieldsAux_bytesAll items depth mark
        (show (Item.bytesAll items).length < 2 ^ 64 by omega)
        (show (Item.bytesAll items).length < fuel by omega) hclose
      rw [Item.bytesAll, List.append_assoc,
        fieldsAux_bytes i depth mark (by omega) (by omega), hmore]
      by_cases hfirst : i.fits depth = true
      · by_cases hfits : Item.allFit depth items = true
        · simp [Item.allFit, hfirst, hfits]
        · simp [Item.allFit, hfits]
      · simp [Item.allFit, hfirst]

end

/-- Cutting the bytes of items gives back their fields, unless they do not fit the limits. -/
theorem fields_bytesAll (items : List Item) (depth : Nat)
    (hsize : (Item.bytesAll items).length < 2 ^ 64) :
    fields depth (Item.bytesAll items) =
      if Item.allFit depth items then some (items.map Item.field) else none := by
  have hclose : ∀ fuel, fieldsAux (fuel + 1) depth none [] = some ([], []) := fun _ => rfl
  have hcut := fieldsAux_bytesAll items depth none hsize
    (Nat.lt_succ_self (Item.bytesAll items).length) hclose
  rw [List.append_nil] at hcut
  rw [fields, hcut]
  by_cases hfits : Item.allFit depth items = true
  · simp [hfits]
  · simp [hfits]

end DeadSymbols.Wire
