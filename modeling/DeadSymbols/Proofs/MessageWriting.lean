import Mathlib
import DeadSymbols.Proofs.WireWriting

/-!
# Messages as they are written

A `Record` is what a message says in one of the fields it declares, and a message is a list of
records, one for each declared field.  `Says` and `SaysAll` relate records to the parts they may
be written as: a default may be left out, and repeated numbers come one by one or in runs.  In
the forms of a message (`Writes`), fields that are not declared may stand anywhere, inside nested
messages too.

One of the forms is the plain encoding, in which defaults are left out and nothing undeclared is
put in.

## Main results

* `writes_partsAll` — the plain encoding, packed or not, is one of the forms.
* `allFit_partsAll` — it exceeds no limit but that of its size.
-/

namespace DeadSymbols.Wire

open DeadSymbols.Text (Bytes)

/-! ## Parts -/

/-- A part of a message to be written: an item, or a message. -/
inductive Part
  | item (i : Item)
  | message (number : FieldNumber) (inside : List Part)

namespace Part

mutual

/-- The item that a part is written as. -/
def toItem : Part → Item
  | item i => i
  | message number inside => .delimited number (Item.bytesAll (toItems inside))

/-- The items that parts are written as. -/
def toItems : List Part → List Item
  | [] => []
  | p :: parts => p.toItem :: toItems parts

end

/-- The bytes of a message with these parts. -/
def bytes (parts : List Part) : Bytes :=
  Item.bytesAll (toItems parts)

/-- What the reader is to see of a part. -/
def field (p : Part) : Field :=
  p.toItem.field

mutual

/-- Whether the reader accepts a part where `depth` messages or groups may still be opened. -/
def fits (depth : Nat) : Part → Bool
  | item i => i.fits depth
  | message _ inside =>
    decide ((Item.bytesAll (toItems inside)).length < sizeLimit) && allFit (depth - 1) inside

/-- Whether the reader accepts all of the parts. -/
def allFit (depth : Nat) : List Part → Bool
  | [] => true
  | p :: parts => p.fits depth && allFit depth parts

end

/-- Whether the reader accepts what is inside a part. -/
def insideFits (depth : Nat) : Part → Bool
  | item _ => true
  | message _ inside => allFit (depth - 1) inside

theorem fits_eq (depth : Nat) (p : Part) :
    p.fits depth = (p.toItem.fits depth && p.insideFits depth) := by
  cases p with
  | item i => simp [fits, toItem, insideFits]
  | message number inside => rfl

/-- The limits of a message are those of its own level and those inside its parts. -/
theorem allFit_eq (depth : Nat) (parts : List Part) :
    allFit depth parts =
      (Item.allFit depth (toItems parts) && parts.all (insideFits depth)) := by
  induction parts with
  | nil => rfl
  | cons p parts ih =>
    rw [allFit, toItems, Item.allFit, List.all_cons, ih, fits_eq]
    cases p.toItem.fits depth <;> cases p.insideFits depth <;> simp

theorem map_field_toItems (parts : List Part) :
    (toItems parts).map Item.field = parts.map field := by
  induction parts with
  | nil => rfl
  | cons p parts ih => rw [toItems, List.map_cons, ih, List.map_cons, field]

theorem bytes_cons (p : Part) (parts : List Part) :
    bytes (p :: parts) = p.toItem.bytes ++ bytes parts := by
  rw [bytes, toItems, Item.bytesAll, bytes]

theorem bytes_append (parts more : List Part) :
    bytes (parts ++ more) = bytes parts ++ bytes more := by
  induction parts with
  | nil => rfl
  | cons p parts ih => rw [List.cons_append, bytes_cons, bytes_cons, ih, List.append_assoc]

/-- Leaving parts out shortens a message. -/
theorem length_bytes_filter_le (keep : Part → Bool) (parts : List Part) :
    (bytes (parts.filter keep)).length ≤ (bytes parts).length := by
  induction parts with
  | nil => exact Nat.le_refl _
  | cons p parts ih =>
    rw [bytes_cons, List.length_append]
    by_cases hp : keep p = true
    · rw [List.filter_cons_of_pos hp, bytes_cons, List.length_append]
      omega
    · rw [List.filter_cons_of_neg hp]
      omega

/-- A message is shorter than the part that holds it. -/
theorem length_bytes_lt_message (number : FieldNumber) (inside : List Part) :
    (bytes inside).length < (message number inside).toItem.bytes.length := by
  have hpos := tagBytes_length_pos number 2
  simp only [toItem, Item.bytes, List.length_append, bytes]
  omega

end Part

/-! ## Records -/

/-- What a message says in one of the fields it declares. -/
inductive Record
  | int (number : FieldNumber) (n : Int)
  | text (number : FieldNumber) (s : String)
  | message (number : FieldNumber) (inside : List Record)
  | ints (number : FieldNumber) (ns : List Int)
  | texts (number : FieldNumber) (ss : List String)
  | messages (number : FieldNumber) (insides : List (List Record))

namespace Record

/-- The number that a record is declared under. -/
def number : Record → FieldNumber
  | int number _ | text number _ | message number _ | ints number _ | texts number _
  | messages number _ => number

end Record

/-- Whether a part is a field that is not among the declared ones. -/
def Part.isForeign (rs : List Record) : Part → Bool
  | item i => decide (i.number ∉ rs.map Record.number)
  | message .. => false

/-- The parts that are declared. -/
def kept (rs : List Record) (ps : List Part) : List Part :=
  ps.filter fun p => !p.isForeign rs

/-- A number as one of 64 bits, the sign extended. -/
def intItem (k : FieldNumber) (n : Int) : Item :=
  .varint k (UInt64.ofInt n)

/-- Numbers as one run. -/
def runItem (k : FieldNumber) (ns : List Int) : Item :=
  .delimited k (runBytes (ns.map UInt64.ofInt))

/-- A text as its bytes. -/
def textItem (k : FieldNumber) (s : String) : Item :=
  .delimited k (Text.toBytes s)

mutual

/-- The parts that a record may be written as. -/
inductive Says : Record → List Part → Prop
  | int (k : FieldNumber) (n : Int) : Says (.int k n) [.item (intItem k n)]
  | noInt (k : FieldNumber) : Says (.int k 0) []
  | text (k : FieldNumber) (s : String) : Says (.text k s) [.item (textItem k s)]
  | noText (k : FieldNumber) : Says (.text k "") []
  | message (k : FieldNumber) {inside : List Record} {ps : List Part} :
      SaysAll inside (kept inside ps) → Says (.message k inside) [.message k ps]
  | noMessage (k : FieldNumber) {inside : List Record} :
      SaysAll inside [] → Says (.message k inside) []
  | noInts (k : FieldNumber) : Says (.ints k []) []
  | oneInt {k : FieldNumber} (n : Int) {ns : List Int} {ps : List Part} :
      Says (.ints k ns) ps → Says (.ints k (n :: ns)) (.item (intItem k n) :: ps)
  | runInts {k : FieldNumber} (run : List Int) {ns : List Int} {ps : List Part} :
      Says (.ints k ns) ps → Says (.ints k (run ++ ns)) (.item (runItem k run) :: ps)
  | noTexts (k : FieldNumber) : Says (.texts k []) []
  | oneText {k : FieldNumber} (s : String) {ss : List String} {ps : List Part} :
      Says (.texts k ss) ps → Says (.texts k (s :: ss)) (.item (textItem k s) :: ps)
  | noMessages (k : FieldNumber) : Says (.messages k []) []
  | oneMessage {k : FieldNumber} {inside : List Record} {insides : List (List Record)}
      {ps qs : List Part} :
      SaysAll inside (kept inside ps) → Says (.messages k insides) qs →
      Says (.messages k (inside :: insides)) (.message k ps :: qs)

/-- The parts that records may be written as, one after the other. -/
inductive SaysAll : List Record → List Part → Prop
  | nil : SaysAll [] []
  | cons {r : Record} {rs : List Record} {ps qs : List Part} :
      Says r ps → SaysAll rs qs → SaysAll (r :: rs) (ps ++ qs)

end

/-- Whether parts are a form of the message with these records: apart from fields that are not
declared, they say the records in order. -/
def Writes (rs : List Record) (ps : List Part) : Prop :=
  SaysAll rs (kept rs ps)

/-! ## The plain encoding -/

namespace Record

mutual

/-- The parts of a record in the plain encoding, which leaves defaults out.  Repeated numbers are
one run if `packed`, and otherwise come one by one. -/
def parts (packed : Bool) : Record → List Part
  | int k n => if n = 0 then [] else [.item (intItem k n)]
  | text k s => if s = "" then [] else [.item (textItem k s)]
  | message k inside =>
    if (partsAll packed inside).isEmpty then [] else [.message k (partsAll packed inside)]
  | ints k ns =>
    if packed then if ns.isEmpty then [] else [.item (runItem k ns)]
    else (ns.map (intItem k)).map .item
  | texts k ss => (ss.map (textItem k)).map .item
  | messages k insides => partsEach packed k insides

/-- The parts of records in the plain encoding. -/
def partsAll (packed : Bool) : List Record → List Part
  | [] => []
  | r :: rs => r.parts packed ++ partsAll packed rs

/-- The parts of repeated messages in the plain encoding. -/
def partsEach (packed : Bool) (k : FieldNumber) : List (List Record) → List Part
  | [] => []
  | inside :: insides => .message k (partsAll packed inside) :: partsEach packed k insides

end

theorem isForeign_partsEach {packed : Bool} {k : FieldNumber} {insides : List (List Record)}
    {p : Part} (hp : p ∈ partsEach packed k insides) (rs : List Record) :
    p.isForeign rs = false := by
  induction insides with
  | nil => simp [partsEach] at hp
  | cons inside insides ih =>
    rw [partsEach, List.mem_cons] at hp
    rcases hp with rfl | hp
    · rfl
    · exact ih hp

/-- The parts of a record are written under its number. -/
theorem isForeign_parts {packed : Bool} {r : Record} {rs : List Record} (hr : r ∈ rs) {p : Part}
    (hp : p ∈ r.parts packed) : p.isForeign rs = false := by
  have hdeclared : ∀ i : Item, i.number = r.number → (Part.item i).isForeign rs = false := by
    intro i hi
    have hmem : i.number ∈ rs.map number := by
      rw [hi]
      exact List.mem_map_of_mem hr
    simp only [Part.isForeign, hmem, not_true_eq_false, decide_false]
  cases r with
  | int k n =>
    rw [parts] at hp
    split at hp
    · cases hp
    · rw [List.mem_singleton.1 hp]
      exact hdeclared _ rfl
  | text k s =>
    rw [parts] at hp
    split at hp
    · cases hp
    · rw [List.mem_singleton.1 hp]
      exact hdeclared _ rfl
  | message k inside =>
    rw [parts] at hp
    split at hp
    · cases hp
    · rw [List.mem_singleton.1 hp]
      rfl
  | ints k ns =>
    rw [parts] at hp
    split at hp
    · split at hp
      · cases hp
      · rw [List.mem_singleton.1 hp]
        exact hdeclared _ rfl
    · rw [List.map_map, List.mem_map] at hp
      obtain ⟨n, -, rfl⟩ := hp
      exact hdeclared _ rfl
  | texts k ss =>
    rw [parts, List.map_map, List.mem_map] at hp
    obtain ⟨s, -, rfl⟩ := hp
    exact hdeclared _ rfl
  | messages k insides =>
    rw [parts] at hp
    exact isForeign_partsEach hp rs

theorem isForeign_partsAll {packed : Bool} {all rs : List Record} (hrs : ∀ r ∈ rs, r ∈ all)
    {p : Part} (hp : p ∈ partsAll packed rs) : p.isForeign all = false := by
  induction rs with
  | nil => simp [partsAll] at hp
  | cons r rs ih =>
    rw [partsAll, List.mem_append] at hp
    rcases hp with hp | hp
    · exact isForeign_parts (hrs r List.mem_cons_self) hp
    · exact ih (fun r' hr' => hrs r' (List.mem_cons_of_mem r hr')) hp

/-- The plain encoding has declared fields only. -/
theorem kept_partsAll (packed : Bool) (rs : List Record) :
    kept rs (partsAll packed rs) = partsAll packed rs := by
  rw [kept, List.filter_eq_self]
  intro p hp
  rw [isForeign_partsAll (fun _ hr => hr) hp, Bool.not_false]

end Record

mutual

/-- The plain encoding of a record is one of its forms. -/
theorem says_parts (packed : Bool) (r : Record) : Says r (r.parts packed) := by
  cases r with
  | int k n =>
    rw [Record.parts]
    split
    · rename_i hn
      rw [hn]
      exact .noInt k
    · exact .int k n
  | text k s =>
    rw [Record.parts]
    split
    · rename_i hs
      rw [hs]
      exact .noText k
    · exact .text k s
  | message k inside =>
    have hinside := saysAll_partsAll packed inside
    rw [Record.parts]
    split
    · rename_i hnothing
      rw [List.isEmpty_iff.1 hnothing] at hinside
      exact .noMessage k hinside
    · rw [← Record.kept_partsAll] at hinside
      exact .message k hinside
  | ints k ns =>
    rw [Record.parts]
    split
    · split
      · rename_i hns
        rw [List.isEmpty_iff.1 hns]
        exact .noInts k
      · have hrun := Says.runInts ns (.noInts k)
        rw [List.append_nil] at hrun
        exact hrun
    · induction ns with
      | nil => exact .noInts k
      | cons n ns ih => exact .oneInt n ih
  | texts k ss =>
    rw [Record.parts]
    induction ss with
    | nil => exact .noTexts k
    | cons s ss ih => exact .oneText s ih
  | messages k insides =>
    rw [Record.parts]
    exact says_partsEach packed k insides

theorem saysAll_partsAll (packed : Bool) (rs : List Record) :
    SaysAll rs (Record.partsAll packed rs) := by
  cases rs with
  | nil => exact .nil
  | cons r rs =>
    rw [Record.partsAll]
    exact .cons (says_parts packed r) (saysAll_partsAll packed rs)

theorem says_partsEach (packed : Bool) (k : FieldNumber) (insides : List (List Record)) :
    Says (.messages k insides) (Record.partsEach packed k insides) := by
  cases insides with
  | nil => exact .noMessages k
  | cons inside insides =>
    have hinside := saysAll_partsAll packed inside
    rw [← Record.kept_partsAll] at hinside
    rw [Record.partsEach]
    exact .oneMessage hinside (says_partsEach packed k insides)

end

/-- The plain encoding of a message, packed or not, is one of its forms. -/
theorem writes_partsAll (packed : Bool) (rs : List Record) :
    Writes rs (Record.partsAll packed rs) := by
  rw [Writes, Record.kept_partsAll]
  exact saysAll_partsAll packed rs

/-! ### Its limits -/

namespace Part

theorem allFit_append (depth : Nat) (ps qs : List Part) :
    allFit depth (ps ++ qs) = (allFit depth ps && allFit depth qs) := by
  induction ps with
  | nil => rfl
  | cons p ps ih => rw [List.cons_append, allFit, allFit, ih, Bool.and_assoc]

/-- Items that fit if they are short enough do so if the message is. -/
theorem allFit_map_item {depth : Nat} {items : List Item}
    (hitems : ∀ i ∈ items, i.bytes.length < sizeLimit → i.fits depth = true)
    (h : (bytes (items.map .item)).length < sizeLimit) :
    allFit depth (items.map .item) = true := by
  induction items with
  | nil => rfl
  | cons i items ih =>
    rw [List.map_cons, bytes_cons, List.length_append, toItem] at h
    have hi := hitems i List.mem_cons_self (by omega)
    have hrest := ih (fun j hj => hitems j (List.mem_cons_of_mem i hj)) (by omega)
    rw [List.map_cons, allFit, fits, hi, hrest, Bool.and_true]

/-- A message fits where its parts do, if it is short enough. -/
theorem fits_message (depth : Nat) (k : FieldNumber) {ps : List Part}
    (h : (message k ps).toItem.bytes.length < sizeLimit) (hps : allFit (depth - 1) ps = true) :
    (message k ps).fits depth = true := by
  have hlength : (Item.bytesAll (toItems ps)).length < sizeLimit :=
    Nat.lt_trans (length_bytes_lt_message k ps) h
  rw [fits, hps, decide_eq_true hlength, Bool.and_true]

end Part

theorem fits_intItem (depth : Nat) (k : FieldNumber) (n : Int) :
    (intItem k n).fits depth = true := by
  rw [intItem, Item.fits]

theorem fits_delimited {depth : Nat} {k : FieldNumber} {content : Bytes}
    (h : (Item.delimited k content).bytes.length < sizeLimit) :
    (Item.delimited k content).fits depth = true := by
  have hlength : content.length < sizeLimit := by
    simp only [Item.bytes, List.length_append] at h
    omega
  rw [Item.fits, decide_eq_true hlength]

mutual

/-- The plain encoding of a record exceeds no limit if it is short enough. -/
theorem allFit_parts (packed : Bool) (depth : Nat) (r : Record)
    (h : (Part.bytes (r.parts packed)).length < sizeLimit) :
    Part.allFit depth (r.parts packed) = true := by
  cases r with
  | int k n =>
    rw [Record.parts] at h ⊢
    split
    · rfl
    · rw [Part.allFit, Part.fits, fits_intItem, Part.allFit, Bool.and_true]
  | text k s =>
    rw [Record.parts] at h ⊢
    split
    · rfl
    · rename_i hs
      rw [if_neg hs] at h
      show Part.allFit depth ([textItem k s].map .item) = true
      refine Part.allFit_map_item ?_ h
      intro i hi hlength
      rw [List.mem_singleton.1 hi] at hlength ⊢
      exact fits_delimited hlength
  | message k inside =>
    rw [Record.parts] at h ⊢
    split
    · rfl
    · rename_i hsome
      rw [if_neg hsome, Part.bytes_cons, List.length_append] at h
      have hlength := Part.length_bytes_lt_message k (Record.partsAll packed inside)
      have hinside := allFit_partsAll packed (depth - 1) inside (by omega)
      have hmessage := Part.fits_message depth k (by omega) hinside
      rw [Part.allFit, hmessage, Part.allFit, Bool.and_true]
  | ints k ns =>
    rw [Record.parts] at h ⊢
    split
    · rename_i hpacked
      rw [if_pos hpacked] at h
      split
      · rfl
      · rename_i hns
        rw [if_neg hns] at h
        show Part.allFit depth ([runItem k ns].map .item) = true
        refine Part.allFit_map_item ?_ h
        intro i hi hlength
        rw [List.mem_singleton.1 hi] at hlength ⊢
        exact fits_delimited hlength
    · rename_i hpacked
      rw [if_neg hpacked] at h
      refine Part.allFit_map_item ?_ h
      intro i hi _
      obtain ⟨n, -, rfl⟩ := List.mem_map.1 hi
      exact fits_intItem depth k n
  | texts k ss =>
    rw [Record.parts] at h ⊢
    refine Part.allFit_map_item ?_ h
    intro i hi hlength
    obtain ⟨s, -, rfl⟩ := List.mem_map.1 hi
    exact fits_delimited hlength
  | messages k insides =>
    rw [Record.parts] at h ⊢
    exact allFit_partsEach packed depth k insides h

/-- The plain encoding of a message exceeds no limit if it is short enough. -/
theorem allFit_partsAll (packed : Bool) (depth : Nat) (rs : List Record)
    (h : (Part.bytes (Record.partsAll packed rs)).length < sizeLimit) :
    Part.allFit depth (Record.partsAll packed rs) = true := by
  cases rs with
  | nil => rfl
  | cons r rs =>
    rw [Record.partsAll, Part.bytes_append, List.length_append] at h
    rw [Record.partsAll, Part.allFit_append, allFit_parts packed depth r (by omega),
      allFit_partsAll packed depth rs (by omega), Bool.and_true]

theorem allFit_partsEach (packed : Bool) (depth : Nat) (k : FieldNumber)
    (insides : List (List Record))
    (h : (Part.bytes (Record.partsEach packed k insides)).length < sizeLimit) :
    Part.allFit depth (Record.partsEach packed k insides) = true := by
  cases insides with
  | nil => rfl
  | cons inside insides =>
    rw [Record.partsEach, Part.bytes_cons, List.length_append] at h
    have hlength := Part.length_bytes_lt_message k (Record.partsAll packed inside)
    have hinside := allFit_partsAll packed (depth - 1) inside (by omega)
    have hmessage := Part.fits_message depth k (by omega) hinside
    rw [Record.partsEach, Part.allFit, hmessage, allFit_partsEach packed depth k insides (by omega),
      Bool.and_true]

end

end DeadSymbols.Wire
