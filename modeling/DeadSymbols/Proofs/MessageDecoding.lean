import Mathlib
import DeadSymbols.Proofs.MessageWriting

/-!
# Decoders on messages

`Takes` says what a decoder makes of records in all of their forms at once, and what it makes of
those that exceed the limits of the reader.  It composes: from what a decoder makes of each record
follows what it makes of a message, and from that what an outer decoder makes of a record that
holds the message.

## Main results

* `foldlM_field_kept` — fields that are not declared do not count.
* `message_bytes` — a decoder on the bytes of a message.
* `takesOne_int`, `takesOne_text`, `takesOne_ints`, `takesOne_texts`, `takesOne_message`,
  `takesOne_messages` — a decoder on one record.
-/

namespace DeadSymbols.Wire

open DeadSymbols.Text (Bytes)

variable {α β : Type}

/-- What a decoder makes of the bytes of a message. -/
def message (absorb : α → Field → Option α) (depth : Nat) (start : α) (content : Bytes) :
    Option α :=
  (fields depth content).bind fun fs => fs.foldlM absorb start

/-- A decoder takes in a part list, or refuses it for what is inside a part. -/
def TakesParts (absorb : α → Field → Option α) (depth : Nat) (a : α) (ps : List Part) (b : α) :
    Prop :=
  (ps.map Part.field).foldlM absorb a =
    if ps.all (Part.insideFits depth) then some b else none

/-- From the value `a`, all forms of a record lead a decoder to `b`. -/
def TakesOne (absorb : α → Field → Option α) (depth : Nat) (a : α) (r : Record) (b : α) :
    Prop :=
  ∀ ps, Says r ps → (Part.bytes ps).length < 2 ^ 64 → TakesParts absorb depth a ps b

/-- From the value `a`, all forms of some records lead a decoder to `b`. -/
def Takes (absorb : α → Field → Option α) (depth : Nat) (a : α) (rs : List Record) (b : α) :
    Prop :=
  ∀ ps, SaysAll rs ps → (Part.bytes ps).length < 2 ^ 64 → TakesParts absorb depth a ps b

variable {absorb : α → Field → Option α} {depth : Nat} {a b c : α}

theorem TakesParts.nil : TakesParts absorb depth a [] a := rfl

theorem TakesParts.append {ps qs : List Part} (hp : TakesParts absorb depth a ps b)
    (hq : TakesParts absorb depth b qs c) : TakesParts absorb depth a (ps ++ qs) c := by
  rw [TakesParts] at hp hq ⊢
  rw [List.map_append, List.foldlM_append, hp, List.all_append]
  by_cases hfits : ps.all (Part.insideFits depth) = true
  · simp [hfits, hq]
  · simp [hfits]

/-- An item is taken in by itself. -/
theorem takesParts_item {i : Item} (h : absorb a i.field = some b) :
    TakesParts absorb depth a [.item i] b := by
  have hfield : (Part.item i).field = i.field := rfl
  simp [TakesParts, hfield, h, Part.insideFits]

theorem TakesParts.cons_item {i : Item} {ps : List Part} (h : absorb a i.field = some b)
    (hp : TakesParts absorb depth b ps c) : TakesParts absorb depth a (.item i :: ps) c :=
  (takesParts_item h).append hp

/-- A message is taken in if what is inside it is. -/
theorem takesParts_message {k : FieldNumber} {ps : List Part}
    (h : absorb a ⟨k.val, .delimited (Part.bytes ps)⟩ =
      if Part.allFit (depth - 1) ps then some b else none) :
    TakesParts absorb depth a [.message k ps] b := by
  have hfield : (Part.message k ps).field = ⟨k.val, .delimited (Part.bytes ps)⟩ := rfl
  rw [TakesParts, List.map_singleton, hfield, List.foldlM_cons, h]
  by_cases hfits : Part.allFit (depth - 1) ps = true
  · simp [Part.insideFits, hfits]
  · simp [Part.insideFits, hfits]

theorem Takes.nil : Takes absorb depth a [] a := by
  intro ps hps _
  cases hps
  exact TakesParts.nil

theorem Takes.cons {r : Record} {rs : List Record} (hr : TakesOne absorb depth a r b)
    (hrs : Takes absorb depth b rs c) : Takes absorb depth a (r :: rs) c := by
  intro parts hparts hsize
  cases hparts with
  | @cons _ _ ps qs hp hq =>
    rw [Part.bytes_append, List.length_append] at hsize
    exact (hr ps hp (by omega)).append (hrs qs hq (by omega))

/-! ## Fields that are not declared -/

/-- A decoder passes over fields that none of the records is declared under. -/
def PassesOver (absorb : α → Field → Option α) (rs : List Record) : Prop :=
  ∀ a f, (∀ r ∈ rs, f.number ≠ r.number.val) → absorb a f = some a

theorem PassesOver.foreign {rs : List Record} (h : PassesOver absorb rs) {p : Part}
    (hp : p.isForeign rs = true) (a : α) : absorb a p.field = some a := by
  cases p with
  | message => simp [Part.isForeign] at hp
  | item i =>
    have hnumber : i.number ∉ rs.map Record.number := by simpa [Part.isForeign] using hp
    apply h
    intro r hr heq
    apply hnumber
    have heq' : i.number = r.number := by
      have hval : i.number.val = r.number.val := by
        rw [← Item.field_number]
        exact heq
      cases hi : i.number
      cases hn : r.number
      simpa [hi, hn] using hval
    rw [heq']
    exact List.mem_map_of_mem hr

/-- Fields that are not declared do not count. -/
theorem foldlM_field_kept {rs : List Record} (h : PassesOver absorb rs) (ps : List Part) (a : α) :
    (ps.map Part.field).foldlM absorb a = ((kept rs ps).map Part.field).foldlM absorb a := by
  induction ps generalizing a with
  | nil => rfl
  | cons p ps ih =>
    by_cases hp : p.isForeign rs = true
    · have hkept : kept rs (p :: ps) = kept rs ps := List.filter_cons_of_neg (by simp [hp])
      rw [hkept, List.map_cons, List.foldlM_cons, h.foreign hp]
      exact ih a
    · have hkept : kept rs (p :: ps) = p :: kept rs ps := List.filter_cons_of_pos (by simp [hp])
      rw [hkept, List.map_cons, List.map_cons, List.foldlM_cons, List.foldlM_cons]
      cases absorb a p.field with
      | none => rfl
      | some b => exact ih b

theorem all_insideFits_kept (rs : List Record) (ps : List Part) (depth : Nat) :
    (kept rs ps).all (Part.insideFits depth) = ps.all (Part.insideFits depth) := by
  induction ps with
  | nil => rfl
  | cons p ps ih =>
    by_cases hp : p.isForeign rs = true
    · have hkept : kept rs (p :: ps) = kept rs ps := List.filter_cons_of_neg (by simp [hp])
      have hfits : p.insideFits depth = true := by
        cases p with
        | item i => rfl
        | message => simp [Part.isForeign] at hp
      rw [hkept, ih, List.all_cons, hfits, Bool.true_and]
    · have hkept : kept rs (p :: ps) = p :: kept rs ps := List.filter_cons_of_pos (by simp [hp])
      rw [hkept, List.all_cons, List.all_cons, ih]

/-- A decoder on the bytes of a message: it gives what the records say, unless the parts exceed a
limit. -/
theorem message_bytes {rs : List Record} {ps : List Part} (htakes : Takes absorb depth a rs b)
    (hforeign : PassesOver absorb rs) (hps : Writes rs ps)
    (hsize : (Part.bytes ps).length < 2 ^ 64) :
    message absorb depth a (Part.bytes ps) = if Part.allFit depth ps then some b else none := by
  have hkept : (Part.bytes (kept rs ps)).length < 2 ^ 64 :=
    Nat.lt_of_le_of_lt (Part.length_bytes_filter_le _ ps) hsize
  have hfold := htakes (kept rs ps) hps hkept
  rw [TakesParts, ← foldlM_field_kept hforeign, all_insideFits_kept] at hfold
  rw [message, Part.bytes, fields_bytesAll _ _ hsize, Part.map_field_toItems, Part.allFit_eq]
  by_cases hown : Item.allFit depth (Part.toItems ps) = true
  · simp [hown, hfold]
  · simp [hown]

/-! ## One record -/

/-- The signed numbers of 32 bits. -/
def IsInt32 (n : Int) : Prop :=
  -2 ^ 31 ≤ n ∧ n < 2 ^ 31

instance (n : Int) : Decidable (IsInt32 n) :=
  inferInstanceAs (Decidable (_ ∧ _))

/-- The low 32 bits of a number with its sign extended are the number. -/
theorem toInt32_ofInt {n : Int} (h : IsInt32 n) : toInt32 (UInt64.ofInt n).toNat = n := by
  have hextended : ((UInt64.ofInt n).toNat : Int) = n % 18446744073709551616 := by
    rw [UInt64.ofInt, UInt64.toNat_ofNat']
    omega
  have hlow : ∀ m : Int, m = n % 18446744073709551616 → m.bmod 4294967296 = n := by
    intro m hm
    have hrange := h
    simp only [IsInt32] at hrange
    rw [Int.bmod_def]
    push_cast
    split_ifs <;> omega
  exact hlow _ hextended

theorem numbers_intItem {n : Int} (h : IsInt32 n) (k : FieldNumber) :
    (intItem k n).field.payload.numbers = some [n] := by
  simp [intItem, Item.field, Payload.numbers, toInt32_ofInt h]

theorem int?_intItem {n : Int} (h : IsInt32 n) (k : FieldNumber) :
    (intItem k n).field.payload.int? = some n := by
  simp [intItem, Item.field, Payload.int?, toInt32_ofInt h]

theorem numbers_runItem {ns : List Int} (h : ∀ n ∈ ns, IsInt32 n) (k : FieldNumber) :
    (runItem k ns).field.payload.numbers = some ns := by
  have hmap : ((ns.map UInt64.ofInt).map (·.toNat)).map toInt32 = ns := by
    induction ns with
    | nil => rfl
    | cons n ns ih =>
      have hn := toInt32_ofInt (h n List.mem_cons_self)
      have hns := ih fun m hm => h m (List.mem_cons_of_mem n hm)
      rw [List.map_cons, List.map_cons, List.map_cons, hn, hns]
  simp only [runItem, Item.field, Payload.numbers, packed_runBytes (Nat.le_refl _),
    Option.map_some, hmap]

theorem text?_textItem (s : String) (k : FieldNumber) :
    (textItem k s).field.payload.text? = some (some s) := by
  have hread : Text.strictText (Text.toBytes s) = .ok s := Text.strictText_eq_ok_iff.2 rfl
  simp [textItem, Item.field, Payload.text?, hread]

theorem takesOne_int {k : FieldNumber} {n : Int} (h : absorb a (intItem k n).field = some b)
    (hdefault : n = 0 → a = b) : TakesOne absorb depth a (.int k n) b := by
  intro ps hps _
  cases hps with
  | int => exact takesParts_item h
  | noInt =>
    rw [← hdefault rfl]
    exact TakesParts.nil

theorem takesOne_text {k : FieldNumber} {s : String} (h : absorb a (textItem k s).field = some b)
    (hdefault : s = "" → a = b) : TakesOne absorb depth a (.text k s) b := by
  intro ps hps _
  cases hps with
  | text => exact takesParts_item h
  | noText =>
    rw [← hdefault rfl]
    exact TakesParts.nil

/-- Repeated numbers, one by one or in runs: what is there so far grows by each. -/
theorem takesOne_ints {k : FieldNumber} {ns : List Int} (grow : List Int → α)
    (hgrow : ∀ before p, absorb (grow before) ⟨k.val, p⟩ =
      p.numbers.map fun more => grow (before ++ more))
    (hrange : ∀ n ∈ ns, IsInt32 n) :
    TakesOne absorb depth (grow []) (.ints k ns) (grow ns) := by
  intro ps hps hsize
  clear hsize
  suffices hmore : ∀ before, TakesParts absorb depth (grow before) ps (grow (before ++ ns)) from
    hmore []
  induction ps generalizing ns with
  | nil =>
    intro before
    cases hps
    rw [List.append_nil]
    exact TakesParts.nil
  | cons p ps ih =>
    intro before
    cases hps with
    | @oneInt _ n ns _ hps =>
      have hstep := hgrow before (intItem k n).field.payload
      rw [numbers_intItem (hrange n List.mem_cons_self)] at hstep
      have hrest := ih (fun m hm => hrange m (List.mem_cons_of_mem n hm)) hps (before ++ [n])
      rw [List.append_assoc] at hrest
      exact TakesParts.cons_item hstep hrest
    | @runInts _ run ns _ hps =>
      have hstep := hgrow before (runItem k run).field.payload
      rw [numbers_runItem fun m hm => hrange m (List.mem_append_left ns hm)] at hstep
      have hrest := ih (fun m hm => hrange m (List.mem_append_right run hm)) hps (before ++ run)
      rw [List.append_assoc] at hrest
      exact TakesParts.cons_item hstep hrest

/-- Repeated texts: what is there so far grows by each. -/
theorem takesOne_texts {k : FieldNumber} {ss : List String} (grow : List String → α)
    (hgrow : ∀ before s, absorb (grow before) (textItem k s).field = some (grow (before ++ [s]))) :
    TakesOne absorb depth (grow []) (.texts k ss) (grow ss) := by
  intro ps hps hsize
  clear hsize
  suffices hmore : ∀ before, TakesParts absorb depth (grow before) ps (grow (before ++ ss)) from
    hmore []
  induction ss generalizing ps with
  | nil =>
    intro before
    cases hps
    rw [List.append_nil]
    exact TakesParts.nil
  | cons s ss ih =>
    intro before
    cases hps with
    | @oneText _ _ _ ps hps =>
      have hrest := ih ps hps (before ++ [s])
      rw [List.append_assoc] at hrest
      exact TakesParts.cons_item (hgrow before s) hrest

section Nested

variable {absorb' : β → Field → Option β} {start : β}

/-- A message in a message is taken in if its decoder takes it in. -/
theorem takesParts_message_of_takes {k : FieldNumber} {inside : List Record} {m : β}
    {put : β → α} {ps : List Part} (htakes : Takes absorb' (depth - 1) start inside m)
    (hforeign : PassesOver absorb' inside)
    (hput : ∀ content, absorb a ⟨k.val, .delimited content⟩ =
      (message absorb' (depth - 1) start content).map put)
    (hps : Writes inside ps) (hsize : (Part.bytes ps).length < 2 ^ 64) :
    TakesParts absorb depth a [.message k ps] (put m) := by
  apply takesParts_message
  rw [hput, message_bytes htakes hforeign hps hsize]
  by_cases hfits : Part.allFit (depth - 1) ps = true
  · simp [hfits]
  · simp [hfits]

/-- A single message: it is merged into what is there, so one that says nothing may be left
out. -/
theorem takesOne_message {k : FieldNumber} {inside : List Record} {m : β} (put : β → α)
    (htakes : Takes absorb' (depth - 1) start inside m) (hforeign : PassesOver absorb' inside)
    (hput : ∀ content, absorb (put start) ⟨k.val, .delimited content⟩ =
      (message absorb' (depth - 1) start content).map put) :
    TakesOne absorb depth (put start) (.message k inside) (put m) := by
  intro ps hps hsize
  cases hps with
  | @message _ _ ps hps =>
    have hinside : (Part.bytes ps).length < 2 ^ 64 := by
      have := Part.length_bytes_lt_message k ps
      rw [Part.bytes_cons, List.length_append] at hsize
      omega
    exact takesParts_message_of_takes htakes hforeign hput hps hinside
  | noMessage _ hnothing =>
    have hnil : some start = some m := htakes [] hnothing (show 0 < 2 ^ 64 by decide)
    rw [Option.some_inj.1 hnil]
    exact TakesParts.nil

/-- Repeated messages: what is there so far grows by each. -/
theorem takesOne_messages {k : FieldNumber} {ms : List β} (records : β → List Record)
    (grow : List β → α)
    (htakes : ∀ m ∈ ms, Takes absorb' (depth - 1) start (records m) m)
    (hforeign : ∀ m, PassesOver absorb' (records m))
    (hgrow : ∀ before content, absorb (grow before) ⟨k.val, .delimited content⟩ =
      (message absorb' (depth - 1) start content).map fun m => grow (before ++ [m])) :
    TakesOne absorb depth (grow []) (.messages k (ms.map records)) (grow ms) := by
  intro ps hps hsize
  suffices hmore : ∀ before, TakesParts absorb depth (grow before) ps (grow (before ++ ms)) from
    hmore []
  induction ms generalizing ps with
  | nil =>
    intro before
    cases hps
    rw [List.append_nil]
    exact TakesParts.nil
  | cons m ms ih =>
    intro before
    cases hps with
    | @oneMessage _ _ _ ps qs hps hqs =>
      have hlength := Part.length_bytes_lt_message k ps
      rw [Part.bytes_cons, List.length_append] at hsize
      have hfirst := takesParts_message_of_takes (htakes m List.mem_cons_self) (hforeign m)
        (hgrow before) hps (by omega)
      have hrest := ih (fun m' hm => htakes m' (List.mem_cons_of_mem m hm)) qs hqs (by omega)
        (before ++ [m])
      rw [List.append_assoc] at hrest
      exact hfirst.append hrest

end Nested

end DeadSymbols.Wire
