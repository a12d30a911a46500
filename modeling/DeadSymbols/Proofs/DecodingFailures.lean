import Mathlib
import DeadSymbols.Proofs.JsonReading
import DeadSymbols.Proofs.Loading
import DeadSymbols.Proofs.Utf8

/-!
# How decoding a dump fails

A foreseen failure has a kind: a file that cannot be read is one kind, a content that is
no dump another.  Decoding a dump has three failures without a kind, and each has
something in the file to blame: bytes that are no text, an integer with too many digits,
or an infinite number in the place of an integer.

An infinite number is looked for where the decoder looks.  Every function of the decoder
takes values out of the value it is given, so a failure about an infinite number blames
one inside that value (`Blames`); the decoder is made of such functions, one after the
other (`Blames.bind`).

## Main results

* `Error.isReported_eq` — the user is told about failures that have a kind.
* `Dump.blames_ofValue` — the failure of the decoder that has no kind.
* `Dump.decoding_failures` — all failures, of files and of values.
-/

namespace DeadSymbols

/-! ## Kinds of failures -/

/-- The kinds of foreseen failures. -/
inductive FailureKind
  /-- Something cannot be read, listed or made. -/
  | access
  /-- A content is not what it has to be. -/
  | decoding
  /-- A dependency table contradicts itself. -/
  | schema
  /-- The indexer fails. -/
  | tool
  deriving DecidableEq, Repr

/-- The kind of a failure, if it is foreseen. -/
def Error.kind? : Error → Option FailureKind
  | .unreadable _ _ | .unlistable _ _ | .uncreatable _ _ => some .access
  | .invalidJson _ | .malformedDump _ _ | .invalidIndex _ | .occurrenceRange _ => some .decoding
  | .schema _ => some .schema
  | .toolNotStarted _ _ | .toolFailed _ _ _ | .toolWithoutOutput _ _ => some .tool
  | .notUtf8 _ | .integer _ | .infinite | .refused _ | .invertedRegion | .noWorkers
  | .template _ | .emptyCommand => none

/-- A fault of a dump is foreseen unless it is about an infinite number. -/
theorem Error.kind?_ofDumpFault (source : String) {fault : DumpFault}
    (h : fault ≠ .infinite) : (Error.ofDumpFault source fault).kind? = some .decoding := by
  cases fault with
  | infinite => exact absurd rfl h
  | _ => rfl

/-! ## Infinite numbers -/

/-- An infinite number stands somewhere in a value. -/
inductive Value.HoldsInfinite : Value → Prop
  | real (negative : Bool) : HoldsInfinite (.real (.infinite negative))
  | item {items : List Value} {v : Value} : v ∈ items → HoldsInfinite v →
      HoldsInfinite (.list items)
  | element {items : List Value} {v : Value} : v ∈ items → HoldsInfinite v →
      HoldsInfinite (.set items)
  | first {a b : Value} : HoldsInfinite a → HoldsInfinite (.pair a b)
  | second {a b : Value} : HoldsInfinite b → HoldsInfinite (.pair a b)
  | key {entries : List (Value × Value)} {k v : Value} : (k, v) ∈ entries →
      HoldsInfinite k → HoldsInfinite (.map entries)
  | entry {entries : List (Value × Value)} {k v : Value} : (k, v) ∈ entries →
      HoldsInfinite v → HoldsInfinite (.map entries)

/-- Only an infinite number has no integer for being infinite. -/
theorem Value.eq_infinite_of_toInt {v : Value} (h : v.toInt = .error .infinite) :
    ∃ negative, v = .real (.infinite negative) := by
  unfold toInt at h
  split at h
  case h_4 negative => exact ⟨negative, rfl⟩
  case h_6 s =>
    cases hread : Integer.read s <;> rw [hread] at h <;> cases h
  case h_7 content =>
    cases hread : Integer.readBytes content <;> rw [hread] at h <;> cases h
  all_goals cases h

theorem Value.mem_of_entry?_eq_some {entries : List (Value × Value)} {key : String} {v : Value}
    (h : Value.entry? entries key = some v) : (.text key, v) ∈ entries := by
  fun_induction Value.entry? entries key with
  | case1 => cases h
  | case2 v' rest =>
      cases h
      exact List.mem_cons_self
  | case3 k v' rest _ ih | case4 e rest _ ih => exact List.mem_cons_of_mem _ (ih h)

namespace Dump

namespace Decode

variable {α β : Type} {v w : Value}

/-- If decoding fails because of an infinite number, one stands in the value. -/
def Blames (v : Value) (r : Except DumpFault α) : Prop :=
  r = .error .infinite → v.HoldsInfinite

namespace Blames

theorem ok (a : α) : Blames v (.ok a) :=
  nofun

theorem error {fault : DumpFault} (h : fault ≠ .infinite) :
    Blames v (.error fault : Except DumpFault α) :=
  fun heq => absurd (Except.error.inj heq) h

/-- What blames a part of a value blames the value. -/
theorem of_part {r : Except DumpFault α} (h : Blames w r)
    (hpart : w.HoldsInfinite → v.HoldsInfinite) : Blames v r :=
  fun heq => hpart (h heq)

theorem bind {x : Except DumpFault α} {f : α → Except DumpFault β} (hx : Blames v x)
    (hf : ∀ a, x = .ok a → Blames v (f a)) : Blames v (x >>= f) := by
  cases x with
  | error fault =>
      intro heq
      exact hx (congrArg Except.error (Except.error.inj heq))
  | ok a => exact hf a rfl

theorem mapM {f : α → Except DumpFault β} {as : List α}
    (hf : ∀ a ∈ as, Blames v (f a)) : Blames v (as.mapM f) := by
  induction as with
  | nil =>
      rw [List.mapM_nil]
      exact ok []
  | cons a as ih =>
      rw [List.mapM_cons]
      refine (hf a List.mem_cons_self).bind fun b _ => ?_
      refine (ih fun a' ha' => hf a' (List.mem_cons_of_mem a ha')).bind fun bs _ => ?_
      exact ok (b :: bs)

end Blames

/-! ## Parts of values -/

theorem blames_field (v : Value) (key : String) : Blames v (field v key) := by
  unfold field
  split
  · split
    · exact .ok _
    · exact .error nofun
  · exact .error nofun

theorem part_of_field {key : String} (h : field v key = .ok w) :
    w.HoldsInfinite → v.HoldsInfinite := by
  unfold field at h
  split at h
  · split at h
    · next entries _ found hentry =>
        cases h
        exact .entry (Value.mem_of_entry?_eq_some hentry)
    · cases h
  · cases h

theorem blames_field? (v : Value) (key : String) : Blames v (field? v key) := by
  unfold field?
  split
  · exact .ok _
  · exact .error nofun

theorem part_of_field? {key : String} (h : field? v key = .ok (some w)) :
    w.HoldsInfinite → v.HoldsInfinite := by
  unfold field? at h
  split at h
  · exact .entry (Value.mem_of_entry?_eq_some (Except.ok.inj h))
  · cases h

theorem blames_parts (v : Value) : Blames v (parts v) := by
  unfold parts
  split
  all_goals first
    | exact .ok _
    | exact .error nofun

theorem part_of_parts {ps : List Value} (h : parts v = .ok ps) (hw : w ∈ ps) :
    w.HoldsInfinite → v.HoldsInfinite := by
  intro hinfinite
  unfold parts at h
  split at h
  · cases h
    exact .item hw hinfinite
  · cases h
    exact .element hw hinfinite
  · cases h
    rcases List.mem_cons.1 hw with rfl | hw
    · exact .first hinfinite
    · obtain rfl := List.mem_singleton.1 hw
      exact .second hinfinite
  · cases h
    obtain ⟨⟨k, v'⟩, hmem, rfl⟩ := List.mem_map.1 hw
    exact .key hmem hinfinite
  · cases h
    obtain ⟨c, _, rfl⟩ := List.mem_map.1 hw
    cases hinfinite
  · cases h
    obtain ⟨b, _, rfl⟩ := List.mem_map.1 hw
    cases hinfinite
  · cases h

theorem blames_partsOrNone {key : String} {found : Option Value}
    (hfound : field? v key = .ok found) : Blames v (partsOrNone found) := by
  unfold partsOrNone
  split
  · exact .ok _
  · next w =>
      split
      · exact .ok _
      · exact (blames_parts w).of_part (part_of_field? hfound)

theorem part_of_partsOrNone {key : String} {found : Option Value} {ps : List Value}
    (hfound : field? v key = .ok found) (hps : partsOrNone found = .ok ps) (hw : w ∈ ps) :
    w.HoldsInfinite → v.HoldsInfinite := by
  unfold partsOrNone at hps
  split at hps
  · cases hps
    cases hw
  · split at hps
    · cases hps
      cases hw
    · exact part_of_field? hfound ∘ part_of_parts hps hw

/-! ## The parts of a dump -/

theorem holdsInfinite_of_toInt (h : v.toInt = .error .infinite) : v.HoldsInfinite := by
  obtain ⟨negative, rfl⟩ := Value.eq_infinite_of_toInt h
  exact .real negative

theorem blames_integer (v : Value) : Blames v (integer v) := by
  unfold integer
  split
  · exact .ok _
  · exact .error nofun
  · exact .error nofun
  · next h => exact fun _ => holdsInfinite_of_toInt h

theorem blames_integerField (v : Value) (key : String) : Blames v (integerField v key) :=
  (blames_field v key).bind fun w hw => (blames_integer w).of_part (part_of_field hw)

theorem blames_textField (v : Value) (key : String) : Blames v (textField v key) :=
  (blames_field v key).bind fun w _ => .ok w.display

theorem blames_nameField (v : Value) : Blames v (nameField v) :=
  (blames_field? v "name").bind fun _ _ => .ok _

theorem blames_unitId (v : Value) : Blames v (unitId v) := by
  refine (blames_parts v).bind fun ps hps => ?_
  split
  · next high low =>
      have hhigh := part_of_parts hps List.mem_cons_self
      have hlow := part_of_parts hps (List.mem_cons_of_mem high List.mem_cons_self)
      refine ((blames_integer high).of_part hhigh).bind fun m _ => ?_
      refine ((blames_integer low).of_part hlow).bind fun n _ => ?_
      exact .ok _
  · exact .error nofun

theorem blames_localRef? (v : Value) : Blames v (localRef? v) := by
  unfold localRef?
  split
  · exact .ok _
  · refine (blames_integerField v "krate").bind fun m _ => ?_
    refine (blames_integerField v "index").bind fun n _ => ?_
    exact .ok _

theorem blames_localRefField? (v : Value) (key : String) :
    Blames v (localRefField? v key) := by
  refine (blames_field? v key).bind fun found hfound => ?_
  cases found with
  | none => exact .ok _
  | some w => exact (blames_localRef? w).of_part (part_of_field? hfound)

theorem blames_span (v : Value) : Blames v (span v) := by
  refine (blames_textField v "file_name").bind fun _ _ => ?_
  refine (blames_integerField v "line_start").bind fun _ _ => ?_
  refine (blames_integerField v "column_start").bind fun _ _ => ?_
  refine (blames_integerField v "line_end").bind fun _ _ => ?_
  refine (blames_integerField v "column_end").bind fun _ _ => ?_
  exact .ok _

theorem blames_dependency (v : Value) : Blames v (dependency v) := by
  refine (blames_integerField v "num").bind fun ordinal _ => ?_
  refine (blames_field v "id").bind fun id hid => ?_
  have hpart := part_of_field hid
  refine ((blames_nameField id).of_part hpart).bind fun name _ => ?_
  refine ((blames_field id "disambiguator").of_part hpart).bind fun pair hpair => ?_
  refine ((blames_unitId pair).of_part (hpart ∘ part_of_field hpair)).bind fun unit _ => ?_
  exact .ok _

theorem blames_metadata (v : Value) : Blames v (metadata v) := by
  refine (blames_field v "prelude").bind fun prelude hprelude => ?_
  have hpart := part_of_field hprelude
  refine ((blames_field prelude "crate_id").of_part hpart).bind fun crate hcrate => ?_
  have hcratePart := hpart ∘ part_of_field hcrate
  refine ((blames_field? prelude "external_crates").of_part hpart).bind
    fun rows hrows => ?_
  refine ((blames_partsOrNone hrows).of_part hpart).bind fun ps hps => ?_
  refine (Blames.mapM fun w hw => (blames_dependency w).of_part
    (hpart ∘ part_of_partsOrNone hrows hps hw)).bind fun externals _ => ?_
  refine ((blames_nameField crate).of_part hcratePart).bind fun name _ => ?_
  refine ((blames_field crate "disambiguator").of_part hcratePart).bind
    fun pair hpair => ?_
  refine ((blames_unitId pair).of_part (hcratePart ∘ part_of_field hpair)).bind
    fun own _ => ?_
  refine (blames_field? v "compilation").bind fun compilation hcompilation => ?_
  dsimp only
  split
  · exact .ok _
  · next c hc =>
      obtain ⟨hsome, _⟩ := Option.filter_eq_some_iff.1 hc
      have hcPart := part_of_field? (hcompilation.trans (congrArg Except.ok hsome))
      refine ((blames_field? c "directory").of_part hcPart).bind fun directory _ => ?_
      split
      · exact .ok _
      · exact .ok _

theorem blames_definition (v : Value) : Blames v (definition v) := by
  refine (blames_field v "id").bind fun w hw => ?_
  refine ((blames_localRef? w).of_part (part_of_field hw)).bind fun id _ => ?_
  cases id with
  | none => exact .error nofun
  | some id =>
      refine (blames_textField v "kind").bind fun _ _ => ?_
      refine (blames_textField v "name").bind fun _ _ => ?_
      refine (blames_field v "span").bind fun s hs => ?_
      refine ((blames_span s).of_part (part_of_field hs)).bind fun _ _ => ?_
      refine (blames_localRefField? v "parent").bind fun _ _ => ?_
      refine (blames_localRefField? v "decl_id").bind fun _ _ => ?_
      exact .ok _

theorem blames_reference (v : Value) : Blames v (reference v) := by
  refine (blames_field v "ref_id").bind fun w hw => ?_
  refine ((blames_localRef? w).of_part (part_of_field hw)).bind fun target _ => ?_
  cases target with
  | none => exact .error nofun
  | some target =>
      refine (blames_textField v "kind").bind fun _ _ => ?_
      refine (blames_field v "span").bind fun s hs => ?_
      refine ((blames_span s).of_part (part_of_field hs)).bind fun _ _ => ?_
      exact .ok _

end Decode

open Decode

/-- The decoder fails because of an infinite number only if one stands in the value. -/
theorem blames_ofValue (source : String) (v : Value) : Blames v (ofValue source v) := by
  refine (blames_metadata v).bind fun metadata _ => ?_
  refine (blames_field? v "defs").bind fun defs hdefs => ?_
  refine (blames_partsOrNone hdefs).bind fun ds hds => ?_
  refine (Blames.mapM fun w hw => (blames_definition w).of_part
    (part_of_partsOrNone hdefs hds hw)).bind fun definitions _ => ?_
  refine (blames_field? v "refs").bind fun refs hrefs => ?_
  refine (blames_partsOrNone hrefs).bind fun rs hrs => ?_
  refine (Blames.mapM fun w hw => (blames_reference w).of_part
    (part_of_partsOrNone hrefs hrs hw)).bind fun references _ => ?_
  exact .ok _

/-! ## Files -/

/-- A failure without a kind, with what is to blame for it. -/
inductive Escapes (files : FileTree) (path : Path) : Error → Prop
  /-- The path is none. -/
  | nul {cause : FileError} : path.holdsNul = true → Escapes files path (.refused cause)
  /-- The content is the encoding of no text. -/
  | notText {content : Text.Bytes} {cause : Text.Utf8Error} :
      files.read path = .ok content → (∀ text, content ≠ Text.toBytes text) →
      Escapes files path (.notUtf8 cause)
  /-- So many digits stand in a row in the text. -/
  | digits {text : String} {n : Nat} :
      files.read path = .ok (Text.toBytes text) → Integer.maxDigits < n →
      Json.HoldsDigits text.toList n → Escapes files path (.integer (.tooLong n))
  /-- An infinite number stands in the value. -/
  | infinite {text : String} {v : Value} :
      files.read path = .ok (Text.toBytes text) → Json.read text = .ok v →
      v.HoldsInfinite → Escapes files path .infinite

/-- How decoding the file at a path fails. -/
inductive Fails (files : FileTree) (path : Path) (e : Error) : Prop
  /-- The file cannot be read. -/
  | access {cause : FileError} : files.read path = .error cause →
      e.kind? = some .access → Fails files path e
  /-- The file holds a text that is no dump. -/
  | decoding {text : String} : files.read path = .ok (Text.toBytes text) →
      e.kind? = some .decoding → Fails files path e
  | escapes : e.kind? = none → Escapes files path e → Fails files path e

theorem fails_of_ofBytes {files : FileTree} {path : Path} {content : Text.Bytes}
    {e : Error} (hread : files.read path = .ok content)
    (h : ofBytes path content = .error e) : Fails files path e := by
  unfold ofBytes at h
  cases htext : Text.strictText content with
  | error cause =>
      rw [htext] at h
      cases h
      refine .escapes rfl (.notText hread ?_)
      intro text heq
      rw [Text.strictText_eq_ok_iff.2 heq] at htext
      cases htext
  | ok text =>
      obtain rfl := Text.strictText_eq_ok_iff.1 htext
      rw [htext] at h
      dsimp only at h
      split at h
      · cases h
        exact .decoding hread rfl
      · next fault hjson =>
          cases h
          obtain ⟨n, rfl, hlong, hdigits⟩ := Json.holdsDigits_of_read hjson
          exact .escapes rfl (.digits hread hlong hdigits)
      · next v hjson =>
          split at h
          · next fault hvalue =>
              cases h
              by_cases hfault : fault = .infinite
              · subst hfault
                exact .escapes rfl
                  (.infinite hread hjson (blames_ofValue path.toString v hvalue))
              · exact .decoding hread (Error.kind?_ofDumpFault path.toString hfault)
          · cases h

theorem fails_of_decode {files : FileTree} {path : Path} {e : Error}
    (h : decode files path = .error e) : Fails files path e := by
  unfold decode at h
  cases hread : files.read path with
  | ok content =>
      rw [hread] at h
      exact fails_of_ofBytes hread h
  | error cause =>
      rw [hread] at h
      cases h
      unfold Error.ofFileError
      split
      · exact .access hread rfl
      · next hsystem =>
          rw [FileTree.isSystem_of_read_eq_error hread, Bool.not_eq_true, Bool.not_eq_false']
            at hsystem
          exact .escapes rfl (.nul hsystem)

/-- Decoding the file at a path changes nothing.  If it fails, either the file cannot be
read, and the failure is one of access; or the file holds a text, and the failure is one
of decoding; or the failure is not foreseen, and then the path is none, the content is no
text, the text has too many digits in a row, or its value holds an infinite number.  A
content that is no text always escapes so.  Decoding a value fails foreseen unless the
value holds an infinite number. -/
theorem decoding_failures (path : Path) (w : World) (source : String) (v : Value) :
    (∃ outcome, (readFrom path).run.run w = (outcome, w) ∧
      (∀ e, outcome = .error e → Fails w.files path e) ∧
      ∀ content, w.files.read path = .ok content →
        (∀ text, content ≠ Text.toBytes text) → ∃ cause, outcome = .error (.notUtf8 cause)) ∧
    ∀ fault, ofValue source v = .error fault →
      (Error.ofDumpFault source fault).kind? = some .decoding ∨
        fault = .infinite ∧ v.HoldsInfinite := by
  constructor
  · refine ⟨decode w.files path, run_readFrom path w, fun e he => fails_of_decode he, ?_⟩
    intro content hread hnotText
    cases htext : Text.strictText content with
    | error cause => exact ⟨cause, by rw [decode, hread]; simp only [ofBytes, htext]⟩
    | ok text => exact absurd (Text.strictText_eq_ok_iff.1 htext) (hnotText text)
  · intro fault h
    by_cases hfault : fault = .infinite
    · subst hfault
      exact .inr ⟨rfl, blames_ofValue source v h⟩
    · exact .inl (Error.kind?_ofDumpFault source hfault)

/-- A file "a.json" with a given content. -/
def loneFile (content : Text.Bytes) : FileTree :=
  ⟨[], [(["a.json"], .file content)]⟩

/-- A byte that starts no character is no text, and null is no dump. -/
theorem decoding_failures_loneFile :
    (∃ cause, (readFrom (Path.ofString "a.json")).run.run ⟨loneFile [0xff], []⟩ =
        (.error (.notUtf8 cause), ⟨loneFile [0xff], []⟩)) ∧
      (Error.ofDumpFault "a.json" .kind).kind? = some .decoding := by
  obtain ⟨⟨outcome, hrun, _, hescapes⟩, hvalue⟩ :=
    decoding_failures (Path.ofString "a.json") ⟨loneFile [0xff], []⟩ "a.json" .null
  constructor
  · have hread : (loneFile [0xff]).read (Path.ofString "a.json") = .ok [0xff] := by
      decide +kernel
    have hnotText : ∀ text, ([0xff] : Text.Bytes) ≠ Text.toBytes text := by
      intro text heq
      have htext := Text.strictText_eq_ok_iff.2 heq
      rw [show Text.strictText [0xff] = .error ⟨0, 0xff, 1, .start⟩ by decide +kernel] at htext
      cases htext
    obtain ⟨cause, houtcome⟩ := hescapes [0xff] hread hnotText
    exact ⟨cause, by rw [hrun, houtcome]⟩
  · rcases hvalue .kind rfl with hkind | ⟨hfault, _⟩
    · exact hkind
    · cases hfault

/-- A dump with a number beyond all doubles in the place of an integer. -/
def endlessText : String :=
  "\x7b\"prelude\":\x7b\"crate_id\":\x7b\"disambiguator\":[1e400,2]\x7d\x7d\x7d"

/-- Neither the byte that is no text nor the number that is no integer gives a failure
with a kind. -/
theorem decoding_escapes :
    (∃ e, (readFrom (Path.ofString "a.json")).run.run ⟨loneFile [0xff], []⟩ =
        (.error e, ⟨loneFile [0xff], []⟩) ∧ e.kind? = none) ∧
      ∃ e, (readFrom (Path.ofString "a.json")).run.run
          ⟨loneFile (Text.toBytes endlessText), []⟩ =
        (.error e, ⟨loneFile (Text.toBytes endlessText), []⟩) ∧ e.kind? = none := by
  constructor
  · refine ⟨.notUtf8 ⟨0, 0xff, 1, .start⟩, ?_, rfl⟩
    rw [run_readFrom]
    exact congrArg (·, _) (by decide +kernel)
  · refine ⟨.infinite, ?_, rfl⟩
    rw [run_readFrom]
    exact congrArg (·, _) (by decide +kernel)

end Dump

end DeadSymbols
