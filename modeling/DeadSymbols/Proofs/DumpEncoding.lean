import Mathlib
import DeadSymbols.Proofs.DecodingFailures

/-!
# Dumps as document values

The layout of a dump is a tree of objects, lists, texts and integers.  A value may follow
it in many ways: the keys of an object have no order, an object may hold keys that the
layout does not know, an identity that is not there is null or left out, and a list
without items is empty, null or left out.  `Dump.Encodes` says that a value follows the
layout for a dump, and leaves all this open; `Dump.toValue` is one value that does.

The decoder reads the dump back from every such value.  It asks an object for its keys
one by one, and an object answers the same whatever the order of its keys and whatever
other keys it holds (`Value.IsObject.answers`).  All else is one lemma for each kind of
object.

## Main results

* `Value.IsObject.answers` — what an object answers when it is asked for a key.
* `Dump.encodes_toValue` — every dump has an encoding.
* `Dump.encoded_dump_read_back` — every encoding of a dump is read as that dump.
-/

namespace DeadSymbols

/-! ## Objects -/

namespace Value

/-- The entries for the fields that are there. -/
def present (fields : List (String × Option Value)) : List (Value × Value) :=
  fields.filterMap fun f => f.2.map fun w => (.text f.1, w)

/-- The value is an object with these fields, each there with its value or left out.  Its
entries may stand in any order, and others may stand among them under other keys. -/
def IsObject (fields : List (String × Option Value)) (v : Value) : Prop :=
  ∃ entries others, v = .map entries ∧ entries.Perm (present fields ++ others) ∧
    ∀ e ∈ others, ∀ f ∈ fields, e.1 ≠ .text f.1

@[simp] theorem entry?_nil (key : String) : entry? [] key = none := rfl

@[simp] theorem entry?_text_cons (k : String) (v : Value) (rest : List (Value × Value))
    (key : String) :
    entry? ((.text k, v) :: rest) key = if k = key then some v else entry? rest key := rfl

theorem entry?_eq_none {entries : List (Value × Value)} {key : String}
    (h : ∀ e ∈ entries, e.1 ≠ .text key) : entry? entries key = none := by
  fun_induction entry? entries key with
  | case1 => rfl
  | case2 v rest => exact absurd rfl (h _ List.mem_cons_self)
  | case3 k v rest _ ih => exact ih fun e he => h e (List.mem_cons_of_mem _ he)
  | case4 e rest _ ih => exact ih fun e he => h e (List.mem_cons_of_mem _ he)

/-- The value under a key that has one value only. -/
theorem entry?_eq_some {entries : List (Value × Value)} {key : String} {w : Value}
    (hmem : (.text key, w) ∈ entries) (h : ∀ e ∈ entries, e.1 = .text key → e.2 = w) :
    entry? entries key = some w := by
  fun_induction entry? entries key with
  | case1 => cases hmem
  | case2 v rest =>
      have hv : v = w := h _ List.mem_cons_self rfl
      rw [hv]
  | case3 k v rest hk ih =>
      refine ih ?_ fun e he => h e (List.mem_cons_of_mem _ he)
      rcases List.mem_cons.mp hmem with heq | hmem
      · cases heq
        exact absurd rfl hk
      · exact hmem
  | case4 e rest he ih =>
      refine ih ?_ fun e he => h e (List.mem_cons_of_mem _ he)
      rcases List.mem_cons.mp hmem with heq | hmem
      · cases heq
        exact absurd rfl (he key w)
      · exact hmem

/-- An object that is asked for one of its fields answers with its value, or that it is
left out. -/
theorem IsObject.answers {fields : List (String × Option Value)} {v : Value}
    (h : IsObject fields v) (hkeys : (fields.map Prod.fst).Nodup) :
    ∀ f ∈ fields, Dump.Decode.field? v f.1 = .ok f.2 := by
  obtain ⟨entries, others, rfl, hperm, hothers⟩ := h
  rintro ⟨key, value?⟩ hf
  -- An entry under the key is the field's own, because no other field has its key.
  have hown : ∀ e ∈ entries, e.1 = .text key → value? = some e.2 := by
    intro e he hkey
    rcases List.mem_append.mp (hperm.mem_iff.mp he) with he | he
    · obtain ⟨⟨key', value'?⟩, hf', hentry⟩ := List.mem_filterMap.mp he
      obtain ⟨w, hw, rfl⟩ := Option.map_eq_some_iff.mp hentry
      have hsame : (key, value?) = (key', value'?) :=
        List.inj_on_of_nodup_map hkeys hf hf' (Value.text.inj hkey).symm
      rw [(Prod.mk.inj hsame).2]
      exact hw
    · exact absurd hkey (hothers e he _ hf)
  refine congrArg Except.ok ?_
  show entry? entries key = value?
  cases value? with
  | none =>
      rw [entry?_eq_none]
      intro e he hkey
      cases hown e he hkey
  | some w =>
      rw [entry?_eq_some]
      · refine hperm.mem_iff.mpr (List.mem_append_left _ ?_)
        exact List.mem_filterMap.mpr ⟨(key, some w), hf, rfl⟩
      · intro e he hkey
        exact (Option.some.inj (hown e he hkey)).symm

/-- A mapping with distinct keys is an object with the fields for which it answers so. -/
theorem isObject_of_entry? {fields : List (String × Option Value)}
    {entries : List (Value × Value)} (hfields : (fields.map Prod.fst).Nodup)
    (hkeys : (entries.map Prod.fst).Nodup)
    (h : ∀ f ∈ fields, entry? entries f.1 = f.2) : (Value.map entries).IsObject fields := by
  classical
  let known (e : Value × Value) : Bool := decide (∃ f ∈ fields, e.1 = .text f.1)
  have hpresent : (present fields).Nodup := by
    refine hfields.of_map.filterMap ?_
    rintro ⟨k, o⟩ ⟨k', o'⟩ e he he'
    obtain ⟨w, rfl, rfl⟩ := Option.map_eq_some_iff.mp he
    obtain ⟨w', rfl, heq⟩ := Option.map_eq_some_iff.mp he'
    cases heq
    rfl
  have hknown : (entries.filter known).Perm (present fields) := by
    refine (List.perm_ext_iff_of_nodup (hkeys.of_map.filter known) hpresent).mpr fun e => ?_
    simp only [known, List.mem_filter, decide_eq_true_eq, present, List.mem_filterMap,
      Option.map_eq_some_iff]
    constructor
    · rintro ⟨he, f, hf, hkey⟩
      have hentry : entry? entries f.1 = some e.2 := by
        refine entry?_eq_some (hkey ▸ he) fun e' he' hkey' => ?_
        have hsame := List.inj_on_of_nodup_map hkeys he' he (hkey'.trans hkey.symm)
        rw [hsame]
      exact ⟨f, hf, e.2, (h f hf).symm.trans hentry, by rw [← hkey]⟩
    · rintro ⟨f, hf, w, hw, rfl⟩
      exact ⟨mem_of_entry?_eq_some ((h f hf).trans hw), f, hf, rfl⟩
  refine ⟨entries, entries.filter fun e => !known e, rfl, ?_, ?_⟩
  · exact (List.filter_append_perm known entries).symm.trans (hknown.append_right _)
  · intro e he f hf hkey
    have hunknown := (List.mem_filter.mp he).2
    simp only [known, Bool.not_eq_true', decide_eq_false_iff_not] at hunknown
    exact hunknown ⟨f, hf, hkey⟩

end Value

namespace Dump

/-! ## The layout of a dump -/

/-- The value tells the unit's name and its pair of numbers. -/
def IsUnit (name : String) (unit : UnitId) (v : Value) : Prop :=
  v.IsObject
    [("name", some (.text name)),
     ("disambiguator", some (.list [.int unit.high, .int unit.low]))]

/-- The value tells a local identity. -/
def IsIdentity (r : LocalRef) (v : Value) : Prop :=
  v.IsObject [("krate", some (.int r.index)), ("index", some (.int r.slot))]

/-- The value tells a span. -/
def IsSpan (s : Span) (v : Value) : Prop :=
  v.IsObject
    [("file_name", some (.text s.file)),
     ("line_start", some (.int s.lineStart)), ("column_start", some (.int s.columnStart)),
     ("line_end", some (.int s.lineEnd)), ("column_end", some (.int s.columnEnd))]

/-- How an identity that need not be there is told. -/
inductive IsOptionalIdentity : Option LocalRef → Option Value → Prop
  | leftOut : IsOptionalIdentity none none
  | null : IsOptionalIdentity none (some .null)
  | given {r : LocalRef} {v : Value} (h : IsIdentity r v) :
      IsOptionalIdentity (some r) (some v)

/-- How a list is told, given how its items are. -/
inductive IsListOf {α : Type} (IsItem : α → Value → Prop) : List α → Option Value → Prop
  | leftOut : IsListOf IsItem [] none
  | null : IsListOf IsItem [] (some .null)
  | given {as : List α} {vs : List Value} (h : List.Forall₂ IsItem as vs) :
      IsListOf IsItem as (some (.list vs))

/-- The value tells a row of a dependency table. -/
inductive IsDependency (d : Dependency) (v : Value) : Prop
  | mk {id : Value} (hid : IsUnit d.name d.unit id)
      (h : v.IsObject [("num", some (.int d.ordinal)), ("id", some id)])

/-- The value tells a definition record. -/
inductive IsDefinition (d : LocalDefinition) (v : Value) : Prop
  | mk {id span : Value} {parent? declaration? : Option Value} (hid : IsIdentity d.id id)
      (hspan : IsSpan d.span span) (hparent : IsOptionalIdentity d.parent parent?)
      (hdeclaration : IsOptionalIdentity d.declaration declaration?)
      (h : v.IsObject
        [("kind", some (.text d.kind)), ("name", some (.text d.name)), ("id", some id),
         ("span", some span), ("parent", parent?), ("decl_id", declaration?)])

/-- The value tells a reference record. -/
inductive IsReference (r : LocalReference) (v : Value) : Prop
  | mk {target span : Value} (htarget : IsIdentity r.target target)
      (hspan : IsSpan r.span span)
      (h : v.IsObject
        [("kind", some (.text r.kind)), ("ref_id", some target), ("span", some span)])

/-- The value tells all that a dump holds, in the layout of dump files. -/
inductive Encodes (d : Dump) (v : Value) : Prop
  | mk {unit prelude compilation : Value} {externals? definitions? references? : Option Value}
      (hunit : IsUnit d.metadata.table.name d.metadata.table.own unit)
      (hexternals : IsListOf IsDependency d.metadata.table.externals externals?)
      (hprelude : prelude.IsObject
        [("crate_id", some unit), ("external_crates", externals?)])
      (hcompilation : compilation.IsObject
        [("directory", some (.text d.metadata.directory))])
      (hdefinitions : IsListOf IsDefinition d.definitions definitions?)
      (hreferences : IsListOf IsReference d.references references?)
      (h : v.IsObject
        [("prelude", some prelude), ("compilation", some compilation),
         ("defs", definitions?), ("refs", references?)])

/-! ## Reading objects back -/

namespace Decode

variable {v w : Value} {key : String}

theorem field_of_field? (h : field? v key = .ok (some w)) : field v key = .ok w := by
  cases v with
  | map entries =>
      have hentry : Value.entry? entries key = some w := Except.ok.inj h
      simp [field, hentry]
  | _ => cases h

theorem integerField_of_field? {n : Int} (h : field? v key = .ok (some (.int n))) :
    integerField v key = .ok n := by
  rw [integerField, field_of_field? h]
  rfl

theorem textField_of_field? {s : String} (h : field? v key = .ok (some (.text s))) :
    textField v key = .ok s := by
  rw [textField, field_of_field? h]
  rfl

theorem nameField_of_isUnit {name : String} {u : UnitId} (h : IsUnit name u v) :
    nameField v = .ok name := by
  have hname := h.answers (by simp) _ List.mem_cons_self
  rw [nameField, hname]
  rfl

theorem disambiguator_of_isUnit {name : String} {u : UnitId} (h : IsUnit name u v) :
    field v "disambiguator" = .ok (.list [.int u.high, .int u.low]) :=
  field_of_field? (h.answers (by simp) _ (List.mem_cons_of_mem _ List.mem_cons_self))

theorem localRef?_of_isIdentity {r : LocalRef} (h : IsIdentity r v) :
    localRef? v = .ok (some r) := by
  have hanswers := h.answers (by simp)
  simp only [List.forall_mem_cons] at hanswers
  obtain ⟨hindex, hslot, -⟩ := hanswers
  obtain ⟨entries, -, rfl, -⟩ := h
  simp only [localRef?, integerField_of_field? hindex, integerField_of_field? hslot]
  rfl

theorem localRefField?_of_field? {r : Option LocalRef} {o : Option Value}
    (h : IsOptionalIdentity r o) (hfield : field? v key = .ok o) :
    localRefField? v key = .ok r := by
  rw [localRefField?, hfield]
  cases h with
  | leftOut => rfl
  | null => rfl
  | given h => exact localRef?_of_isIdentity h

theorem span_of_isSpan {s : Span} (h : IsSpan s v) : span v = .ok s := by
  have hanswers := h.answers (by simp)
  simp only [List.forall_mem_cons] at hanswers
  obtain ⟨hfile, hlineStart, hcolumnStart, hlineEnd, hcolumnEnd, -⟩ := hanswers
  rw [span, textField_of_field? hfile, integerField_of_field? hlineStart,
    integerField_of_field? hcolumnStart, integerField_of_field? hlineEnd,
    integerField_of_field? hcolumnEnd]
  rfl

theorem dependency_of_isDependency {d : Dependency} (h : IsDependency d v) :
    dependency v = .ok d := by
  obtain ⟨hid, h⟩ := h
  have hanswers := h.answers (by simp)
  simp only [List.forall_mem_cons] at hanswers
  obtain ⟨hordinal, hunit, -⟩ := hanswers
  simp only [dependency, integerField_of_field? hordinal, field_of_field? hunit, bind, Except.bind,
    nameField_of_isUnit hid, disambiguator_of_isUnit hid]
  rfl

theorem definition_of_isDefinition {d : LocalDefinition} (h : IsDefinition d v) :
    definition v = .ok d := by
  obtain ⟨hid, hspan, hparent, hdeclaration, h⟩ := h
  have hanswers := h.answers (by simp)
  simp only [List.forall_mem_cons] at hanswers
  obtain ⟨hkind, hname, hidField, hspanField, hparentField, hdeclarationField, -⟩ := hanswers
  simp only [definition, field_of_field? hidField, localRef?_of_isIdentity hid,
    textField_of_field? hkind, textField_of_field? hname, field_of_field? hspanField,
    span_of_isSpan hspan, localRefField?_of_field? hparent hparentField,
    localRefField?_of_field? hdeclaration hdeclarationField, bind, Except.bind]
  rfl

theorem reference_of_isReference {r : LocalReference} (h : IsReference r v) :
    reference v = .ok r := by
  obtain ⟨htarget, hspan, h⟩ := h
  have hanswers := h.answers (by simp)
  simp only [List.forall_mem_cons] at hanswers
  obtain ⟨hkind, htargetField, hspanField, -⟩ := hanswers
  simp only [reference, field_of_field? htargetField, localRef?_of_isIdentity htarget,
    textField_of_field? hkind, field_of_field? hspanField, span_of_isSpan hspan, bind,
    Except.bind]
  rfl

/-- A list has parts from which its items are read one by one. -/
theorem exists_parts_of_isListOf {α : Type} {IsItem : α → Value → Prop}
    {read : Value → Except DumpFault α} {as : List α} {o : Option Value}
    (h : IsListOf IsItem as o) (hread : ∀ a v, IsItem a v → read v = .ok a) :
    ∃ vs, partsOrNone o = .ok vs ∧ vs.mapM read = .ok as := by
  cases h with
  | leftOut => exact ⟨[], rfl, rfl⟩
  | null => exact ⟨[], rfl, rfl⟩
  | @given _ vs h =>
      have hparts : partsOrNone (some (.list vs)) = .ok vs := by
        cases vs with
        | nil => rfl
        | cons v vs => rfl
      refine ⟨vs, hparts, ?_⟩
      clear hparts
      induction h with
      | nil => rfl
      | cons ha _ ih =>
          rw [List.mapM_cons, hread _ _ ha, ih]
          rfl

/-- An object with a field that is there does not count as absent. -/
theorem isFalsy_of_isObject {fields : List (String × Option Value)}
    (h : v.IsObject ((key, some w) :: fields)) : v.isFalsy = false := by
  obtain ⟨entries, others, rfl, hperm, -⟩ := h
  have hmem : (Value.text key, w) ∈ entries :=
    hperm.mem_iff.mpr (List.mem_append_left _ List.mem_cons_self)
  simpa [Value.isFalsy] using List.ne_nil_of_mem hmem

theorem metadata_of_encodes {d : Dump} (h : Encodes d v) : metadata v = .ok d.metadata := by
  obtain ⟨hunit, hexternals, hprelude, hcompilation, -, -, h⟩ := h
  have hanswers := h.answers (by simp)
  have hpreludeAnswers := hprelude.answers (by simp)
  simp only [List.forall_mem_cons] at hanswers hpreludeAnswers
  obtain ⟨hpreludeField, hcompilationField, -⟩ := hanswers
  obtain ⟨hunitField, hexternalsField, -⟩ := hpreludeAnswers
  have hdirectory := hcompilation.answers (by simp) _ List.mem_cons_self
  have hpresent := isFalsy_of_isObject hcompilation
  obtain ⟨rows, hrows, hread⟩ :=
    exists_parts_of_isListOf hexternals fun _ _ => dependency_of_isDependency
  simp only [metadata, field_of_field? hpreludeField, field_of_field? hunitField,
    hexternalsField, hrows, hread, nameField_of_isUnit hunit, disambiguator_of_isUnit hunit,
    hcompilationField, bind, Except.bind, Option.filter_some, hpresent, Bool.not_false, if_true,
    hdirectory]
  -- An empty directory counts as absent, and an absent one is empty.
  by_cases hempty : d.metadata.directory = ""
  · have hfalsy : (Value.text d.metadata.directory).isFalsy = true := by
      simp [Value.isFalsy, hempty]
    simp only [hfalsy, Bool.not_true, Bool.false_eq_true, if_false]
    show Except.ok (⟨d.metadata.table, ""⟩ : Metadata) = .ok d.metadata
    rw [← hempty]
  · have hfalsy : (Value.text d.metadata.directory).isFalsy = false := by
      simp [Value.isFalsy, hempty]
    simp only [hfalsy, Bool.not_false, if_true]
    rfl

end Decode

open Decode

/-- The decoder reads a dump back from each of its encodings. -/
theorem ofValue_of_encodes {d : Dump} {v : Value} (h : Encodes d v) :
    ofValue d.source v = .ok d := by
  have hmetadata := metadata_of_encodes h
  obtain ⟨-, -, -, -, hdefinitions, hreferences, h⟩ := h
  have hanswers := h.answers (by simp)
  simp only [List.forall_mem_cons] at hanswers
  obtain ⟨-, -, hdefinitionsField, hreferencesField, -⟩ := hanswers
  obtain ⟨ds, hds, hreadDefinitions⟩ :=
    exists_parts_of_isListOf hdefinitions fun _ _ => definition_of_isDefinition
  obtain ⟨rs, hrs, hreadReferences⟩ :=
    exists_parts_of_isListOf hreferences fun _ _ => reference_of_isReference
  simp only [ofValue, hmetadata, hdefinitionsField, hds, hreadDefinitions, hreferencesField, hrs,
    hreadReferences, bind, Except.bind]
  rfl

/-! ## One encoding -/

/-- The object with exactly these entries in this order. -/
def object (fields : List (String × Value)) : Value :=
  .map (fields.map fun f => (.text f.1, f.2))

/-- How a unit's name and numbers are written. -/
def unitValue (name : String) (u : UnitId) : Value :=
  object [("name", .text name), ("disambiguator", .list [.int u.high, .int u.low])]

/-- How a local identity is written; null if there is none. -/
def identityValue : Option LocalRef → Value
  | none => .null
  | some r => object [("krate", .int r.index), ("index", .int r.slot)]

/-- How a span is written. -/
def spanValue (s : Span) : Value :=
  object
    [("file_name", .text s.file), ("line_start", .int s.lineStart),
     ("column_start", .int s.columnStart), ("line_end", .int s.lineEnd),
     ("column_end", .int s.columnEnd)]

/-- How a row of a dependency table is written. -/
def dependencyValue (d : Dependency) : Value :=
  object [("num", .int d.ordinal), ("id", unitValue d.name d.unit)]

/-- How a definition record is written. -/
def definitionValue (d : LocalDefinition) : Value :=
  object
    [("kind", .text d.kind), ("name", .text d.name), ("id", identityValue (some d.id)),
     ("span", spanValue d.span), ("parent", identityValue d.parent),
     ("decl_id", identityValue d.declaration)]

/-- How a reference record is written. -/
def referenceValue (r : LocalReference) : Value :=
  object
    [("kind", .text r.kind), ("ref_id", identityValue (some r.target)),
     ("span", spanValue r.span)]

/-- How a dump is written if nothing is left out and nothing added. -/
def toValue (d : Dump) : Value :=
  object
    [("prelude", object
      [("crate_id", unitValue d.metadata.table.name d.metadata.table.own),
       ("external_crates", .list (d.metadata.table.externals.map dependencyValue))]),
     ("compilation", object [("directory", .text d.metadata.directory)]),
     ("defs", .list (d.definitions.map definitionValue)),
     ("refs", .list (d.references.map referenceValue))]

theorem isObject_object (fields : List (String × Value)) :
    (object fields).IsObject (fields.map fun f => (f.1, some f.2)) := by
  have hpresent : Value.present (fields.map fun f => (f.1, some f.2)) =
      fields.map fun f => (.text f.1, f.2) := by
    simp [Value.present]
  refine ⟨_, [], rfl, ?_, by simp⟩
  rw [hpresent, List.append_nil]

theorem isUnit_unitValue (name : String) (u : UnitId) : IsUnit name u (unitValue name u) :=
  isObject_object [_, _]

theorem isIdentity_identityValue (r : LocalRef) : IsIdentity r (identityValue (some r)) :=
  isObject_object [_, _]

theorem isOptionalIdentity_identityValue (r : Option LocalRef) :
    IsOptionalIdentity r (some (identityValue r)) := by
  cases r with
  | none => exact .null
  | some r => exact .given (isIdentity_identityValue r)

theorem isSpan_spanValue (s : Span) : IsSpan s (spanValue s) :=
  isObject_object [_, _, _, _, _]

theorem isListOf_map {α : Type} {IsItem : α → Value → Prop} {write : α → Value}
    (h : ∀ a, IsItem a (write a)) (as : List α) :
    IsListOf IsItem as (some (.list (as.map write))) := by
  refine .given ?_
  rw [List.forall₂_map_right_iff, List.forall₂_same]
  exact fun a _ => h a

theorem isDependency_dependencyValue (d : Dependency) :
    IsDependency d (dependencyValue d) :=
  ⟨isUnit_unitValue d.name d.unit, isObject_object [_, _]⟩

theorem isDefinition_definitionValue (d : LocalDefinition) :
    IsDefinition d (definitionValue d) :=
  ⟨isIdentity_identityValue d.id, isSpan_spanValue d.span,
    isOptionalIdentity_identityValue d.parent, isOptionalIdentity_identityValue d.declaration,
    isObject_object [_, _, _, _, _, _]⟩

theorem isReference_referenceValue (r : LocalReference) :
    IsReference r (referenceValue r) :=
  ⟨isIdentity_identityValue r.target, isSpan_spanValue r.span, isObject_object [_, _, _]⟩

/-- Every dump has an encoding. -/
theorem encodes_toValue (d : Dump) : Encodes d d.toValue := by
  have hprelude := isObject_object
    [("crate_id", unitValue d.metadata.table.name d.metadata.table.own),
     ("external_crates", .list (d.metadata.table.externals.map dependencyValue))]
  have hcompilation := isObject_object [("directory", .text d.metadata.directory)]
  exact ⟨isUnit_unitValue d.metadata.table.name d.metadata.table.own,
    isListOf_map isDependency_dependencyValue d.metadata.table.externals, hprelude, hcompilation,
    isListOf_map isDefinition_definitionValue d.definitions,
    isListOf_map isReference_referenceValue d.references, isObject_object [_, _, _, _]⟩

/-- Decoding undoes encoding.  Every dump has an encoding, and each of its encodings is
read as that dump: in whatever order the keys of the objects stand, whatever keys are
added to any of them, and whether identities that are not there and lists without items
are written as null, as empty or not at all. -/
theorem encoded_dump_read_back (d : Dump) :
    Encodes d d.toValue ∧ ∀ v, Encodes d v → ofValue d.source v = .ok d :=
  ⟨d.encodes_toValue, fun _ => ofValue_of_encodes⟩

/-- A method that has a declaration and no parent. -/
def fillMethod : LocalDefinition :=
  ⟨"Method", "fill", ⟨0, -2⟩, ⟨"src/main.rs", 1, 2, 3, 4⟩, none, some ⟨9, 4⟩⟩

/-- A unit with that method, one of whose numbers has more than 64 bits. -/
def drawDump : Dump :=
  ⟨"draw.json", ⟨⟨"draw", ⟨36893488147419103232, -1⟩, []⟩, ""⟩, [fillMethod], []⟩

/-- A local identity with its keys turned around and another between them. -/
def untidyIdentity (r : LocalRef) : Value :=
  object [("index", .int r.slot), ("id", .null), ("krate", .int r.index)]

/-- A span with its keys turned around and another among them. -/
def untidySpan (s : Span) : Value :=
  object
    [("column_end", .int s.columnEnd), ("line_end", .int s.lineEnd), ("byte_start", .int 8),
     ("column_start", .int s.columnStart), ("line_start", .int s.lineStart),
     ("file_name", .text s.file)]

/-- The method, its parent written as null. -/
def untidyMethod : Value :=
  object
    [("span", untidySpan fillMethod.span), ("parent", .null), ("qualname", .text "::fill"),
     ("decl_id", untidyIdentity ⟨9, 4⟩), ("id", untidyIdentity fillMethod.id),
     ("name", .text "fill"), ("kind", .text "Method")]

/-- The unit's name and numbers. -/
def untidyUnit : Value :=
  object
    [("disambiguator", .list [.int 36893488147419103232, .int (-1)]),
     ("edition", .int 2021), ("name", .text "draw")]

/-- The unit, its dependency table written as null and its references left out. -/
def untidyDump : Value :=
  object
    [("version", .text "0.19.1"), ("defs", .list [untidyMethod]),
     ("compilation", object [("program", .text "rustc"), ("directory", .text "")]),
     ("prelude", object [("external_crates", .null), ("crate_id", untidyUnit)])]

theorem isIdentity_untidyIdentity (r : LocalRef) : IsIdentity r (untidyIdentity r) :=
  Value.isObject_of_entry? (by simp) (by simp) (by simp)

theorem isSpan_untidySpan (s : Span) : IsSpan s (untidySpan s) :=
  Value.isObject_of_entry? (by simp) (by simp) (by simp)

theorem isDefinition_untidyMethod : IsDefinition fillMethod untidyMethod :=
  ⟨isIdentity_untidyIdentity fillMethod.id, isSpan_untidySpan fillMethod.span, .null,
    .given (isIdentity_untidyIdentity ⟨9, 4⟩),
    Value.isObject_of_entry? (by simp) (by simp) (by simp [fillMethod])⟩

theorem encodes_untidyDump : Encodes drawDump untidyDump := by
  have hunit : IsUnit "draw" ⟨36893488147419103232, -1⟩ untidyUnit :=
    Value.isObject_of_entry? (by simp) (by simp) (by simp)
  have hprelude : (object [("external_crates", .null), ("crate_id", untidyUnit)]).IsObject
      [("crate_id", some untidyUnit), ("external_crates", some .null)] :=
    Value.isObject_of_entry? (by simp) (by simp) (by simp)
  have hcompilation : (object [("program", .text "rustc"), ("directory", .text "")]).IsObject
      [("directory", some (.text ""))] :=
    Value.isObject_of_entry? (by simp) (by simp) (by simp)
  exact ⟨hunit, .null, hprelude, hcompilation, .given (.cons isDefinition_untidyMethod .nil),
    .leftOut, Value.isObject_of_entry? (by simp) (by simp) (by simp)⟩

theorem encoded_dump_read_back_untidyDump :
    Encodes drawDump untidyDump ∧ ofValue "draw.json" untidyDump = .ok drawDump :=
  ⟨encodes_untidyDump, (encoded_dump_read_back drawDump).2 untidyDump encodes_untidyDump⟩

end Dump

end DeadSymbols
