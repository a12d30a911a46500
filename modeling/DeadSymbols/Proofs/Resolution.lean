import Mathlib
import DeadSymbols.Resolve

/-!
# What resolution means

A dependency table gives meaning to an index: zero is the unit itself, and
`n + 1` is the row at place `n` provided the row declares the ordinal `n + 1`.
`Denotes` states this as a relation, without an order in which faults are looked
for; the resolving functions succeed exactly where the relation holds, with the
value it relates.

The relations are what the theorems about graphs and reports speak of.  A record
that has no related value is one that cannot be resolved; `Contradicts` says which
indexes are to blame for that, and with which fault.
-/

namespace DeadSymbols.DependencyTable

/-- The unit that an index stands for in a table. -/
inductive Denotes (t : DependencyTable) : Int → UnitId → Prop
  | own : Denotes t 0 t.own
  | external {place : Nat} {row : Dependency}
      (hrow : t.externals[place]? = some row) (hord : row.ordinal = place + 1) :
      Denotes t (place + 1) row.unit

/-- How an index contradicts the table, and the fault that says so: there is no row at
the index, or the row there declares another ordinal. -/
inductive Contradicts (t : DependencyTable) : Int → SchemaFault → Prop
  | negative {index : Int} (h : index < 0) :
      Contradicts t index (.noRow t.name index t.externals.length)
  | pastEnd {index : Int} (h : t.externals.length < index) :
      Contradicts t index (.noRow t.name index t.externals.length)
  | otherOrdinal {place : Nat} {row : Dependency}
      (hrow : t.externals[place]? = some row) (hord : row.ordinal ≠ place + 1) :
      Contradicts t (place + 1) (.otherOrdinal t.name (place + 1) row.ordinal)

/-- The symbol that a local identity stands for. -/
def Resolves (t : DependencyTable) (r : LocalRef) (id : SymbolId) : Prop :=
  t.Denotes r.index id.unit ∧ id.slot = r.slot

/-- A definition record and the definition it stands for: every identity in it is
resolved, and all else is copied. -/
structure ResolvesDefinition (t : DependencyTable) (r : LocalDefinition)
    (d : Definition) : Prop where
  kind : d.kind = r.kind
  name : d.name = r.name
  span : d.span = r.span
  id : t.Resolves r.id d.id
  parent : Option.Rel t.Resolves r.parent d.parent
  declaration : Option.Rel t.Resolves r.declaration d.declaration

/-! ## Indexes -/

/-- An index has a unit exactly if the table gives it one. -/
theorem unitAt_eq_ok_iff (t : DependencyTable) (index : Int) (u : UnitId) :
    t.unitAt index = .ok u ↔ t.Denotes index u := by
  constructor
  · intro h
    unfold unitAt at h
    split at h
    · next hzero =>
        obtain rfl := Except.ok.inj h
        subst hzero
        exact .own
    · next hzero =>
        split at h
        · cases h
        · next hneg =>
            have hindex : index = ((index.toNat - 1 : Nat) : Int) + 1 := by omega
            split at h
            · cases h
            · next row hrow =>
                split at h
                · next hord =>
                    obtain rfl := Except.ok.inj h
                    rw [hindex]
                    exact .external hrow (hord.trans hindex)
                · cases h
  · intro h
    cases h with
    | own => exact if_pos rfl
    | @external place row hrow hord =>
        have hzero : ¬ ((place : Int) + 1 = 0) := by omega
        have hneg : ¬ ((place : Int) + 1 < 0) := by omega
        have hplace : ((place : Int) + 1).toNat - 1 = place := by omega
        rw [unitAt, if_neg hzero, if_neg hneg, hplace, hrow]
        exact if_pos hord

/-- An index is refused exactly if it contradicts the table, with the fault that says
so. -/
theorem unitAt_eq_error_iff (t : DependencyTable) (index : Int) (fault : SchemaFault) :
    t.unitAt index = .error fault ↔ t.Contradicts index fault := by
  constructor
  · intro h
    unfold unitAt at h
    split at h
    · cases h
    · next hzero =>
        split at h
        · next hneg =>
            obtain rfl := Except.error.inj h
            exact .negative hneg
        · next hneg =>
            have hindex : index = ((index.toNat - 1 : Nat) : Int) + 1 := by omega
            split at h
            · next hrow =>
                obtain rfl := Except.error.inj h
                have hlength : t.externals.length ≤ index.toNat - 1 :=
                  List.getElem?_eq_none_iff.mp hrow
                exact .pastEnd (by omega)
            · next row hrow =>
                split at h
                · cases h
                · next hord =>
                    obtain rfl := Except.error.inj h
                    rw [hindex] at hord ⊢
                    exact .otherOrdinal hrow hord
  · intro h
    cases h with
    | negative hneg =>
        have hzero : index ≠ 0 := by omega
        rw [unitAt, if_neg hzero, if_pos hneg]
    | pastEnd hpast =>
        have hzero : index ≠ 0 := by omega
        have hneg : ¬ index < 0 := by omega
        have hrow : t.externals[index.toNat - 1]? = none :=
          List.getElem?_eq_none (by omega)
        rw [unitAt, if_neg hzero, if_neg hneg, hrow]
    | @otherOrdinal place row hrow hord =>
        have hzero : ¬ ((place : Int) + 1 = 0) := by omega
        have hneg : ¬ ((place : Int) + 1 < 0) := by omega
        have hplace : ((place : Int) + 1).toNat - 1 = place := by omega
        rw [unitAt, if_neg hzero, if_neg hneg, hplace, hrow]
        exact if_neg hord

/-- An index stands for one unit at most. -/
theorem Denotes.unique {t : DependencyTable} {index : Int} {u v : UnitId}
    (hu : t.Denotes index u) (hv : t.Denotes index v) : u = v := by
  have hu' := (unitAt_eq_ok_iff t index u).mpr hu
  have hv' := (unitAt_eq_ok_iff t index v).mpr hv
  exact Except.ok.inj (hu'.symm.trans hv')

/-! ## Identities and records -/

theorem resolve_eq_ok_iff (t : DependencyTable) (r : LocalRef) (id : SymbolId) :
    t.resolve r = .ok id ↔ t.Resolves r id := by
  rw [Resolves, ← unitAt_eq_ok_iff, resolve]
  cases h : t.unitAt r.index with
  | error fault => simp [Except.map]
  | ok u =>
      obtain ⟨unit, slot⟩ := id
      simp only [Except.map, Except.ok.injEq, SymbolId.mk.injEq]
      exact and_congr_right fun _ => eq_comm

theorem resolve_eq_error_iff (t : DependencyTable) (r : LocalRef) (fault : SchemaFault) :
    t.resolve r = .error fault ↔ t.Contradicts r.index fault := by
  rw [← unitAt_eq_error_iff, resolve]
  cases t.unitAt r.index with
  | error fault' => simp [Except.map]
  | ok u => simp [Except.map]

/-- A local identity stands for one symbol at most. -/
theorem Resolves.unique {t : DependencyTable} {r : LocalRef} {id id' : SymbolId}
    (h : t.Resolves r id) (h' : t.Resolves r id') : id = id' := by
  obtain ⟨unit, slot⟩ := id
  obtain ⟨unit', slot'⟩ := id'
  have hunit : unit = unit' := h.1.unique h'.1
  have hslot : slot = slot' := h.2.trans h'.2.symm
  rw [hunit, hslot]

theorem resolve?_eq_ok_iff (t : DependencyTable) (r : Option LocalRef)
    (id : Option SymbolId) :
    t.resolve? r = .ok id ↔ Option.Rel t.Resolves r id := by
  cases r with
  | none =>
      cases id with
      | none => exact ⟨fun _ => .none, fun _ => rfl⟩
      | some id =>
          constructor
          · intro h
            cases h
          · intro h
            cases h
  | some r =>
      rw [resolve?]
      cases h : t.resolve r with
      | error fault =>
          constructor
          · intro h'
            cases h'
          · intro h'
            cases h' with
            | some hr =>
                rw [← resolve_eq_ok_iff, h] at hr
                cases hr
      | ok found =>
          constructor
          · intro h'
            obtain rfl := Except.ok.inj h'
            exact .some ((resolve_eq_ok_iff t r found).mp h)
          · intro h'
            cases h' with
            | some hr =>
                rw [← resolve_eq_ok_iff, h] at hr
                obtain rfl := Except.ok.inj hr
                rfl

/-- A definition record is resolved exactly to the definition it stands for. -/
theorem definition_eq_ok_iff (t : DependencyTable) (r : LocalDefinition)
    (d : Definition) : t.definition r = .ok d ↔ t.ResolvesDefinition r d := by
  constructor
  · intro h
    unfold definition at h
    cases hid : t.resolve r.id with
    | error fault =>
        rw [hid] at h
        cases h
    | ok id =>
        rw [hid] at h
        cases hparent : t.resolve? r.parent with
        | error fault =>
            rw [hparent] at h
            cases h
        | ok parent =>
            rw [hparent] at h
            cases hdecl : t.resolve? r.declaration with
            | error fault =>
                rw [hdecl] at h
                cases h
            | ok declaration =>
                rw [hdecl] at h
                obtain rfl := Except.ok.inj h
                exact
                  { kind := rfl
                    name := rfl
                    span := rfl
                    id := (resolve_eq_ok_iff t r.id id).mp hid
                    parent := (resolve?_eq_ok_iff t r.parent parent).mp hparent
                    declaration :=
                      (resolve?_eq_ok_iff t r.declaration declaration).mp hdecl }
  · intro h
    obtain ⟨kind, name, id, span, parent, declaration⟩ := d
    obtain ⟨rfl, rfl, rfl, hid, hparent, hdecl⟩ := h
    rw [definition, (resolve_eq_ok_iff t r.id id).mpr hid,
      (resolve?_eq_ok_iff t r.parent parent).mpr hparent,
      (resolve?_eq_ok_iff t r.declaration declaration).mpr hdecl]
    rfl

/-- A reference record is resolved exactly to the target it stands for. -/
theorem reference_eq_ok_iff (t : DependencyTable) (r : LocalReference)
    (d : Reference) :
    t.reference r = .ok d ↔
      d.kind = r.kind ∧ t.Resolves r.target d.target ∧ d.span = r.span := by
  obtain ⟨kind, target, span⟩ := d
  rw [← resolve_eq_ok_iff, reference]
  cases h : t.resolve r.target with
  | error fault =>
      constructor
      · intro h'
        cases h'
      · rintro ⟨-, h', -⟩
        cases h'
  | ok found =>
      constructor
      · intro h'
        cases h'
        exact ⟨rfl, rfl, rfl⟩
      · rintro ⟨rfl, h', rfl⟩
        obtain rfl := Except.ok.inj h'
        rfl

end DeadSymbols.DependencyTable
