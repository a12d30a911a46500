import Mathlib
import DeadSymbols.Source.Outline

/-!
# Extents run forward

What is asked of the tree that a parser makes (`Source.Parser.Lawful`): every extent in
it starts no later than it stops, and its columns are numbers of 32 bits.  The parser of
this library makes such trees.

Lexemes run forward, because a point only moves forward over bytes, and their columns
are no greater than the number of bytes.  Any other extent of an outline is the hull of
pieces.  So the whole argument, for any property that hulls keep, is that each
recogniser puts together pieces of the list it is tried on and leaves a part of that
list.

## Main results

* `Extent.Forward.hull` — a hull runs forward if its first part does.
* `Source.lexemes_tame`, `Source.Piece.ofLexemes_all` — lexemes and pieces.
* `Source.outline_all` — the extents of an outline have what hulls keep.
* `Source.parser_lawful` — the parser of this library is lawful.
-/

namespace DeadSymbols

/-- Two comparisons, one after the other, compare pairs. -/
theorem isLE_then_compare_iff {α β : Type} [LinearOrder α] [LinearOrder β] (a a' : α)
    (b b' : β) :
    ((compare a a').then (compare b b')).isLE = true ↔ a < a' ∨ a = a' ∧ b ≤ b' := by
  rcases lt_trichotomy a a' with hlt | heq | hgt
  · simp [compare_lt_iff_lt.2 hlt, hlt]
  · have hsecond : (compare b b').isLE = true ↔ b ≤ b' := by
      rw [Ordering.isLE_iff_ne_gt]
      exact compare_le_iff_le
    rw [compare_eq_iff_eq.2 heq, Ordering.then, hsecond]
    simp [heq]
  · simp [compare_gt_iff_gt.2 hgt, hgt.not_gt, hgt.ne']

namespace Point

/-- Points are in reading order if their rows are, or if the rows agree and the
columns are. -/
theorem le_iff (p q : Point) :
    p.le q = true ↔ p.row < q.row ∨ p.row = q.row ∧ p.column ≤ q.column :=
  isLE_then_compare_iff p.row q.row p.column q.column

theorem le_refl (p : Point) : p.le p = true :=
  (le_iff p p).2 (.inr ⟨rfl, Nat.le_refl _⟩)

theorem le_trans {p q r : Point} (hpq : p.le q = true) (hqr : q.le r = true) :
    p.le r = true := by
  rw [le_iff] at hpq hqr ⊢
  omega

theorem le_total (p q : Point) : p.le q = true ∨ q.le p = true := by
  rw [le_iff, le_iff]
  omega

theorem earlier_le_left (p q : Point) : (p.earlier q).le p = true := by
  rw [earlier]
  split
  · exact le_refl p
  · next h => exact (le_total p q).resolve_left h

theorem le_later_left (p q : Point) : p.le (p.later q) = true := by
  rw [later]
  split
  · next h => exact h
  · exact le_refl p

/-- A point only moves forward over bytes. -/
theorem le_after (p : Point) (bytes : Text.Bytes) : p.le (p.after bytes) = true := by
  induction bytes generalizing p with
  | nil => exact le_refl p
  | cons b rest ih =>
      rw [after]
      refine le_trans ?_ (ih _)
      rw [le_iff]
      split
      · left
        show p.row < p.row + 1
        omega
      · right
        exact ⟨rfl, Nat.le_succ _⟩

/-- A point moves by no more columns than there are bytes. -/
theorem column_after_le (p : Point) (bytes : Text.Bytes) :
    (p.after bytes).column ≤ p.column + bytes.length := by
  induction bytes generalizing p with
  | nil => exact Nat.le_refl _
  | cons b rest ih =>
      rw [after, List.length_cons]
      refine Nat.le_trans (ih _) ?_
      split <;> dsimp only <;> omega

end Point

namespace Extent

/-- The extent starts no later than it stops. -/
def Forward (e : Extent) : Prop := e.start.le e.stop = true

/-- The columns of the extent are numbers of 32 bits. -/
def Narrow (e : Extent) : Prop := e.start.column < 2 ^ 32 ∧ e.stop.column < 2 ^ 32

/-- A hull runs forward if its first part does. -/
theorem Forward.hull {a : Extent} (h : a.Forward) (b : Extent) : (a.hull b).Forward :=
  Point.le_trans (Point.earlier_le_left a.start b.start)
    (Point.le_trans h (Point.le_later_left a.stop b.stop))

/-- Hulls keep the property. -/
def KeptByHull (P : Extent → Prop) : Prop :=
  ∀ a b : Extent, P a → P b → P (a.hull b)

/-- The extent runs forward between columns up to a greatest one. -/
structure Tame (greatest : Nat) (e : Extent) : Prop where
  forward : e.Forward
  start_le : e.start.column ≤ greatest
  stop_le : e.stop.column ≤ greatest

theorem keptByHull_tame (greatest : Nat) : KeptByHull (Tame greatest) := by
  intro a b ha hb
  refine ⟨ha.forward.hull b, ?_, ?_⟩
  · show (a.start.earlier b.start).column ≤ greatest
    rw [Point.earlier]
    split
    · exact ha.start_le
    · exact hb.start_le
  · show (a.stop.later b.stop).column ≤ greatest
    rw [Point.later]
    split
    · exact hb.stop_le
    · exact ha.stop_le

theorem KeptByHull.foldl {P : Extent → Prop} (hP : KeptByHull P) {a : Extent} (ha : P a)
    {bs : List Extent} (hbs : ∀ b ∈ bs, P b) : P (bs.foldl Extent.hull a) := by
  induction bs generalizing a with
  | nil => exact ha
  | cons b bs ih =>
      rw [List.forall_mem_cons] at hbs
      exact ih (hP _ _ ha hbs.1) hbs.2

end Extent

namespace Source

/-! ## Lexemes -/

-- A point and the bytes after it: together they bound the columns that are still to come.
private theorem lexemesAux_tame {greatest : Nat} (fuel : Nat) (first : Bool) (p : Point)
    (bytes : Text.Bytes) (h : p.column + bytes.length ≤ greatest) :
    ∀ l ∈ lexemesAux fuel first p bytes, l.extent.Tame greatest := by
  induction fuel generalizing first p bytes with
  | zero => simp [lexemesAux]
  | succ fuel ih =>
      cases bytes with
      | nil => simp [lexemesAux]
      | cons b rest =>
          have hnext (extra : Nat) : (p.after (b :: rest.take extra)).column +
              (rest.drop extra).length ≤ greatest := by
            have hcolumn := p.column_after_le (b :: rest.take extra)
            simp only [List.length_cons, List.length_take, List.length_drop] at h hcolumn ⊢
            omega
          rw [lexemesAux]
          split
          · exact ih _ _ _ (hnext _)
          · intro l hl
            rcases List.mem_cons.1 hl with rfl | hl
            · exact ⟨p.le_after _, Nat.le_trans (Nat.le_add_right _ _) h,
                Nat.le_trans (Nat.le_add_right _ _) (hnext _)⟩
            · exact ih _ _ _ (hnext _) l hl

theorem lexemes_tame (source : Text.Bytes) :
    ∀ l ∈ lexemes source, l.extent.Tame source.length := by
  rw [lexemes]
  split
  · next hmark =>
      have hlength := (List.isPrefixOf_iff_prefix.1 hmark).length_le
      refine lexemesAux_tame _ _ _ _ ?_
      have hcolumn := Point.column_after_le ⟨0, 0⟩ byteOrderMark
      simp only [byteOrderMark, List.length_cons, List.length_nil, List.length_drop] at *
      omega
  · exact lexemesAux_tame _ _ _ _ (Nat.le_of_eq (Nat.zero_add _))

/-! ## Pieces -/

namespace Piece

/-- The extent of the piece and those of all pieces inside it have the property. -/
inductive All (P : Extent → Prop) : Piece → Prop
  | lexeme {l : Lexeme} : P l.extent → All P (.lexeme l)
  | group {d : Delimiter} {e : Extent} {inside : List Piece} :
      P e → (∀ p ∈ inside, All P p) → All P (.group d e inside)

variable {P : Extent → Prop}

theorem All.extent {p : Piece} (h : p.All P) : P p.extent := by
  cases h with
  | lexeme h => exact h
  | group h _ => exact h

theorem All.inside {d : Delimiter} {e : Extent} {inside : List Piece}
    (h : (Piece.group d e inside).All P) : ∀ p ∈ inside, p.All P := by
  cases h with
  | group _ h => exact h

-- What is left over is a part of the lexemes, so it has the property as they do.
private theorem ofLexemesAux_all (hP : Extent.KeptByHull P) (fuel : Nat) (ls : List Lexeme)
    (h : ∀ l ∈ ls, P l.extent) :
    (∀ p ∈ (ofLexemesAux fuel ls).1, p.All P) ∧
      ∀ l ∈ (ofLexemesAux fuel ls).2, P l.extent := by
  induction fuel generalizing ls with
  | zero => exact ⟨by simp [ofLexemesAux], h⟩
  | succ fuel ih =>
      cases ls with
      | nil => simp [ofLexemesAux]
      | cons l rest =>
          have hl := h l List.mem_cons_self
          have hrest : ∀ l ∈ rest, P l.extent :=
            fun l' hl' => h l' (List.mem_cons_of_mem l hl')
          rw [ofLexemesAux]
          split
          · exact ⟨by simp, h⟩
          · obtain ⟨hinside, hafter⟩ := ih rest hrest
            dsimp only
            split
            · exact ⟨by simpa using All.group hl hinside, by simp⟩
            · next close after' hclose =>
                rw [hclose, List.forall_mem_cons] at hafter
                obtain ⟨hmore, hlast⟩ := ih after' hafter.2
                refine ⟨?_, hlast⟩
                intro p hp
                rcases List.mem_cons.1 hp with rfl | hp
                · exact .group (hP _ _ hl hafter.1) hinside
                · exact hmore p hp
          · obtain ⟨hmore, hlast⟩ := ih rest hrest
            refine ⟨?_, hlast⟩
            intro p hp
            rcases List.mem_cons.1 hp with rfl | hp
            · exact .lexeme hl
            · exact hmore p hp

theorem ofLexemes_all (hP : Extent.KeptByHull P) {ls : List Lexeme}
    (h : ∀ l ∈ ls, P l.extent) : ∀ p ∈ ofLexemes ls, p.All P :=
  (ofLexemesAux_all hP _ ls h).1

end Piece

/-! ## Recognisers -/

namespace Outline

variable {P : Extent → Prop}

private theorem skipComments_sublist (ps : List Piece) : (skipComments ps).Sublist ps :=
  (List.dropWhile_suffix _).sublist

/-- What is expected is one of the pieces, and other pieces follow it. -/
theorem expect?_eq_some {test : Piece → Bool} {ps : List Piece} {p : Piece}
    {rest : List Piece} (h : expect? test ps = some (p, rest)) :
    p ∈ ps ∧ rest.Sublist ps := by
  have hsub := skipComments_sublist ps
  rw [expect?] at h
  split at h
  · next q more hskip =>
      rw [hskip] at hsub
      split at h
      · obtain ⟨rfl, rfl⟩ := Prod.mk.inj (Option.some.inj h)
        exact ⟨hsub.mem List.mem_cons_self, (List.sublist_cons_self _ _).trans hsub⟩
      · contradiction
  · contradiction

private theorem skipAngles_sublist {depth : Nat} {ps rest : List Piece}
    (h : skipAngles depth ps = some rest) : rest.Sublist ps := by
  induction ps generalizing depth with
  | nil => simp [skipAngles] at h
  | cons p more ih =>
      have htail : more.Sublist (p :: more) := List.sublist_cons_self p more
      rw [skipAngles.eq_def] at h
      dsimp only at h
      split at h
      · exact (ih h).trans htail
      · split at h
        · split at h
          · contradiction
          · obtain rfl := Option.some.inj h
            exact htail
          · exact (ih h).trans htail
        · exact (ih h).trans htail

private theorem pathRest_sublist (fuel : Nat) (ps : List Piece) :
    (pathRest fuel ps).Sublist ps := by
  induction fuel generalizing ps with
  | zero => exact List.Sublist.refl ps
  | succ fuel ih =>
      rw [pathRest]
      split
      · exact List.Sublist.refl ps
      · next colons rest hcolons =>
          have hrest := (expect?_eq_some hcolons).2
          split
          · next word rest' hword =>
              exact (ih rest').trans ((expect?_eq_some hword).2.trans hrest)
          · split
            · exact List.Sublist.refl ps
            · next angle rest' hangle =>
                split
                · exact List.Sublist.refl ps
                · next rest'' hangles =>
                    exact (ih rest'').trans ((skipAngles_sublist hangles).trans
                      ((expect?_eq_some hangle).2.trans hrest))

private theorem path?_eq_some {ps : List Piece} {p : Piece} {rest : List Piece}
    (h : path? ps = some (p, rest)) : p ∈ ps ∧ rest.Sublist ps := by
  cases ps with
  | nil => simp [path?] at h
  | cons q more =>
      have htail : more.Sublist (q :: more) := List.sublist_cons_self q more
      rw [path?] at h
      split at h
      · split at h
        · contradiction
        · next word rest' hword =>
            obtain ⟨rfl, rfl⟩ := Prod.mk.inj (Option.some.inj h)
            exact ⟨List.mem_cons_self,
              (pathRest_sublist _ _).trans ((expect?_eq_some hword).2.trans htail)⟩
      · split at h
        · contradiction
        · dsimp only at h
          split at h
          · contradiction
          · obtain ⟨rfl, rfl⟩ := Prod.mk.inj (Option.some.inj h)
            exact ⟨List.mem_cons_self, (pathRest_sublist _ _).trans htail⟩

theorem macroCall?_eq_some (hP : Extent.KeptByHull P) {ps : List Piece} {e : Extent}
    {rest : List Piece} (h : macroCall? ps = some (e, rest)) :
    ((∀ p ∈ ps, p.All P) → P e) ∧ rest.Sublist ps := by
  simp only [macroCall?, Option.bind_eq_bind, Option.bind_eq_some_iff, Option.pure_def,
    Option.some.injEq, Prod.exists, Prod.mk.injEq] at h
  obtain ⟨first, rest₁, hpath, mark, rest₂, hmark, g, rest₃, hgroup, rfl, rfl⟩ := h
  obtain ⟨hfirst, hrest₁⟩ := path?_eq_some hpath
  have hrest₂ := (expect?_eq_some hmark).2.trans hrest₁
  obtain ⟨hg, hrest₃⟩ := expect?_eq_some hgroup
  exact ⟨fun hps => hP _ _ (hps first hfirst).extent (hps g (hrest₂.mem hg)).extent,
    hrest₃.trans hrest₂⟩

theorem attribute?_eq_some (hP : Extent.KeptByHull P) {ps : List Piece} {kind : NodeKind}
    {e : Extent} {rest : List Piece} (h : attribute? ps = some (kind, e, rest)) :
    ((∀ p ∈ ps, p.All P) → P e) ∧ rest.Sublist ps ∧ kind.isMuting = true := by
  simp only [attribute?, Option.bind_eq_bind, Option.bind_eq_some_iff, Prod.exists] at h
  obtain ⟨hash, rest₁, hhash, h⟩ := h
  obtain ⟨hmem, hrest₁⟩ := expect?_eq_some hhash
  split at h
  · next mark rest₂ hmark =>
      simp only [Option.bind_eq_some_iff, Option.pure_def, Option.some.injEq, Prod.exists,
        Prod.mk.injEq] at h
      obtain ⟨g, rest₃, hgroup, rfl, rfl, rfl⟩ := h
      have hrest₂ := (expect?_eq_some hmark).2.trans hrest₁
      obtain ⟨hg, hrest₃⟩ := expect?_eq_some hgroup
      exact ⟨fun hps => hP _ _ (hps hash hmem).extent (hps g (hrest₂.mem hg)).extent,
        hrest₃.trans hrest₂, rfl⟩
  · simp only [Option.bind_eq_some_iff] at h
    obtain ⟨⟨g, rest₂⟩, hgroup, h⟩ := h
    obtain ⟨hg, hrest₂⟩ := expect?_eq_some hgroup
    cases g with
    | lexeme l => contradiction
    | group d inner inside =>
        simp only [Option.pure_def, Option.some.injEq, Prod.mk.injEq] at h
        obtain ⟨rfl, rfl, rfl⟩ := h
        exact ⟨fun hps => hP _ _ (hps hash hmem).extent (hps _ (hrest₁.mem hg)).extent,
          hrest₂.trans hrest₁, rfl⟩

theorem macroDefinition?_eq_some (hP : Extent.KeptByHull P) {ps : List Piece} {e : Extent}
    {rest : List Piece} (h : macroDefinition? ps = some (e, rest)) :
    ((∀ p ∈ ps, p.All P) → P e) ∧ rest.Sublist ps := by
  cases ps with
  | nil => simp [macroDefinition?] at h
  | cons first more =>
      rw [macroDefinition?] at h
      split at h
      · contradiction
      · simp only [Option.bind_eq_bind, Option.bind_eq_some_iff, Prod.exists] at h
        obtain ⟨mark, rest₁, hmark, word, rest₂, hword, g, rest₃, hgroup, h⟩ := h
        have hrest₂ : rest₂.Sublist (first :: more) := (expect?_eq_some hword).2.trans
          ((expect?_eq_some hmark).2.trans (List.sublist_cons_self first more))
        obtain ⟨hg, hrest₃⟩ := expect?_eq_some hgroup
        replace hrest₃ := hrest₃.trans hrest₂
        have hwhole : (∀ p ∈ first :: more, p.All P) → P (first.extent.hull g.extent) :=
          fun hps => hP _ _ (hps first List.mem_cons_self).extent (hps g (hrest₂.mem hg)).extent
        split at h
        · obtain ⟨rfl, rfl⟩ := Prod.mk.inj (Option.some.inj h)
          exact ⟨hwhole, hrest₃⟩
        · split at h
          · next semicolon rest₄ hsemicolon =>
              obtain ⟨rfl, rfl⟩ := Prod.mk.inj (Option.some.inj h)
              obtain ⟨hmem, hrest₄⟩ := expect?_eq_some hsemicolon
              exact ⟨fun hps => hP _ _ (hwhole hps) (hps semicolon (hrest₃.mem hmem)).extent,
                hrest₄.trans hrest₃⟩
          · obtain ⟨rfl, rfl⟩ := Prod.mk.inj (Option.some.inj h)
            exact ⟨hwhole, hrest₃⟩

private theorem macroCall?_sublist {ps : List Piece} {e : Extent} {rest : List Piece}
    (h : macroCall? ps = some (e, rest)) : rest.Sublist ps :=
  (macroCall?_eq_some (P := fun _ => True) (fun _ _ _ _ => trivial) h).2

private theorem afterVisibility_sublist (ps : List Piece) :
    (afterVisibility ps).Sublist ps := by
  rw [afterVisibility]
  split
  · next word rest hword =>
      split
      · next g rest' hgroup =>
          exact (expect?_eq_some hgroup).2.trans (expect?_eq_some hword).2
      · exact (expect?_eq_some hword).2
  · split
    · next word rest hword => exact (expect?_eq_some hword).2
    · exact List.Sublist.refl ps

private theorem afterModifiers_sublist (ps : List Piece) :
    (afterModifiers ps).Sublist ps := by
  induction ps with
  | nil => exact List.Sublist.refl []
  | cons p rest ih =>
      rw [afterModifiers]
      split
      · exact ih.trans (List.sublist_cons_self p rest)
      · exact List.Sublist.refl _

private theorem signaturePart_sublist (inType : Bool) (fuel depth : Nat)
    (ps : List Piece) :
    (∀ q ∈ (signaturePart inType fuel depth ps).1, q ∈ ps) ∧
      (signaturePart inType fuel depth ps).2.Sublist ps := by
  induction fuel generalizing depth ps with
  | zero => exact ⟨by simp [signaturePart], List.Sublist.refl ps⟩
  | succ fuel ih =>
      cases ps with
      | nil => exact ⟨by simp [signaturePart], List.Sublist.refl []⟩
      | cons p rest =>
          rw [signaturePart]
          split
          · next e rest' hcall =>
              have hrest' := macroCall?_sublist hcall
              obtain ⟨hpart, hafter⟩ := ih depth rest'
              refine ⟨?_, hafter.trans hrest'⟩
              intro q hq
              rcases List.mem_append.1 hq with hq | hq
              · exact List.mem_of_mem_take hq
              · exact hrest'.mem (hpart q hq)
          · split
            · exact ⟨by simp, List.Sublist.refl _⟩
            · dsimp only
              obtain ⟨hpart, hafter⟩ := ih (if p.isMark "<" then depth + 1
                else if p.isMark ">" then depth - 1 else depth) rest
              refine ⟨?_, hafter.trans (List.sublist_cons_self p rest)⟩
              intro q hq
              rcases List.mem_cons.1 hq with rfl | hq
              · exact List.mem_cons_self
              · exact List.mem_cons_of_mem p (hpart q hq)

/-- The extent of pieces is the hull of theirs. -/
theorem extent?_eq_some (hP : Extent.KeptByHull P) {ps : List Piece} {e : Extent}
    (hps : ∀ p ∈ ps, p.All P) (h : extent? ps = some e) : P e := by
  rw [extent?] at h
  split at h
  · contradiction
  · next p rest hfilter =>
      obtain rfl := Option.some.inj h
      have hfiltered : ∀ q ∈ p :: rest, P q.extent :=
        fun q hq => (hps q (List.mem_of_mem_filter (hfilter ▸ hq))).extent
      rw [List.forall_mem_cons] at hfiltered
      rw [← List.foldl_map]
      exact hP.foldl hfiltered.1 (List.forall_mem_map.2 hfiltered.2)

private theorem afterGenerics?_sublist {ps rest : List Piece}
    (h : afterGenerics? ps = some rest) : rest.Sublist ps := by
  rw [afterGenerics?] at h
  split at h
  · next angle more hangle =>
      exact (skipAngles_sublist h).trans (expect?_eq_some hangle).2
  · obtain rfl := Option.some.inj h
    exact List.Sublist.refl _

private theorem returnType_spec (hP : Extent.KeptByHull P) (ps : List Piece) :
    ((∀ p ∈ ps, p.All P) → ∀ e ∈ (returnType ps).1, P e) ∧
      (returnType ps).2.Sublist ps := by
  rw [returnType]
  split
  · next arrow rest harrow =>
      have hrest := (expect?_eq_some harrow).2
      obtain ⟨hpart, hafter⟩ := signaturePart_sublist true (rest.length + 1) 0 rest
      refine ⟨?_, hafter.trans hrest⟩
      intro hps e he
      exact extent?_eq_some hP (fun p hp => hps p (hrest.mem (hpart p hp))) he
  · exact ⟨by simp, List.Sublist.refl ps⟩

theorem function?_eq_some (hP : Extent.KeptByHull P) {ps : List Piece} {f : Function}
    {rest : List Piece} (h : function? ps = some (f, rest)) :
    ((∀ p ∈ ps, p.All P) →
        P f.extent ∧ (∀ e ∈ f.returnType, P e) ∧ ∀ p ∈ f.inside, p.All P) ∧
      rest.Sublist ps := by
  unfold function? at h
  simp only [Option.bind_eq_bind, Option.bind_eq_some_iff] at h
  obtain ⟨start, hstart, h⟩ := h
  split at h
  · contradiction
  · simp only [Option.bind_eq_some_iff, Option.pure_def, Option.some.injEq] at h
    obtain ⟨⟨word, inside⟩, hword, ⟨namePiece, rest₁⟩, hname, name, -, rest₂, hgenerics,
      ⟨g, rest₃⟩, hparens, ⟨body, rest₄⟩, hbody, h⟩ := h
    obtain ⟨rfl, rfl⟩ := Prod.mk.inj h
    have hinside : inside.Sublist ps := (expect?_eq_some hword).2.trans
      ((afterModifiers_sublist _).trans (afterVisibility_sublist ps))
    have hrest₃ : rest₃.Sublist ps := (expect?_eq_some hparens).2.trans
      ((afterGenerics?_sublist hgenerics).trans ((expect?_eq_some hname).2.trans hinside))
    obtain ⟨htype, hafter⟩ := returnType_spec hP rest₃
    obtain ⟨hmem, hrest₄⟩ := expect?_eq_some hbody
    have hbefore := (signaturePart_sublist false ((returnType rest₃).2.length + 1) 0
      (returnType rest₃).2).2.trans (hafter.trans hrest₃)
    refine ⟨?_, hrest₄.trans hbefore⟩
    intro hps
    refine ⟨hP _ _ (hps start (List.mem_of_head? hstart)).extent
      (hps body (hbefore.mem hmem)).extent, ?_, ?_⟩
    · exact htype fun p hp => hps p (hrest₃.mem hp)
    · intro p hp
      exact hps p (hinside.mem (List.mem_of_mem_take hp))

end Outline

/-! ## Nodes -/

/-- The extent that the kind mentions has the property. -/
def NodeKind.All (P : Extent → Prop) : NodeKind → Prop
  | .function _ returnType => ∀ e ∈ returnType, P e
  | _ => True

/-- All extents that the node and the nodes in it mention have the property. -/
inductive Node.All (P : Extent → Prop) : Node → Prop
  | mk {kind : NodeKind} {e : Extent} {children : List Node} :
      kind.All P → P e → (∀ n ∈ children, Node.All P n) → Node.All P (.mk kind e children)

section

variable {P Q : Extent → Prop}

theorem Node.All.extent {n : Node} (h : n.All P) : P n.extent := by
  cases h with
  | mk _ h _ => exact h

theorem NodeKind.All.mono {kind : NodeKind} (h : kind.All P) (hPQ : ∀ e, P e → Q e) :
    kind.All Q := by
  cases kind with
  | function name returnType => exact fun e he => hPQ e (h e he)
  | _ => trivial

theorem NodeKind.All.and {kind : NodeKind} (hP : kind.All P) (hQ : kind.All Q) :
    kind.All fun e => P e ∧ Q e := by
  cases kind with
  | function name returnType => exact fun e he => ⟨hP e he, hQ e he⟩
  | _ => trivial

theorem Node.All.mono {n : Node} (h : n.All P) (hPQ : ∀ e, P e → Q e) : n.All Q := by
  induction h with
  | mk hkind he _ ih => exact .mk (hkind.mono hPQ) (hPQ _ he) ih

theorem Node.All.and {n : Node} (hP : n.All P) (hQ : n.All Q) :
    n.All fun e => P e ∧ Q e := by
  induction hP with
  | mk hkind he _ ih =>
      cases hQ with
      | mk hkind' he' hchildren' =>
          exact .mk (hkind.and hkind') ⟨he, he'⟩ fun n hn => ih n hn (hchildren' n hn)

private theorem Node.All.leaf {kind : NodeKind} {e : Extent} (hkind : kind.All P)
    (he : P e) : (Node.mk kind e []).All P :=
  .mk hkind he (by simp)

private theorem nodesAux_all (hP : Extent.KeptByHull P) (fuel : Nat) (ps : List Piece)
    (hps : ∀ p ∈ ps, p.All P) : ∀ n ∈ Outline.nodesAux fuel ps, n.All P := by
  induction fuel generalizing ps with
  | zero => simp [Outline.nodesAux]
  | succ fuel ih =>
      cases ps with
      | nil => simp [Outline.nodesAux]
      | cons p rest =>
          have hp := hps p List.mem_cons_self
          -- Whatever is recognised, the pieces after it are pieces of this list.
          have hafter : ∀ rest' : List Piece, rest'.Sublist (p :: rest) →
              ∀ n ∈ Outline.nodesAux fuel rest', n.All P :=
            fun rest' hrest' => ih rest' fun q hq => hps q (hrest'.mem hq)
          have hrest := hafter rest (List.sublist_cons_self p rest)
          rw [Outline.nodesAux.eq_def]
          dsimp only
          split
          · exact List.forall_mem_cons.2 ⟨.leaf trivial hp.extent, hrest⟩
          split
          · next kind e rest' hattribute =>
              obtain ⟨he, hrest', hmuting⟩ := Outline.attribute?_eq_some hP hattribute
              have hkind : kind.All P := by
                cases kind <;> trivial
              exact List.forall_mem_cons.2 ⟨.leaf hkind (he hps), hafter rest' hrest'⟩
          split
          · next e rest' hdefinition =>
              obtain ⟨he, hrest'⟩ := Outline.macroDefinition?_eq_some hP hdefinition
              exact List.forall_mem_cons.2 ⟨.leaf trivial (he hps), hafter rest' hrest'⟩
          split
          · next e rest' hcall =>
              obtain ⟨he, hrest'⟩ := Outline.macroCall?_eq_some hP hcall
              exact List.forall_mem_cons.2 ⟨.leaf trivial (he hps), hafter rest' hrest'⟩
          split
          · next f rest' hfunction =>
              obtain ⟨hf, hrest'⟩ := Outline.function?_eq_some hP hfunction
              obtain ⟨hextent, htype, hinside⟩ := hf hps
              exact List.forall_mem_cons.2
                ⟨.mk htype hextent (ih f.inside hinside), hafter rest' hrest'⟩
          · cases p with
            | group d e inside =>
                exact List.forall_mem_cons.2
                  ⟨.mk trivial hp.extent (ih inside hp.inside), hrest⟩
            | lexeme l =>
                exact List.forall_mem_cons.2 ⟨.leaf trivial hp.extent, hrest⟩

/-- What the lexemes of a source have and hulls keep, all of its outline has. -/
theorem outline_all (hP : Extent.KeptByHull P) {source : Text.Bytes}
    (hwhole : P ⟨⟨0, 0⟩, Point.after ⟨0, 0⟩ source⟩)
    (hlexemes : ∀ l ∈ lexemes source, P l.extent) : (outline source).All P :=
  .mk trivial hwhole (nodesAux_all hP _ _ (Piece.ofLexemes_all hP hlexemes))

end

/-! ## Lawful parsers -/

/-- All extents that the node and the nodes in it mention run forward. -/
abbrev Node.Forward (n : Node) : Prop := n.All Extent.Forward

/-- What is asked of a parser. -/
structure Parser.Lawful (parse : Parser) : Prop where
  /-- What a tree mentions starts no later than it stops. -/
  forward : ∀ source, (parse source).Forward
  /-- The columns of a tree are numbers of 32 bits. -/
  narrow : ∀ source, (parse source).All Extent.Narrow

theorem outline_tame (source : Text.Bytes) :
    (outline source).All (Extent.Tame source.length) :=
  outline_all (Extent.keptByHull_tame source.length)
    ⟨Point.le_after _ _, Nat.zero_le _,
      Nat.le_trans (Point.column_after_le _ source) (Nat.le_of_eq (Nat.zero_add _))⟩
    (lexemes_tame source)

theorem outline_forward (source : Text.Bytes) : (outline source).Forward :=
  (outline_tame source).mono fun _ h => h.forward

/-- The parser of this library is lawful. -/
theorem parser_lawful : Parser.Lawful parser where
  forward source := by
    rw [parser]
    split
    · exact outline_forward source
    · exact .leaf trivial (Point.le_refl _)
  narrow source := by
    rw [parser]
    split
    · next hlength =>
        rw [columnLimit] at hlength
        exact (outline_tame source).mono fun _ h =>
          ⟨Nat.lt_of_le_of_lt h.start_le hlength, Nat.lt_of_le_of_lt h.stop_le hlength⟩
    · exact .leaf trivial ⟨by decide, by decide⟩

end Source

end DeadSymbols
