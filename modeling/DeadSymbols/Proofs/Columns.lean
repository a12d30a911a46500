import Mathlib
import DeadSymbols.Proofs.RegionSearch
import DeadSymbols.Proofs.Utf8

/-!
# Columns keep their order

A source counts columns in bytes, a region in characters.  A column is turned into the
number of characters that the lossy reader finds in the bytes before it, and these may
stop anywhere: inside a character, or among bytes that are none.

The reader cuts bytes into stretches, each read as one character.  A prefix is cut at
the same places, except that its last stretch may be shorter, so a column that moves
forward passes at least none and at most one character for each byte.  Where the bytes
are a text and the column stands between two of its characters, the count is exact.

From this no region is inverted: not that of an extent that runs forward, not that of a
function that is a macro, and in a source with short lines none that is collected, so
that the regions always make a set.

## Main results

* `Source.charsBefore_of_strictText` — columns between characters of a text.
* `Region.entryRegion?_forward` — functions that are macros.
* `Region.columns_keep_order` — columns, the regions made from them and their sets.
-/

namespace DeadSymbols

namespace Source

/-- Between two characters of a text, a column counts the characters before it. -/
theorem charsBefore_of_strictText {line : Text.Bytes} {before after : String}
    (h : Text.strictText line = .ok (before ++ after)) :
    charsBefore line (Text.toBytes before).length = before.length := by
  rw [Text.strictText_eq_ok_iff, Text.toBytes_append] at h
  rw [charsBefore, h, List.take_left, Text.lossyChars_toBytes, String.length_toList]

end Source

namespace Region

open Source (Node Place charsBefore)

/-- A region that spans others runs forward as soon as one of them does. -/
theorem Spans.forward {r a : Region} {P : Region → Prop} (h : r.Spans P) (ha : P a)
    (hforward : a.start.pair ≤ a.stop.pair) : r.start.pair ≤ r.stop.pair :=
  (h.start_le a ha).trans (hforward.trans (h.le_stop a ha))

/-- An extent that runs forward makes a region that does. -/
theorem region_forward (lines : List Text.Bytes) {e : Extent} (h : e.Forward) :
    (Source.region lines e).start.pair ≤ (Source.region lines e).stop.pair :=
  (Position.le_iff_pair_le _ _).1 (Source.position_mono lines h)

/-- The region of a function at a place runs forward if the attributes before it do. -/
theorem entryAt?_forward {lines : List Text.Bytes} {p : Place} {r : Region}
    (hburied : p.isBuried = false) (hbefore : ∀ n, Place.Leads n p → n.extent.Forward)
    (h : entryAt? lines p = some r) : r.start.pair ≤ r.stop.pair := by
  obtain ⟨hentry, hnone⟩ := @entryAt?_spec lines p hburied
  by_cases hpoint : p.IsEntryPoint
  · obtain ⟨r', hr', hspans⟩ := hentry hpoint
    obtain rfl : r' = r := Option.some.inj (hr'.symm.trans h)
    obtain ⟨n, _, hleads, _⟩ := hpoint.marked
    exact hspans.forward ⟨n.extent, .inl ⟨n, hleads, rfl⟩, rfl⟩
      (region_forward lines (hbefore n hleads))
  · rw [hnone hpoint] at h
    contradiction

/-- The region of a function that is a macro runs forward if its attributes do. -/
theorem entryRegion?_forward {lines : List Text.Bytes} {before : List Node}
    {returnType : Option Extent} {r : Region}
    (hbefore : ∀ n ∈ leadingAttributes before, n.extent.Forward)
    (h : entryRegion? lines before returnType = some r) : r.start.pair ≤ r.stop.pair := by
  -- What else is known of the place of the function, its extent and its parts, is not read.
  refine entryAt?_forward (p := ⟨.mk (.function "" returnType) ⟨⟨0, 0⟩, ⟨0, 0⟩⟩ [], [], before⟩)
    rfl ?_ h
  intro n hleads
  exact hbefore n ((mem_leadingAttributes_iff n _).2 hleads)

/-- Columns keep their order.  On every line, of a text or not, a column that moves
forward passes at least none and at most one character for each byte, and between two
characters of a text it counts the characters before it.  So the region of an extent that
runs forward runs forward, and so does that of a function that is a macro.  If lines are
shorter than 2 ^ 32 bytes, the regions of every tree whose extents run forward make a
set, and so do those of the outline of every source. -/
theorem columns_keep_order :
    (∀ (line : Text.Bytes) (c c' : Nat), c ≤ c' →
      charsBefore line c ≤ charsBefore line c' ∧
        charsBefore line c' ≤ charsBefore line c + (c' - c)) ∧
    (∀ (line : Text.Bytes) (before after : String),
      Text.strictText line = .ok (before ++ after) →
        charsBefore line (Text.toBytes before).length = before.length) ∧
    (∀ (lines : List Text.Bytes) (e : Extent), e.start.le e.stop = true →
      (Source.region lines e).start.pair ≤ (Source.region lines e).stop.pair) ∧
    (∀ (lines : List Text.Bytes) (before : List Node) (returnType : Option Extent)
      (r : Region), (∀ n ∈ leadingAttributes before, n.extent.start.le n.extent.stop = true) →
        entryRegion? lines before returnType = some r → r.start.pair ≤ r.stop.pair) ∧
    ∀ source : Text.Bytes, (∀ line ∈ Source.lines source, line.length < 2 ^ 32) →
      (∀ tree : Node, tree.Forward →
        ∃ set, RegionSet.ofList? (collect source tree) = some set) ∧
      ∃ set, RegionSet.ofList? (ofSource Source.outline source) = some set := by
  refine ⟨?_, ?_, ?_, ?_, ?_⟩
  · intro line c c' h
    exact ⟨Source.charsBefore_mono line h, Source.charsBefore_le_add line h⟩
  · intro line before after h
    exact Source.charsBefore_of_strictText h
  · intro lines e h
    exact region_forward lines h
  · intro lines before returnType r hbefore h
    exact entryRegion?_forward hbefore h
  · intro source hlines
    have hset : ∀ tree : Node, tree.Forward →
        ∃ set, RegionSet.ofList? (collect source tree) = some set := fun tree htree =>
      exists_ofList?_of_upright
        (inOrder_upright (search_upright (htree.mono fun _ => upright_of_shortLines hlines)))
    exact ⟨hset, hset _ (Source.outline_forward source)⟩

/-- An attribute and a macro call on one line.  The name of the macro is a character of
two bytes with two bytes after it that begin a character and do not end it. -/
def brokenSource : Text.Bytes :=
  Text.toBytes "#[proc_macro] é" ++ [0xe2, 0x82] ++ Text.toBytes "!()"

/-- The attribute. -/
def brokenAttribute : Node := .mk (.attribute "proc_macro") ⟨⟨0, 0⟩, ⟨0, 13⟩⟩ []

/-- The attribute and the call. -/
def brokenTree : Node :=
  .mk .other ⟨⟨0, 0⟩, ⟨0, 21⟩⟩ [brokenAttribute, .mk .macroCall ⟨⟨0, 14⟩, ⟨0, 21⟩⟩ []]

/-- A column inside the first character, one inside the bytes that are none, and one
behind the text before them. -/
theorem columns_keep_order_brokenSource :
    (charsBefore brokenSource 15 ≤ charsBefore brokenSource 17 ∧
      charsBefore brokenSource 17 ≤ charsBefore brokenSource 15 + 2) ∧
    charsBefore (Text.toBytes ("é" ++ "!()")) 2 = 1 ∧
    (Source.region [brokenSource] ⟨⟨0, 15⟩, ⟨0, 17⟩⟩).start.pair ≤
      (Source.region [brokenSource] ⟨⟨0, 15⟩, ⟨0, 17⟩⟩).stop.pair ∧
    (∃ r, entryRegion? [brokenSource] [brokenAttribute] none = some r ∧
      r.start.pair ≤ r.stop.pair) ∧
    (∀ line ∈ Source.lines brokenSource, line.length < 2 ^ 32) ∧
    brokenTree.Forward ∧
    (∃ set, RegionSet.ofList? (collect brokenSource brokenTree) = some set) ∧
    ∃ set, RegionSet.ofList? (ofSource Source.outline brokenSource) = some set := by
  obtain ⟨hcolumns, htext, hextent, hentry, hsource⟩ := columns_keep_order
  have hattribute : brokenAttribute.extent.start.le brokenAttribute.extent.stop = true := by
    decide
  have hlines : ∀ line ∈ Source.lines brokenSource, line.length < 2 ^ 32 := by
    decide +kernel
  have hforward : brokenTree.Forward := by
    simp [brokenTree, brokenAttribute, Node.all_mk_iff, Source.NodeKind.All,
      Extent.Forward, Point.le_iff]
  obtain ⟨htree, hset⟩ := hsource brokenSource hlines
  refine ⟨hcolumns brokenSource 15 17 (by decide), ?_, hextent _ _ (by decide), ?_, hlines,
    hforward, htree brokenTree hforward, hset⟩
  · exact htext _ "é" "!()" (Text.strictText_eq_ok_iff.2 rfl)
  · exact ⟨_, rfl, hentry [brokenSource] [brokenAttribute] none _
      (by simpa [leadingAttributes, brokenAttribute, Node.kind] using hattribute) rfl⟩

end Region

end DeadSymbols
