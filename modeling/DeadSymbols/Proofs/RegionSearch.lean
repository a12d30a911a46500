import Mathlib
import DeadSymbols.Proofs.Containment

/-!
# What the search for regions finds

The search goes down a tree and stops at macros and attributes.  Here what it finds is
described without a search, by the list of all nodes of the tree, each with the nodes it
is part of and its siblings before it (`Source.Node.places`): the extents of the macros
and attributes that are part of no other, and one region for each function that is a
macro and is part of none.

A walk with a stack of nodes still to be visited (`Region.Walk`) ends after as many
steps as it visits nodes and finds the same in the same order.

Stopping early loses nothing.  A macro or attribute inside another lies within an outer
one, and so do their regions and the keys of these; a span that the inner one holds is
held by the outer one.

## Main results

* `Region.Walk.iterate_step` — a walk ends with what the search finds.
* `Region.search_perm` — the nodes that contribute, and what they contribute.
* `Source.Node.exists_outer` — a muting node lies within an outer one.
* `Region.collection_exact` — the regions of every tree.
-/

namespace DeadSymbols

namespace Extent

/-- The first extent lies within the second. -/
structure Within (a b : Extent) : Prop where
  start_le : b.start.le a.start = true
  le_stop : a.stop.le b.stop = true

theorem within_iff (a b : Extent) :
    a.Within b ↔ b.start.le a.start = true ∧ a.stop.le b.stop = true :=
  ⟨fun h => ⟨h.start_le, h.le_stop⟩, fun h => ⟨h.1, h.2⟩⟩

theorem Within.refl (e : Extent) : e.Within e :=
  ⟨Point.le_refl e.start, Point.le_refl e.stop⟩

theorem Within.trans {a b c : Extent} (hab : a.Within b) (hbc : b.Within c) : a.Within c :=
  ⟨Point.le_trans hbc.start_le hab.start_le, Point.le_trans hab.le_stop hbc.le_stop⟩

end Extent

namespace Source

/-! ## Places in a tree -/

/-- A node of a tree, with the nodes it is part of and its siblings before it, nearest
first. -/
structure Place where
  node : Node
  above : List Node
  before : List Node

mutual

/-- The places of a node and of the nodes in it. -/
def Node.placesFrom (above before : List Node) : Node → List Place
  | .mk kind extent children =>
    ⟨.mk kind extent children, above, before⟩ ::
      Node.placesAmong (.mk kind extent children :: above) [] children

/-- The places of nodes that follow each other and of the nodes in them. -/
def Node.placesAmong (above before : List Node) : List Node → List Place
  | [] => []
  | n :: rest => Node.placesFrom above before n ++ Node.placesAmong above (n :: before) rest

end

/-- All places of a tree. -/
def Node.places (tree : Node) : List Place := tree.placesFrom [] []

/-- Whether the node is a macro or an attribute. -/
def Node.isMuting (n : Node) : Bool := n.kind.isMuting

namespace Place

/-- Whether the node is part of a macro or an attribute. -/
def isBuried (p : Place) : Bool := p.above.any Node.isMuting

/-- Whether the node is a macro or an attribute that is part of no other. -/
def isOuter (p : Place) : Bool := p.node.isMuting && !p.isBuried

/-- Whether the node is a macro or an attribute that is part of another. -/
def isSkipped (p : Place) : Bool := p.node.isMuting && p.isBuried

end Place

/-- The node is an attribute of what follows it. -/
def Node.IsAttribute (n : Node) : Prop := ∃ path, n.kind = .attribute path

namespace Place

/-- The node is an attribute before a place, with only attributes and comments between
the two. -/
def Leads (n : Node) (p : Place) : Prop :=
  n.IsAttribute ∧ ∃ near far, p.before = near ++ n :: far ∧
    ∀ m ∈ near, m.IsAttribute ∨ m.kind = .comment

/-- The place is that of a function that is a macro and is part of none. -/
structure IsEntryPoint (p : Place) : Prop where
  function : ∃ name returnType, p.node.kind = .function name returnType
  unburied : p.isBuried = false
  marked : ∃ n path, Leads n p ∧ n.kind = .attribute path ∧ path ∈ Region.entryPaths

/-- The extents from which the region of a function that is a macro is made: those of its
attributes and of its return type. -/
def EntryPart (p : Place) (e : Extent) : Prop :=
  (∃ n, Leads n p ∧ n.extent = e) ∨ ∃ name, p.node.kind = .function name (some e)

end Place

/-- Every node lies within the node it is a part of. -/
inductive Node.Nested : Node → Prop
  | mk {kind : NodeKind} {e : Extent} {children : List Node} :
      (∀ n ∈ children, n.extent.Within e) → (∀ n ∈ children, Node.Nested n) →
      Node.Nested (.mk kind e children)

theorem Node.nested_mk_iff {kind : NodeKind} {e : Extent} {children : List Node} :
    (Node.mk kind e children).Nested ↔
      (∀ n ∈ children, n.extent.Within e) ∧ ∀ n ∈ children, n.Nested :=
  ⟨fun ⟨hwithin, hnested⟩ => ⟨hwithin, hnested⟩, fun h => .mk h.1 h.2⟩

theorem Node.all_mk_iff {P : Extent → Prop} {kind : NodeKind} {e : Extent}
    {children : List Node} :
    (Node.mk kind e children).All P ↔ kind.All P ∧ P e ∧ ∀ n ∈ children, n.All P :=
  ⟨fun ⟨hkind, he, hchildren⟩ => ⟨hkind, he, hchildren⟩, fun h => .mk h.1 h.2.1 h.2.2⟩

section Tree

variable {above before : List Node}

-- Nodes at a place inside a node are part of all that the node is part of.
mutual

private theorem Node.above_subset (above before : List Node) :
    (n : Node) → ∀ p ∈ n.placesFrom above before, above ⊆ p.above
  | .mk kind e children => by
      intro p hp
      rw [Node.placesFrom] at hp
      rcases List.mem_cons.1 hp with rfl | hp
      · exact List.Subset.refl above
      · exact List.Subset.trans (List.subset_cons_self _ above)
          (Node.above_subset_among (.mk kind e children :: above) [] children p hp)

private theorem Node.above_subset_among (above before : List Node) :
    (ns : List Node) → ∀ p ∈ Node.placesAmong above before ns, above ⊆ p.above
  | [] => by simp [Node.placesAmong]
  | n :: rest => by
      intro p hp
      rw [Node.placesAmong] at hp
      rcases List.mem_append.1 hp with hp | hp
      · exact Node.above_subset above before n p hp
      · exact Node.above_subset_among above (n :: before) rest p hp

end

/-- Everything among the parts of a muting node is buried. -/
theorem Node.isBuried_of_mem_placesAmong {n : Node} (hn : n.isMuting = true)
    {ns : List Node} {p : Place} (hp : p ∈ Node.placesAmong (n :: above) before ns) :
    p.isBuried = true := by
  rw [Place.isBuried, List.any_eq_true]
  exact ⟨n, Node.above_subset_among _ _ ns p hp List.mem_cons_self, hn⟩

mutual

/-- What holds of a node and passes on to parts holds at all places in the node. -/
theorem Node.forall_placesFrom {P : Node → Prop}
    (hparts : ∀ kind e children, P (.mk kind e children) → ∀ n ∈ children, P n)
    (above before : List Node) :
    (n : Node) → P n → ∀ p ∈ n.placesFrom above before, P p.node
  | .mk kind e children, hn => by
      intro p hp
      rw [Node.placesFrom] at hp
      rcases List.mem_cons.1 hp with rfl | hp
      · exact hn
      · exact Node.forall_placesAmong hparts _ _ children (hparts kind e children hn) p hp

theorem Node.forall_placesAmong {P : Node → Prop}
    (hparts : ∀ kind e children, P (.mk kind e children) → ∀ n ∈ children, P n)
    (above before : List Node) :
    (ns : List Node) → (∀ n ∈ ns, P n) →
      ∀ p ∈ Node.placesAmong above before ns, P p.node
  | [], _ => by simp [Node.placesAmong]
  | n :: rest, hns => by
      intro p hp
      rw [Node.placesAmong] at hp
      rcases List.mem_append.1 hp with hp | hp
      · exact Node.forall_placesFrom hparts above before n (hns n List.mem_cons_self) p hp
      · exact Node.forall_placesAmong hparts above (n :: before) rest
          (fun m hm => hns m (List.mem_cons_of_mem n hm)) p hp

end

/-- What all extents of a tree have, the nodes at its places have. -/
theorem Node.All.places {P : Extent → Prop} {tree : Node} (h : tree.All P) :
    ∀ p ∈ tree.places, P p.node.extent := by
  intro p hp
  refine (Node.forall_placesFrom (P := Node.All P) ?_ [] [] tree h p hp).extent
  intro kind e children hall
  exact (Node.all_mk_iff.1 hall).2.2

/-- All places in a node lie within it. -/
theorem Node.Nested.within {n : Node} (h : n.Nested) :
    ∀ p ∈ n.placesFrom above before, p.node.extent.Within n.extent := by
  intro p hp
  have hboth := Node.forall_placesFrom
    (P := fun m => m.Nested ∧ m.extent.Within n.extent) ?_ above before n
    ⟨h, Extent.Within.refl _⟩ p hp
  · exact hboth.2
  · rintro kind e children ⟨⟨hwithin, hnested⟩, he⟩ m hm
    exact ⟨hnested m hm, (hwithin m hm).trans he⟩

mutual

/-- A muting node lies within an outer one, which may be itself. -/
theorem Node.exists_outerFrom (above before : List Node)
    (habove : above.any Node.isMuting = false) :
    (n : Node) → n.Nested → ∀ p ∈ n.placesFrom above before, p.node.isMuting = true →
      ∃ q ∈ n.placesFrom above before, q.isOuter = true ∧
        p.node.extent.Within q.node.extent
  | .mk kind e children, hnested => by
      intro p hp hmuting
      by_cases hn : (Node.mk kind e children).isMuting = true
      · -- The node itself is the outer one.
        refine ⟨⟨.mk kind e children, above, before⟩, ?_, ?_, hnested.within p hp⟩
        · rw [Node.placesFrom]
          exact List.mem_cons_self
        · simp [Place.isOuter, Place.isBuried, hn, habove]
      · rw [Node.placesFrom] at hp ⊢
        rcases List.mem_cons.1 hp with rfl | hp
        · exact absurd hmuting hn
        · obtain ⟨q, hq, houter⟩ := Node.exists_outerAmong (.mk kind e children :: above) []
            (by simpa [hn] using habove) children (Node.nested_mk_iff.1 hnested).2 p hp hmuting
          exact ⟨q, List.mem_cons_of_mem _ hq, houter⟩

theorem Node.exists_outerAmong (above before : List Node)
    (habove : above.any Node.isMuting = false) :
    (ns : List Node) → (∀ n ∈ ns, n.Nested) →
      ∀ p ∈ Node.placesAmong above before ns, p.node.isMuting = true →
        ∃ q ∈ Node.placesAmong above before ns, q.isOuter = true ∧
          p.node.extent.Within q.node.extent
  | [], _ => by simp [Node.placesAmong]
  | n :: rest, hns => by
      intro p hp hmuting
      rw [Node.placesAmong] at hp ⊢
      rcases List.mem_append.1 hp with hp | hp
      · obtain ⟨q, hq, houter⟩ := Node.exists_outerFrom above before habove n
          (hns n List.mem_cons_self) p hp hmuting
        exact ⟨q, List.mem_append_left _ hq, houter⟩
      · obtain ⟨q, hq, houter⟩ := Node.exists_outerAmong above (n :: before) habove rest
          (fun m hm => hns m (List.mem_cons_of_mem n hm)) p hp hmuting
        exact ⟨q, List.mem_append_right _ hq, houter⟩

end

/-- A muting node of a tree lies within an outer one. -/
theorem Node.exists_outer {tree : Node} (h : tree.Nested) {p : Place} (hp : p ∈ tree.places)
    (hmuting : p.node.isMuting = true) :
    ∃ q ∈ tree.places, q.isOuter = true ∧ p.node.extent.Within q.node.extent :=
  Node.exists_outerFrom [] [] rfl tree h p hp hmuting

end Tree

end Source

namespace Region

open Source (Node NodeKind Place)

variable {lines : List Text.Bytes}

/-! ## The walk with a stack -/

/-- A walk over a tree: the nodes still to be visited with their siblings before them,
and what was found. -/
structure Walk where
  stack : List (List Node × Node)
  found : List Found

namespace Walk

/-- Nodes that follow each other, each with its siblings before it. -/
def withBefore (before : List Node) : List Node → List (List Node × Node)
  | [] => []
  | n :: rest => (before, n) :: withBefore (n :: before) rest

/-- One step: the node on top of the stack is visited, and unless it is muting, its parts
are put on the stack, the last one on top. -/
def step (lines : List Text.Bytes) (w : Walk) : Walk :=
  match w.stack with
  | [] => w
  | (before, n) :: rest =>
    ⟨(if n.isMuting then [] else (withBefore [] n.children).reverse) ++ rest,
      w.found ++ ownRegions lines before n.kind n.extent⟩

-- Visiting a node with all that its visit puts on the stack takes it off the stack.
mutual

private theorem iterate_step_node (before : List Node) :
    (n : Node) → ∀ (rest : List (List Node × Node)) (found : List Found),
      ∃ count, (step lines)^[count] ⟨(before, n) :: rest, found⟩ =
        ⟨rest, found ++ inNode lines before n⟩
  | .mk kind e children => by
      intro rest found
      by_cases hn : kind.isMuting = true
      · refine ⟨1, ?_⟩
        simp [step, inNode, Node.isMuting, Node.kind, Node.extent, hn]
      · obtain ⟨count, hcount⟩ := iterate_step_nodes [] children rest
          (found ++ ownRegions lines before kind e)
        refine ⟨count + 1, ?_⟩
        rw [Function.iterate_succ_apply, inNode, if_neg hn, ← List.append_assoc, ← hcount]
        simp [step, Node.isMuting, Node.kind, Node.extent, Node.children, hn]

private theorem iterate_step_nodes (before : List Node) :
    (ns : List Node) → ∀ (rest : List (List Node × Node)) (found : List Found),
      ∃ count, (step lines)^[count] ⟨(withBefore before ns).reverse ++ rest, found⟩ =
        ⟨rest, found ++ inNodes lines before ns⟩
  | [] => by
      intro rest found
      exact ⟨0, by simp [withBefore, inNodes]⟩
  | n :: more => by
      intro rest found
      obtain ⟨count, hcount⟩ := iterate_step_nodes (n :: before) more ((before, n) :: rest)
        found
      obtain ⟨count', hcount'⟩ := iterate_step_node before n rest
        (found ++ inNodes lines (n :: before) more)
      refine ⟨count' + count, ?_⟩
      have hstack : (withBefore before (n :: more)).reverse ++ rest =
          (withBefore (n :: before) more).reverse ++ (before, n) :: rest := by
        simp [withBefore]
      rw [Function.iterate_add_apply, hstack, hcount, hcount', inNodes, List.append_assoc]

end

/-- A walk that starts at the root of a tree ends, and ends with what the search finds. -/
theorem iterate_step (source : Text.Bytes) (tree : Node) :
    ∃ count, (step (Source.lines source))^[count] ⟨[([], tree)], []⟩ =
      ⟨[], search source tree⟩ :=
  iterate_step_node [] tree [] []

end Walk

/-! ## The nodes that contribute -/

/-- What a place contributes itself. -/
def ownAt (lines : List Text.Bytes) (p : Place) : List Found :=
  ownRegions lines p.before p.node.kind p.node.extent

-- The search goes through the children backwards, so the order differs.
mutual

private theorem inNode_perm (above before : List Node)
    (habove : above.any Node.isMuting = false) :
    (n : Node) → (inNode lines before n).Perm
      (((n.placesFrom above before).filter fun p => !p.isBuried).flatMap (ownAt lines))
  | .mk kind e children => by
      rw [inNode, Node.placesFrom, List.filter_cons_of_pos (by simpa [Place.isBuried] using habove),
        List.flatMap_cons]
      apply List.Perm.append_left
      by_cases hn : kind.isMuting = true
      · have hnone : (Node.placesAmong (.mk kind e children :: above) [] children).filter
            (fun p => !p.isBuried) = [] := by
          rw [List.filter_eq_nil_iff]
          intro p hp
          simp [Node.isBuried_of_mem_placesAmong (n := .mk kind e children) hn hp]
        rw [if_pos hn, hnone]
        exact List.Perm.refl _
      · rw [if_neg hn]
        exact inNodes_perm (.mk kind e children :: above) []
          (by simpa [Node.isMuting, Node.kind, hn] using habove) children

private theorem inNodes_perm (above before : List Node)
    (habove : above.any Node.isMuting = false) :
    (ns : List Node) → (inNodes lines before ns).Perm
      (((Node.placesAmong above before ns).filter fun p => !p.isBuried).flatMap
        (ownAt lines))
  | [] => by simp [inNodes, Node.placesAmong]
  | n :: rest => by
      rw [inNodes, Node.placesAmong, List.filter_append, List.flatMap_append]
      exact List.perm_append_comm.trans
        ((inNode_perm above before habove n).append
          (inNodes_perm above (n :: before) habove rest))

end

/-- The search finds what the nodes that are not buried contribute. -/
theorem search_perm (source : Text.Bytes) (tree : Node) :
    (search source tree).Perm
      ((tree.places.filter fun p => !p.isBuried).flatMap (ownAt (Source.lines source))) :=
  inNode_perm [] [] rfl tree

/-! ## Functions that are macros -/

/-- The region goes from the earliest start to the latest stop of some regions. -/
structure Spans (r : Region) (P : Region → Prop) : Prop where
  start_mem : ∃ a, P a ∧ a.start = r.start
  start_le : ∀ a, P a → r.start.pair ≤ a.start.pair
  stop_mem : ∃ a, P a ∧ a.stop = r.stop
  le_stop : ∀ a, P a → a.stop.pair ≤ r.stop.pair

theorem Spans.refl (r : Region) : r.Spans (· = r) :=
  ⟨⟨r, rfl, rfl⟩, fun _ ha => ha ▸ le_rfl, ⟨r, rfl, rfl⟩, fun _ ha => ha ▸ le_rfl⟩

theorem Spans.congr {r : Region} {P Q : Region → Prop} (h : r.Spans P)
    (hPQ : ∀ a, P a ↔ Q a) : r.Spans Q := by
  have hPQ : P = Q := funext fun a => propext (hPQ a)
  exact hPQ ▸ h

private theorem earlier_spec (p q : Position) :
    (earlier p q = p ∨ earlier p q = q) ∧
      (earlier p q).pair ≤ p.pair ∧ (earlier p q).pair ≤ q.pair := by
  rw [earlier]
  split
  · next h => exact ⟨.inl rfl, le_rfl, (Position.le_iff_pair_le p q).1 h⟩
  · next h =>
      rw [Position.le_iff_pair_le, not_le] at h
      exact ⟨.inr rfl, h.le, le_rfl⟩

private theorem later_spec (p q : Position) :
    (later p q = p ∨ later p q = q) ∧
      p.pair ≤ (later p q).pair ∧ q.pair ≤ (later p q).pair := by
  rw [later]
  split
  · next h => exact ⟨.inr rfl, (Position.le_iff_pair_le p q).1 h, le_rfl⟩
  · next h =>
      rw [Position.le_iff_pair_le, not_le] at h
      exact ⟨.inl rfl, le_rfl, h.le⟩

/-- The hull with one more region. -/
theorem Spans.hull {r : Region} {P : Region → Prop} (h : r.Spans P) (b : Region) :
    (r.hull b).Spans fun a => P a ∨ a = b := by
  obtain ⟨hstart, hstartr, hstartb⟩ := earlier_spec r.start b.start
  obtain ⟨hstop, hstopr, hstopb⟩ := later_spec r.stop b.stop
  constructor
  · rcases hstart with hstart | hstart
    · obtain ⟨a, ha, hr⟩ := h.start_mem
      exact ⟨a, .inl ha, hr.trans hstart.symm⟩
    · exact ⟨b, .inr rfl, hstart.symm⟩
  · rintro a (ha | rfl)
    · exact hstartr.trans (h.start_le a ha)
    · exact hstartb
  · rcases hstop with hstop | hstop
    · obtain ⟨a, ha, hr⟩ := h.stop_mem
      exact ⟨a, .inl ha, hr.trans hstop.symm⟩
    · exact ⟨b, .inr rfl, hstop.symm⟩
  · rintro a (ha | rfl)
    · exact (h.le_stop a ha).trans hstopr
    · exact hstopb

theorem Spans.foldl_hull {r : Region} {P : Region → Prop} (h : r.Spans P)
    (bs : List Region) : (bs.foldl Region.hull r).Spans fun a => P a ∨ a ∈ bs := by
  induction bs generalizing r P with
  | nil => exact h.congr (by simp)
  | cons b bs ih => exact (ih (h.hull b)).congr (by simp [or_assoc])

private theorem leadingAttributes_of_attribute {b : Node} (h : b.IsAttribute)
    (rest : List Node) : leadingAttributes (b :: rest) = b :: leadingAttributes rest := by
  obtain ⟨path, h⟩ := h
  simp [leadingAttributes, h]

private theorem leadingAttributes_of_comment {b : Node} (h : b.kind = .comment)
    (rest : List Node) : leadingAttributes (b :: rest) = leadingAttributes rest := by
  simp [leadingAttributes, h]

private theorem leadingAttributes_of_neither {b : Node}
    (h : ¬(b.IsAttribute ∨ b.kind = .comment)) (rest : List Node) :
    leadingAttributes (b :: rest) = [] := by
  rw [not_or, Node.IsAttribute] at h
  cases hkind : b.kind <;> simp_all [leadingAttributes]

/-- The leading attributes are those from which only attributes and comments lead to the
place. -/
theorem mem_leadingAttributes_iff (n : Node) (p : Place) :
    n ∈ leadingAttributes p.before ↔ Place.Leads n p := by
  obtain ⟨node, above, before⟩ := p
  show n ∈ leadingAttributes before ↔ n.IsAttribute ∧ ∃ near far, before = near ++ n :: far ∧
    ∀ m ∈ near, m.IsAttribute ∨ m.kind = .comment
  induction before with
  | nil => simp [leadingAttributes]
  | cons b rest ih =>
      -- Either the node is the nearest sibling, or the nearest one stands between.
      have hsplit : (∃ near far, b :: rest = near ++ n :: far ∧
            ∀ m ∈ near, m.IsAttribute ∨ m.kind = .comment) ↔
          b = n ∨ (b.IsAttribute ∨ b.kind = .comment) ∧
            ∃ near far, rest = near ++ n :: far ∧
              ∀ m ∈ near, m.IsAttribute ∨ m.kind = .comment := by
        constructor
        · rintro ⟨near, far, heq, hnear⟩
          cases near with
          | nil => exact .inl (List.cons.inj heq).1
          | cons m near =>
              obtain ⟨rfl, hrest⟩ := List.cons.inj heq
              rw [List.forall_mem_cons] at hnear
              exact .inr ⟨hnear.1, near, far, hrest, hnear.2⟩
        · rintro (rfl | ⟨hb, near, far, rfl, hnear⟩)
          · exact ⟨[], rest, rfl, by simp⟩
          · exact ⟨b :: near, far, rfl, List.forall_mem_cons.2 ⟨hb, hnear⟩⟩
      rw [hsplit]
      by_cases hattribute : b.IsAttribute
      · rw [leadingAttributes_of_attribute hattribute, List.mem_cons, ih]
        constructor
        · rintro (rfl | ⟨hn, hrest⟩)
          · exact ⟨hattribute, .inl rfl⟩
          · exact ⟨hn, .inr ⟨.inl hattribute, hrest⟩⟩
        · rintro ⟨hn, rfl | ⟨_, hrest⟩⟩
          · exact .inl rfl
          · exact .inr ⟨hn, hrest⟩
      · have hne : n.IsAttribute → b ≠ n := fun hn h => hattribute (h ▸ hn)
        by_cases hcomment : b.kind = .comment
        · rw [leadingAttributes_of_comment hcomment, ih]
          refine and_congr_right fun hn => ?_
          simp [hne hn, hcomment]
        · rw [leadingAttributes_of_neither (by simp [hattribute, hcomment])]
          simp only [List.not_mem_nil, hattribute, hcomment, or_self, false_and, or_false,
            false_iff, not_and]
          exact hne

/-- The region of the function at a place, if it is a macro. -/
def entryAt? (lines : List Text.Bytes) (p : Place) : Option Region :=
  match p.node.kind with
  | .function _ returnType => entryRegion? lines p.before returnType
  | _ => none

private theorem any_isEntryAttribute_iff (p : Place) :
    (leadingAttributes p.before).any isEntryAttribute = true ↔
      ∃ n path, Place.Leads n p ∧ n.kind = .attribute path ∧ path ∈ entryPaths := by
  rw [List.any_eq_true]
  simp only [mem_leadingAttributes_iff]
  refine exists_congr fun n => ?_
  cases hkind : n.kind <;> simp [isEntryAttribute, hkind]

/-- A function that is a macro has the region of its attributes and its return type, and
no other node at which the search stops by has one. -/
theorem entryAt?_spec {p : Place} (hburied : p.isBuried = false) :
    (p.IsEntryPoint → ∃ r, entryAt? lines p = some r ∧
      r.Spans fun a => ∃ e, p.EntryPart e ∧ Source.region lines e = a) ∧
    (¬p.IsEntryPoint → entryAt? lines p = none) := by
  constructor
  · rintro ⟨⟨name, returnType, hkind⟩, -, hmarked⟩
    have hany := (any_isEntryAttribute_iff p).2 hmarked
    have hparts : ∀ a, a ∈ (leadingAttributes p.before).map
          (fun n => Source.region lines n.extent) ++
            (returnType.map (Source.region lines)).toList ↔
        ∃ e, p.EntryPart e ∧ Source.region lines e = a := by
      intro a
      simp only [List.mem_append, List.mem_map, mem_leadingAttributes_iff, Option.mem_toList,
        Option.map_eq_some_iff, Place.EntryPart, hkind, NodeKind.function.injEq]
      constructor
      · rintro (⟨n, hn, rfl⟩ | ⟨e, rfl, rfl⟩)
        · exact ⟨n.extent, .inl ⟨n, hn, rfl⟩, rfl⟩
        · exact ⟨e, .inr ⟨name, rfl, rfl⟩, rfl⟩
      · rintro ⟨e, ⟨n, hn, rfl⟩ | ⟨_, _, rfl⟩, rfl⟩
        · exact .inl ⟨n, hn, rfl⟩
        · exact .inr ⟨e, rfl, rfl⟩
    rw [entryAt?, hkind]
    show ∃ r, entryRegion? lines p.before returnType = some r ∧ _
    rw [entryRegion?, if_pos hany]
    generalize (leadingAttributes p.before).map (fun n => Source.region lines n.extent) ++
      (returnType.map (Source.region lines)).toList = parts at hparts
    cases parts with
    | nil =>
        obtain ⟨n, _, hn, _⟩ := hmarked
        have hmem := (hparts (Source.region lines n.extent)).2 ⟨n.extent, .inl ⟨n, hn, rfl⟩, rfl⟩
        contradiction
    | cons first rest =>
        refine ⟨_, rfl, ((Spans.refl first).foldl_hull rest).congr fun a => ?_⟩
        rw [← hparts a, List.mem_cons]
  · intro hno
    rw [entryAt?]
    split
    · next name returnType hkind =>
        rw [entryRegion?, if_neg]
        rw [any_isEntryAttribute_iff]
        exact fun hmarked => hno ⟨⟨name, returnType, hkind⟩, hburied, hmarked⟩
    · rfl

/-! ## The regions of a tree -/

/-- A function that is a macro is one by its attributes. -/
instance (p : Place) : Decidable p.IsEntryPoint :=
  decidable_of_iff ((p.node.kind matches .function _ _) ∧ p.isBuried = false ∧
    (leadingAttributes p.before).any isEntryAttribute = true) (by
      rw [any_isEntryAttribute_iff]
      constructor
      · rintro ⟨hfunction, hburied, hmarked⟩
        refine ⟨?_, hburied, hmarked⟩
        cases hkind : p.node.kind <;> simp_all
      · rintro ⟨⟨name, returnType, hkind⟩, hburied, hmarked⟩
        exact ⟨by rw [hkind], hburied, hmarked⟩)

theorem le_iff_ends_le (a b : Region) : a.le b = true ↔ a.ends ≤ b.ends := by
  have hcompare : compare a.ends b.ends = compare a b := rfl
  rw [le, ← hcompare, ← compare_le_iff_le, Ordering.isLE_iff_ne_gt]

/-- The regions of a tree are sorted by their ends. -/
theorem collect_sorted (source : Text.Bytes) (tree : Node) :
    (collect source tree).Pairwise fun a b => a.ends ≤ b.ends :=
  pairwise_mergeSort_of_key le_iff_ends_le _

/-- What a place contributes: its extent if it is muting, and its region if it is a
function that is a macro. -/
theorem map_region_ownAt (p : Place) :
    (ownAt lines p).map (·.region) =
      (if p.node.isMuting then [Source.region lines p.node.extent] else []) ++
        (entryAt? lines p).toList := by
  rw [ownAt, Node.isMuting, entryAt?]
  cases hkind : p.node.kind with
  | function name returnType =>
      cases hentry : entryRegion? lines p.before returnType <;>
        simp [ownRegions, NodeKind.isMuting, hentry]
  | _ => simp [ownRegions, NodeKind.isMuting]

/-- Each function that is a macro has its region, in the order of the tree. -/
theorem forall₂_entryAt? (ps : List Place) :
    List.Forall₂
      (fun p r => r.Spans fun a => ∃ e, Place.EntryPart p e ∧ Source.region lines e = a)
      (ps.filter fun p => p.IsEntryPoint)
      ((ps.filter fun p => !p.isBuried).filterMap (entryAt? lines)) := by
  induction ps with
  | nil => exact .nil
  | cons p ps ih =>
      by_cases hburied : p.isBuried = true
      · have hno : ¬p.IsEntryPoint := fun h => by simp [h.unburied] at hburied
        rw [List.filter_cons_of_neg (by simpa using hno),
          List.filter_cons_of_neg (by simpa using hburied)]
        exact ih
      · rw [Bool.not_eq_true] at hburied
        have hkept : ((p :: ps).filter fun q => !q.isBuried) =
            p :: ps.filter fun q => !q.isBuried := List.filter_cons_of_pos (by simpa using hburied)
        obtain ⟨hentry, hnone⟩ := @entryAt?_spec lines p hburied
        rw [hkept]
        by_cases hpoint : p.IsEntryPoint
        · obtain ⟨r, hr, hspans⟩ := hentry hpoint
          rw [List.filter_cons_of_pos (by simpa using hpoint), List.filterMap_cons_some hr]
          exact .cons hspans ih
        · rw [List.filter_cons_of_neg (by simpa using hpoint),
            List.filterMap_cons_none (hnone hpoint)]
          exact ih

/-- The regions of a tree are the extents of its outer macros and attributes and the
regions of its functions that are macros. -/
theorem collect_perm (source : Text.Bytes) (tree : Node) :
    (collect source tree).Perm
      ((tree.places.filter fun p => p.isOuter).map
          (fun p => Source.region (Source.lines source) p.node.extent) ++
        (tree.places.filter fun p => !p.isBuried).filterMap
          (entryAt? (Source.lines source))) := by
  have houter : ((tree.places.filter fun p => !p.isBuried).flatMap fun p =>
        if p.node.isMuting then [Source.region (Source.lines source) p.node.extent] else []) =
      (tree.places.filter fun p => p.isOuter).map
        fun p => Source.region (Source.lines source) p.node.extent := by
    have hfilter : (tree.places.filter fun p => p.isOuter) =
        (tree.places.filter fun p => !p.isBuried).filter fun p => p.node.isMuting := by
      rw [List.filter_filter]
      rfl
    rw [hfilter]
    generalize (tree.places.filter fun p => !p.isBuried) = ps
    induction ps with
    | nil => rfl
    | cons p ps ih =>
        rw [List.flatMap_cons, ih]
        by_cases hmuting : p.node.isMuting = true
        · simp [hmuting]
        · simp [hmuting]
  calc
    (collect source tree).Perm ((search source tree).map Found.region) :=
      List.mergeSort_perm _ _
    List.Perm _ (((tree.places.filter fun p => !p.isBuried).flatMap
        (ownAt (Source.lines source))).map Found.region) := (search_perm source tree).map _
    _ = (tree.places.filter fun p => !p.isBuried).flatMap fun p =>
          (if p.node.isMuting then [Source.region (Source.lines source) p.node.extent]
            else []) ++ (entryAt? (Source.lines source) p).toList := by
      rw [List.map_flatMap]
      simp only [map_region_ownAt]
    List.Perm _ _ := (List.flatMap_append_perm _ _ _).symm
    _ = _ := by
      rw [houter, List.filterMap_eq_flatMap_toList]

/-! ## Stopping early -/

/-- A region that another one lies within holds the spans that the other holds. -/
theorem Holds.of_within {a b : Region} (ha : a.Upright) (hb : b.Upright)
    (hstart : b.start.le a.start = true) (hstop : a.stop.le b.stop = true) {s : Span}
    (h : a.Holds s) : b.Holds s where
  start_le := ((Position.le_iff_pair_le _ _).1 hstart).trans h.start_le
  le_stop := h.le_stop.trans ((Position.le_iff_pair_le _ _).1 hstop)
  key_le := (Position.key_le_key hb.start_inStride ha.start_inStride hstart).trans h.key_le
  le_key := h.le_key.trans (Position.key_le_key ha.stop_inStride hb.stop_inStride hstop)

/-- What the search for regions collects.  A walk with a stack ends, and what it found
makes the regions of the tree once it is sorted.  They are the extents of the macros and
attributes that are part of no other, and one region for each function that is a macro
and is part of none, from the earliest start to the latest stop of its attributes and its
return type.  If extents run forward and lie within those of the nodes they are part of,
and lines are short, the macros and attributes that are left out hold no span that these
do not. -/
theorem collection_exact (source : Text.Bytes) (tree : Node) :
    (∃ count found,
      (Walk.step (Source.lines source))^[count] ⟨[([], tree)], []⟩ = ⟨[], found⟩ ∧
      collect source tree = inOrder found) ∧
    ((collect source tree).Pairwise fun a b => a.ends ≤ b.ends) ∧
    (∃ entries : List Region,
      (collect source tree).Perm
        ((tree.places.filter fun p => p.isOuter).map
          (fun p => Source.region (Source.lines source) p.node.extent) ++ entries) ∧
      List.Forall₂
        (fun p r => r.Spans fun a =>
          ∃ e, Place.EntryPart p e ∧ Source.region (Source.lines source) e = a)
        (tree.places.filter fun p => p.IsEntryPoint) entries) ∧
    (tree.Forward → tree.Nested → Source.ShortLines (Source.lines source) →
      ∃ set set', RegionSet.ofList? (collect source tree) = some set ∧
        RegionSet.ofList? (collect source tree ++ (tree.places.filter fun p => p.isSkipped).map
          fun p => Source.region (Source.lines source) p.node.extent) = some set' ∧
        ∀ s : Span,
          (set.containing s).isSome = true ↔ (set'.containing s).isSome = true) := by
  obtain ⟨count, hwalk⟩ := Walk.iterate_step source tree
  refine ⟨⟨count, _, hwalk, rfl⟩, collect_sorted source tree,
    ⟨_, collect_perm source tree, forall₂_entryAt? tree.places⟩, ?_⟩
  intro hforward hnested hlines
  have hcollected : ∀ r ∈ collect source tree, r.Upright :=
    inOrder_upright (search_upright (hforward.mono fun _ => upright_of_shortLines hlines))
  have hplaces : ∀ p ∈ tree.places,
      (Source.region (Source.lines source) p.node.extent).Upright :=
    fun p hp => upright_of_shortLines hlines (hforward.places p hp)
  obtain ⟨set, hset⟩ := exists_ofList?_of_upright hcollected
  have hextended : ∀ r ∈ collect source tree ++ (tree.places.filter fun p => p.isSkipped).map
      fun p => Source.region (Source.lines source) p.node.extent, r.Upright := by
    intro r hr
    rcases List.mem_append.1 hr with hr | hr
    · exact hcollected r hr
    · obtain ⟨p, hp, rfl⟩ := List.mem_map.1 hr
      exact hplaces p (List.mem_of_mem_filter hp)
  obtain ⟨set', hset'⟩ := exists_ofList?_of_upright hextended
  refine ⟨set, set', hset, hset', fun s => ?_⟩
  rw [RegionSet.isSome_containing_iff hset, RegionSet.isSome_containing_iff hset']
  constructor
  · rintro ⟨r, hr, hholds⟩
    exact ⟨r, List.mem_append_left _ hr, hholds⟩
  · rintro ⟨r, hr, hholds⟩
    rcases List.mem_append.1 hr with hr | hr
    · exact ⟨r, hr, hholds⟩
    · obtain ⟨p, hp, rfl⟩ := List.mem_map.1 hr
      obtain ⟨hp, hskipped⟩ := List.mem_filter.1 hp
      rw [Place.isSkipped, Bool.and_eq_true] at hskipped
      obtain ⟨q, hq, houter, hwithin⟩ := Node.exists_outer hnested hp hskipped.1
      refine ⟨Source.region (Source.lines source) q.node.extent, ?_, ?_⟩
      · rw [(collect_perm source tree).mem_iff, List.mem_append]
        exact .inl (List.mem_map.2 ⟨q, List.mem_filter.2 ⟨hq, houter⟩, rfl⟩)
      · exact hholds.of_within (hplaces p hp) (hplaces q hq)
          (Source.position_mono _ hwithin.start_le) (Source.position_mono _ hwithin.le_stop)

/-- Two attributes, a comment between them, and the function that they make a macro, with
a macro call inside a macro call in it. -/
def entrySource : Text.Bytes :=
  Text.toBytes "#[a]\n/**/\n#[proc_macro]\nfn f() -> T { g!(h!()) }"

/-- Its tree. -/
def entryTree : Node :=
  .mk .other ⟨⟨0, 0⟩, ⟨3, 24⟩⟩
    [.mk (.attribute "a") ⟨⟨0, 0⟩, ⟨0, 4⟩⟩ [],
     .mk .comment ⟨⟨1, 0⟩, ⟨1, 4⟩⟩ [],
     .mk (.attribute "proc_macro") ⟨⟨2, 0⟩, ⟨2, 13⟩⟩ [],
     .mk (.function "f" (some ⟨⟨3, 10⟩, ⟨3, 11⟩⟩)) ⟨⟨3, 0⟩, ⟨3, 24⟩⟩
       [.mk .macroCall ⟨⟨3, 14⟩, ⟨3, 22⟩⟩ [.mk .macroCall ⟨⟨3, 17⟩, ⟨3, 21⟩⟩ []]]]

theorem collection_exact_entryTree :
    entryTree.Forward ∧ entryTree.Nested ∧
      Source.ShortLines (Source.lines entrySource) ∧
      (entryTree.places.filter fun p => p.IsEntryPoint).length = 1 ∧
      (entryTree.places.filter fun p => p.isSkipped).length = 1 ∧
      ∃ set set', RegionSet.ofList? (collect entrySource entryTree) = some set ∧
        RegionSet.ofList? (collect entrySource entryTree ++
          (entryTree.places.filter fun p => p.isSkipped).map
            fun p => Source.region (Source.lines entrySource) p.node.extent) = some set' ∧
        ∀ s : Span,
          (set.containing s).isSome = true ↔ (set'.containing s).isSome = true := by
  have hforward : entryTree.Forward := by
    simp [entryTree, Node.all_mk_iff, NodeKind.All, Extent.Forward, Point.le_iff]
  have hnested : entryTree.Nested := by
    simp [entryTree, Node.nested_mk_iff, Extent.within_iff, Node.extent, Point.le_iff]
  have hlines : Source.ShortLines (Source.lines entrySource) := by
    unfold Source.ShortLines
    decide +kernel
  exact ⟨hforward, hnested, hlines, by decide, by decide,
    (collection_exact entrySource entryTree).2.2.2 hforward hnested hlines⟩

end Region

end DeadSymbols
