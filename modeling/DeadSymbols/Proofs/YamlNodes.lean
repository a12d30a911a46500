import Mathlib
import DeadSymbols.Proofs.YamlTokens
import DeadSymbols.Yaml.Node

/-!
# The nodes of a YAML text

In a text without the sign of a tag every node has the tag of its form: a plain scalar the one
that its text gives it, any other scalar that of a text, and a collection that of its kind.
`Node.FitsIn` says this of a node with all that is in it; where the sign of a tag stands in the
text, it says nothing.

The nodes of a document are read from its tokens by functions that call each other, so the
main induction is on the fuel that they share.  What they have in common is that the tokens
before them and the nodes with a name fit in the text.

## Main results

* `Read.readersAt` — what reading a node, or what is in one, can do.
* `Node.fitsIn_of_ofString`, `Node.endsScan_of_ofString` — the root of a text, or the fault for
  which it has none.
-/

open Std.Do

set_option mvcgen.warning false

namespace DeadSymbols.Yaml

/-- A node that can come from a text: unless a tag may stand in the text, the node and all nodes
in it have the tags that their forms give them. -/
inductive Node.FitsIn (cs : List Char) : Node → Prop
  | tagged {n : Node} (h : '!' ∈ cs) : FitsIn cs n
  | plain {text : String} (h : text.toList.getLast? ≠ some '\n') :
      FitsIn cs (.scalar (implicitTag text) text)
  | quoted {text : String} : FitsIn cs (.scalar .str text)
  | sequence {items : List Node} (h : ∀ n ∈ items, FitsIn cs n) : FitsIn cs (.sequence .seq items)
  | mapping {entries : List (Node × Node)} (hkeys : ∀ e ∈ entries, FitsIn cs e.1)
      (hvalues : ∀ e ∈ entries, FitsIn cs e.2) : FitsIn cs (.mapping .map entries)

theorem Node.fitsIn_empty {cs : List Char} : Node.empty.FitsIn cs :=
  show (Node.scalar (implicitTag "") "").FitsIn cs from .plain (by decide)

/-- What is known while a text is read. -/
structure Reading.Follows (cs : List Char) (r : Reading) : Prop where
  tokens : ∀ t ∈ r.tokens, t.FitsIn cs
  fault : EndsScan cs r.fault
  anchors : ∀ a ∈ r.anchors, a.2.FitsIn cs

/-- A step goes on with the reading, with a value of which something holds, or it ends it with a
fault with which a scan can end. -/
abbrev readsOn {α : Type} (cs : List Char) (Q : α → Prop) :
    PostCond α (.arg Reading (.except YamlFault .pure)) :=
  post⟨fun a r => ⌜r.Follows cs ∧ Q a⌝, fun fault => ⌜EndsScan cs fault⌝⟩

namespace Read

variable {cs : List Char}

@[grind =] theorem follows_iff {r : Reading} : r.Follows cs ↔ (∀ t ∈ r.tokens, t.FitsIn cs) ∧
    EndsScan cs r.fault ∧ ∀ a ∈ r.anchors, a.2.FitsIn cs :=
  ⟨fun h => ⟨h.1, h.2, h.3⟩, fun h => ⟨h.1, h.2.1, h.2.2⟩⟩

@[grind →] theorem fitsIn_of_lookup {r : Reading} {name : String} {n : Node}
    (h : r.Follows cs) (hn : r.anchors.lookup name = some n) : n.FitsIn cs := by
  obtain ⟨before, after, hsplit, -⟩ := List.lookup_eq_some_iff.mp hn
  exact h.anchors (name, n) (by rw [hsplit]; simp)

/-- What stands before a node: a tag only if its sign stands in the text. -/
@[grind] def Properties.FitsIn (cs : List Char) (p : Properties) : Prop :=
  p.tag = none ∨ '!' ∈ cs

namespace Properties.FitsIn

variable {p : Properties}

theorem sequence {items : List Node} (hp : p.FitsIn cs) (h : ∀ n ∈ items, n.FitsIn cs) :
    (Node.sequence (p.tag?.getD .seq) items).FitsIn cs := by
  rcases hp with hp | hsign
  · rw [tag?, hp]
    exact .sequence h
  · exact .tagged hsign

theorem mapping {entries : List (Node × Node)} (hp : p.FitsIn cs)
    (h : ∀ e ∈ entries, e.1.FitsIn cs ∧ e.2.FitsIn cs) :
    (Node.mapping (p.tag?.getD .map) entries).FitsIn cs := by
  rcases hp with hp | hsign
  · rw [tag?, hp]
    exact .mapping (fun e he => (h e he).1) fun e he => (h e he).2
  · exact .tagged hsign

/-- A scalar has the tag that its text gives it, if it is plain, and that of a text otherwise. -/
theorem scalar {text : String} {plain : Bool} (hp : p.FitsIn cs)
    (ht : (Token.scalar text plain).FitsIn cs) :
    (Node.scalar (p.scalarTag text plain) text).FitsIn cs := by
  rcases hp with hp | hsign
  · rw [scalarTag, tag?, hp]
    cases plain with
    | true => exact .plain (ht.2 text rfl)
    | false => exact .quoted
  · exact .tagged hsign

end Properties.FitsIn

/-! ## Steps -/

@[spec] theorem fail_spec {α : Type}
    {Q : PostCond α (.arg Reading (.except YamlFault .pure))} :
    ⦃fun _ => Q.2.1 .malformed⦄ (fail : Read α) ⦃Q⦄ := by
  intro r h
  exact h

theorem throw_spec {α : Type} {fault : YamlFault}
    {Q : PostCond α (.arg Reading (.except YamlFault .pure))} :
    ⦃fun _ => Q.2.1 fault⦄ (throw fault : Read α) ⦃Q⦄ := by
  intro r h
  exact h

@[spec] theorem peek_spec :
    ⦃fun r => ⌜r.Follows cs⌝⦄ peek ⦃readsOn cs (Token.FitsIn cs)⦄ := by
  mvcgen [peek, -Spec.throw_MonadExcept, throw_spec] with grind

@[spec] theorem skip_spec :
    ⦃fun r => ⌜r.Follows cs⌝⦄ skip ⦃readsOn cs fun _ => True⦄ := by
  mvcgen [skip] with grind [List.mem_of_mem_tail]

@[spec] theorem next_spec (ts : List Token) :
    ⦃fun r => ⌜r.Follows cs⌝⦄ next ts ⦃readsOn cs fun _ => True⦄ := by
  mvcgen [next] with grind

@[spec] theorem tagName_spec (handle : Option String) (name : String) :
    ⦃fun r => ⌜r.Follows cs⌝⦄ tagName handle name ⦃readsOn cs fun _ => True⦄ := by
  mvcgen [tagName] with grind

@[spec] theorem properties_spec :
    ⦃fun r => ⌜r.Follows cs⌝⦄ properties ⦃readsOn cs (Properties.FitsIn cs)⦄ := by
  mvcgen [properties] with grind

@[spec] theorem declare_spec (p : Properties) {n : Node} (hn : n.FitsIn cs) :
    ⦃fun r => ⌜r.Follows cs⌝⦄ declare p n ⦃readsOn cs fun _ => True⦄ := by
  mvcgen [declare] with grind

@[spec] theorem complete_spec (p : Properties) {n : Node} (hn : n.FitsIn cs) :
    ⦃fun r => ⌜r.Follows cs⌝⦄ complete p n ⦃readsOn cs (Node.FitsIn cs)⦄ := by
  mvcgen [complete] with grind

theorem sequenceOf_spec {p : Properties} {items : Read (List Node)} (hp : p.FitsIn cs)
    (hitems : ⦃fun r => ⌜r.Follows cs⌝⦄ items ⦃readsOn cs fun ns => ∀ n ∈ ns, n.FitsIn cs⦄) :
    ⦃fun r => ⌜r.Follows cs⌝⦄ sequenceOf p items ⦃readsOn cs (Node.FitsIn cs)⦄ := by
  mvcgen [sequenceOf, hitems] with grind [hp.sequence]

theorem mappingOf_spec {p : Properties} {entries : Read (List (Node × Node))}
    (hp : p.FitsIn cs)
    (hentries : ⦃fun r => ⌜r.Follows cs⌝⦄ entries
      ⦃readsOn cs fun es => ∀ e ∈ es, e.1.FitsIn cs ∧ e.2.FitsIn cs⦄) :
    ⦃fun r => ⌜r.Follows cs⌝⦄ mappingOf p entries ⦃readsOn cs (Node.FitsIn cs)⦄ := by
  mvcgen [mappingOf, hentries] with grind [hp.mapping]

theorem scalarOf_spec {p : Properties} {text : String} {plain : Bool} (hp : p.FitsIn cs)
    (ht : (Token.scalar text plain).FitsIn cs) :
    ⦃fun r => ⌜r.Follows cs⌝⦄ scalarOf p text plain ⦃readsOn cs (Node.FitsIn cs)⦄ := by
  have hn := hp.scalar ht
  mvcgen [scalarOf]
  exact ⟨by assumption, hn⟩

theorem unlessNext_spec (ts : List Token) {n : Read Node}
    (hn : ⦃fun r => ⌜r.Follows cs⌝⦄ n ⦃readsOn cs (Node.FitsIn cs)⦄) :
    ⦃fun r => ⌜r.Follows cs⌝⦄ unlessNext ts n ⦃readsOn cs (Node.FitsIn cs)⦄ := by
  mvcgen [unlessNext, hn] with grind [Node.fitsIn_empty]

theorem valueUnlessNext_spec (ts : List Token) {n : Read Node}
    (hn : ⦃fun r => ⌜r.Follows cs⌝⦄ n ⦃readsOn cs (Node.FitsIn cs)⦄) :
    ⦃fun r => ⌜r.Follows cs⌝⦄ valueUnlessNext ts n ⦃readsOn cs (Node.FitsIn cs)⦄ := by
  mvcgen [valueUnlessNext, unlessNext_spec, hn] with grind [Node.fitsIn_empty]

/-! ## Nodes and what is in them -/

/-- With this fuel nodes and the content of collections are read as they should be. -/
structure ReadersAt (cs : List Char) (fuel : Nat) : Prop where
  node : ∀ block flush,
    ⦃fun r => ⌜r.Follows cs⌝⦄ node fuel block flush ⦃readsOn cs (Node.FitsIn cs)⦄
  blockSequence :
    ⦃fun r => ⌜r.Follows cs⌝⦄ blockSequence fuel ⦃readsOn cs fun ns => ∀ n ∈ ns, n.FitsIn cs⦄
  flushSequence :
    ⦃fun r => ⌜r.Follows cs⌝⦄ flushSequence fuel ⦃readsOn cs fun ns => ∀ n ∈ ns, n.FitsIn cs⦄
  blockMapping :
    ⦃fun r => ⌜r.Follows cs⌝⦄ blockMapping fuel
    ⦃readsOn cs fun es => ∀ e ∈ es, e.1.FitsIn cs ∧ e.2.FitsIn cs⦄
  flowSequence : ∀ first,
    ⦃fun r => ⌜r.Follows cs⌝⦄ flowSequence fuel first
    ⦃readsOn cs fun ns => ∀ n ∈ ns, n.FitsIn cs⦄
  flowMapping : ∀ first,
    ⦃fun r => ⌜r.Follows cs⌝⦄ flowMapping fuel first
    ⦃readsOn cs fun es => ∀ e ∈ es, e.1.FitsIn cs ∧ e.2.FitsIn cs⦄

theorem readersAt_zero : ReadersAt cs 0 := by
  constructor
  · intro block flush
    mvcgen [node] with grind
  · mvcgen [blockSequence] with grind
  · mvcgen [flushSequence] with grind
  · mvcgen [blockMapping] with grind
  · intro first
    mvcgen [flowSequence] with grind
  · intro first
    mvcgen [flowMapping] with grind

theorem fitsIn_emptyScalar : (Token.scalar "" true).FitsIn cs := by
  simp [Token.FitsIn]

theorem node_spec {fuel : Nat} (h : ReadersAt cs fuel) (block flush : Bool) :
    ⦃fun r => ⌜r.Follows cs⌝⦄ node (fuel + 1) block flush ⦃readsOn cs (Node.FitsIn cs)⦄ := by
  obtain ⟨-, hblock, hflush, hblockEntries, hflow, hflowEntries⟩ := h
  have hfirst := hflow true
  have hfirstEntry := hflowEntries true
  mvcgen [node, sequenceOf_spec, mappingOf_spec, scalarOf_spec] with first
    | assumption
    | exact And.left ‹_ ∧ _›
    | exact endsScan_malformed
    -- A node that has properties only is an empty scalar.
    | exact fun _ _ _ => fitsIn_emptyScalar
    | grind

theorem blockSequence_spec {fuel : Nat} (h : ReadersAt cs fuel) :
    ⦃fun r => ⌜r.Follows cs⌝⦄ blockSequence (fuel + 1)
    ⦃readsOn cs fun ns => ∀ n ∈ ns, n.FitsIn cs⦄ := by
  have hnode := h.node
  have hitems := h.blockSequence
  mvcgen [blockSequence, unlessNext_spec, hnode, hitems] with first
    | assumption
    | exact And.left ‹_ ∧ _›
    | exact endsScan_malformed
    | grind

theorem flushSequence_spec {fuel : Nat} (h : ReadersAt cs fuel) :
    ⦃fun r => ⌜r.Follows cs⌝⦄ flushSequence (fuel + 1)
    ⦃readsOn cs fun ns => ∀ n ∈ ns, n.FitsIn cs⦄ := by
  have hnode := h.node
  have hitems := h.flushSequence
  mvcgen [flushSequence, unlessNext_spec, hnode, hitems] with first
    | assumption
    | exact And.left ‹_ ∧ _›
    | grind

theorem blockMapping_spec {fuel : Nat} (h : ReadersAt cs fuel) :
    ⦃fun r => ⌜r.Follows cs⌝⦄ blockMapping (fuel + 1)
    ⦃readsOn cs fun es => ∀ e ∈ es, e.1.FitsIn cs ∧ e.2.FitsIn cs⦄ := by
  have hnode := h.node
  have hentries := h.blockMapping
  mvcgen [blockMapping, unlessNext_spec, valueUnlessNext_spec, hnode, hentries] with first
    | assumption
    | exact And.left ‹_ ∧ _›
    | exact endsScan_malformed
    | grind

theorem flowSequence_spec {fuel : Nat} (h : ReadersAt cs fuel) (first : Bool) :
    ⦃fun r => ⌜r.Follows cs⌝⦄ flowSequence (fuel + 1) first
    ⦃readsOn cs fun ns => ∀ n ∈ ns, n.FitsIn cs⦄ := by
  have hnode := h.node
  have hitems := h.flowSequence
  mvcgen [flowSequence, unlessNext_spec, valueUnlessNext_spec, hnode, hitems] with first
    | assumption
    | exact And.left ‹_ ∧ _›
    | exact endsScan_malformed
    | grind [Node.FitsIn.mapping]

theorem flowMapping_spec {fuel : Nat} (h : ReadersAt cs fuel) (first : Bool) :
    ⦃fun r => ⌜r.Follows cs⌝⦄ flowMapping (fuel + 1) first
    ⦃readsOn cs fun es => ∀ e ∈ es, e.1.FitsIn cs ∧ e.2.FitsIn cs⦄ := by
  have hnode := h.node
  have hentries := h.flowMapping
  mvcgen [flowMapping, unlessNext_spec, valueUnlessNext_spec, hnode, hentries] with first
    | assumption
    | exact And.left ‹_ ∧ _›
    | exact endsScan_malformed
    | grind [Node.fitsIn_empty]

theorem readersAt_succ {fuel : Nat} (h : ReadersAt cs fuel) : ReadersAt cs (fuel + 1) :=
  ⟨node_spec h, blockSequence_spec h, flushSequence_spec h, blockMapping_spec h,
    flowSequence_spec h, flowMapping_spec h⟩

/-- The induction on the fuel that the readers share. -/
theorem readersAt (cs : List Char) (fuel : Nat) : ReadersAt cs fuel := by
  induction fuel with
  | zero => exact readersAt_zero
  | succ fuel ih => exact readersAt_succ ih

/-! ## Documents -/

@[spec] theorem directives_spec (fuel : Nat) (versioned : Bool)
    (handles : List (String × String)) :
    ⦃fun r => ⌜r.Follows cs⌝⦄ directives fuel versioned handles ⦃readsOn cs fun _ => True⦄ := by
  induction fuel generalizing versioned handles with
  | zero =>
    mvcgen [directives]
    exact endsScan_malformed
  | succ fuel ih => mvcgen [directives, ih] with grind

@[spec] theorem skipEnds_spec (fuel : Nat) :
    ⦃fun r => ⌜r.Follows cs⌝⦄ skipEnds fuel ⦃readsOn cs fun _ => True⦄ := by
  induction fuel with
  | zero => mvcgen [skipEnds]
  | succ fuel ih => mvcgen [skipEnds, ih] with grind

@[spec] theorem atBoundary_spec :
    ⦃fun r => ⌜r.Follows cs⌝⦄ atBoundary ⦃readsOn cs fun _ => True⦄ := by
  mvcgen [atBoundary] with grind

theorem root_spec (fuel : Nat) :
    ⦃fun r => ⌜r.Follows cs⌝⦄ root fuel
    ⦃readsOn cs fun found => ∀ n, found = some n → n.FitsIn cs⦄ := by
  have hnode := (readersAt cs fuel).node
  mvcgen [root, hnode] with first
    | assumption
    | exact And.left ‹_ ∧ _›
    | exact endsScan_malformed
    | grind [Node.fitsIn_empty]

end Read

/-- What is known before the first token of a text is read. -/
def Read.start (text : String) : Reading :=
  ⟨(tokens text).1, (tokens text).2.getD .malformed, [], Read.defaultHandles⟩

theorem Read.follows_start (text : String) : (start text).Follows text.toList := by
  have htokens := tokens_spec text
  refine ⟨htokens.1, ?_, fun a ha => absurd ha List.not_mem_nil⟩
  show EndsScan text.toList ((tokens text).2.getD .malformed)
  cases hfault : (tokens text).2 with
  | none => exact endsScan_malformed
  | some fault => exact htokens.2 fault hfault

theorem Node.ofString_eq (text : String) : Node.ofString text =
    ((Read.root (3 * (tokens text).1.length + 3)).run (Read.start text)).map (·.1) :=
  rfl

/-- The root of a text fits in it. -/
theorem Node.fitsIn_of_ofString {text : String} {root : Node}
    (h : Node.ofString text = .ok (some root)) : root.FitsIn text.toList := by
  rw [ofString_eq] at h
  cases hrun : (Read.root (3 * (tokens text).1.length + 3)).run (Read.start text) with
  | error fault =>
      rw [hrun] at h
      cases h
  | ok result =>
      rw [hrun] at h
      have hroot := of_run_eq_ok (Read.root_spec _) (Read.follows_start text) hrun
      exact hroot.2 root (Except.ok.inj h)

/-- A text has no root only for a reason with which a scan can end. -/
theorem Node.endsScan_of_ofString {text : String} {fault : YamlFault}
    (h : Node.ofString text = .error fault) :
    EndsScan text.toList fault := by
  rw [ofString_eq] at h
  cases hrun : (Read.root (3 * (tokens text).1.length + 3)).run (Read.start text) with
  | error e =>
      rw [hrun] at h
      cases h
      exact of_run_eq_error (Read.root_spec _) (Read.follows_start text) hrun
  | ok result =>
      rw [hrun] at h
      cases h

end DeadSymbols.Yaml
