import Mathlib
import DeadSymbols.Proofs.Extents
import DeadSymbols.Region.Collect
import DeadSymbols.Region.Set

/-!
# Regions are not inverted

An extent that runs forward becomes a region whose start has no greater key than its
stop.  On one row this is because more bytes make no fewer characters, even where the
bytes stop inside a character (`Source.charsBefore_mono`).  On different rows it is
because the key leaves room for 2 ^ 32 columns, so it holds as long as lines are
shorter than that (`Source.ShortLines`) or as the columns of the extent are
(`Extent.Narrow`), since a column has no more characters before it than bytes.

## Main results

* `Position.key_le_key` — keys are in reading order between columns that they have room
  for.
* `Region.upright_of_shortLines`, `Region.upright_of_narrow` — regions of extents.
* `Region.search_upright`, `Region.exists_ofList?_search` — what is found in a tree makes
  a set.
-/

namespace DeadSymbols

namespace Text

/-! ## Characters of a prefix -/

/-- The number of bytes that a step takes beyond the first. -/
def Utf8Step.extra : Utf8Step → Nat
  | .char _ extra => extra
  | .fault _ extra => extra

/-- The tests that bytes pass, one after the other, to make a character with a first
byte. -/
def followers (first : UInt8) : List (UInt8 → Bool) :=
  if first < 0x80 then []
  else if first < 0xc2 then []
  else if first < 0xe0 then [isContinuation]
  else if first < 0xf0 then [secondFits first, isContinuation]
  else if first < 0xf5 then [secondFits first, isContinuation, isContinuation]
  else []

/-- The number of bytes that pass their tests before the first that does not. -/
def passing : List (UInt8 → Bool) → Bytes → Nat
  | test :: tests, b :: rest => if test b then passing tests rest + 1 else 0
  | _, _ => 0

/-- A step takes the bytes that can belong to a character, whether or not there are
enough of them. -/
theorem extra_utf8Step (first : UInt8) (rest : Bytes) :
    (utf8Step first rest).extra = passing (followers first) rest := by
  unfold utf8Step followers
  split
  · rfl
  split
  · rfl
  split
  · match rest with
    | [] => rfl
    | b :: more => cases hb : isContinuation b <;> simp only [passing, hb] <;> rfl
  split
  · match rest with
    | [] => rfl
    | [b] => cases hb : secondFits first b <;> simp only [passing, hb] <;> rfl
    | b :: c :: more =>
        cases hb : secondFits first b <;> cases hc : isContinuation c <;>
          simp only [passing, hb, hc] <;> rfl
  split
  · match rest with
    | [] => rfl
    | [b] => cases hb : secondFits first b <;> simp only [passing, hb] <;> rfl
    | [b, c] =>
        cases hb : secondFits first b <;> cases hc : isContinuation c <;>
          simp only [passing, hb, hc] <;> rfl
    | b :: c :: d :: more =>
        cases hb : secondFits first b <;> cases hc : isContinuation c <;>
          cases hd : isContinuation d <;> simp only [passing, hb, hc, hd] <;> rfl
  · rfl

theorem passing_take (tests : List (UInt8 → Bool)) (bytes : Bytes) (n : Nat) :
    passing tests (bytes.take n) = min (passing tests bytes) n := by
  induction tests generalizing bytes n with
  | nil => simp [passing]
  | cons test tests ih =>
      cases bytes with
      | nil => simp [passing]
      | cons b rest =>
          cases n with
          | zero => simp [passing]
          | succ n =>
              rw [List.take_succ_cons, passing, passing, ih]
              split
              · omega
              · omega

/-- A step on fewer bytes takes what there is of what it took. -/
theorem extra_utf8Step_take (first : UInt8) (rest : Bytes) (n : Nat) :
    (utf8Step first (rest.take n)).extra = min (utf8Step first rest).extra n := by
  rw [extra_utf8Step, extra_utf8Step, passing_take]

private theorem length_lossyChars_cons (first : UInt8) (rest : Bytes) :
    (lossyChars (first :: rest)).length =
      (lossyChars (rest.drop (utf8Step first rest).extra)).length + 1 := by
  rw [lossyChars]
  cases utf8Step first rest <;> rfl

/-- There are no more characters than bytes. -/
theorem length_lossyChars_le (bytes : Bytes) :
    (lossyChars bytes).length ≤ bytes.length := by
  induction hn : bytes.length using Nat.strong_induction_on generalizing bytes with
  | _ n ih =>
      cases bytes with
      | nil => simp [lossyChars]
      | cons first rest =>
          rw [List.length_cons] at hn
          have hdrop := List.length_drop (i := (utf8Step first rest).extra) (l := rest)
          have hrest := ih _ (by omega) (rest.drop (utf8Step first rest).extra) rfl
          rw [length_lossyChars_cons]
          omega

/-- A prefix has no more characters, even if it ends inside one, and the bytes after it
make no more characters than there are of them. -/
theorem length_lossyChars_take (bytes : Bytes) (n : Nat) :
    (lossyChars (bytes.take n)).length ≤ (lossyChars bytes).length ∧
      (lossyChars bytes).length ≤ (lossyChars (bytes.take n)).length + (bytes.length - n) := by
  have hnone : (lossyChars []).length = 0 := by simp [lossyChars]
  induction hn : bytes.length using Nat.strong_induction_on generalizing bytes n with
  | _ size ih =>
      cases bytes with
      | nil => simp [lossyChars]
      | cons first rest =>
          rw [List.length_cons] at hn
          cases n with
          | zero =>
              have hall := length_lossyChars_le (first :: rest)
              rw [List.length_cons] at hall
              rw [List.take_zero]
              omega
          | succ n =>
              rw [List.take_succ_cons, length_lossyChars_cons, length_lossyChars_cons,
                extra_utf8Step_take]
              have hdrop := List.length_drop (i := (utf8Step first rest).extra) (l := rest)
              by_cases hfits : (utf8Step first rest).extra ≤ n
              · rw [Nat.min_eq_left hfits, List.drop_take]
                have hrest := ih _ (by omega) (rest.drop (utf8Step first rest).extra)
                  (n - (utf8Step first rest).extra) rfl
                omega
              · -- The prefix ends inside the first character.
                have hend : (rest.take n).drop n = [] := by
                  rw [List.drop_take, Nat.sub_self, List.take_zero]
                rw [Nat.min_eq_right (by omega), hend]
                have hrest := length_lossyChars_le (rest.drop (utf8Step first rest).extra)
                omega

end Text

/-! ## Positions and their keys -/

namespace Position

theorem le_iff (p q : Position) :
    p.le q = true ↔ p.line < q.line ∨ p.line = q.line ∧ p.column ≤ q.column :=
  isLE_then_compare_iff p.line q.line p.column q.column

/-- The column is one of those that a line counts for. -/
def InStride (p : Position) : Prop := 0 ≤ p.column ∧ p.column ≤ 2 ^ 32

/-- Keys are in the order of positions whose columns they have room for. -/
theorem key_le_key {p q : Position} (hp : p.InStride) (hq : q.InStride)
    (h : p.le q = true) : p.key ≤ q.key := by
  obtain ⟨_, hp⟩ := hp
  obtain ⟨hq, _⟩ := hq
  rw [le_iff] at h
  unfold key columnStride
  omega

end Position

namespace Source

/-- Every line has fewer bytes than a key has room for columns. -/
def ShortLines (lines : List Text.Bytes) : Prop :=
  ∀ line ∈ lines, line.length < 2 ^ 32

private theorem charsBefore_take (line : Text.Bytes) {n m : Nat} (h : n ≤ m) :
    charsBefore line n = charsBefore (line.take m) n := by
  rw [charsBefore, charsBefore, List.take_take, Nat.min_eq_left h]

theorem charsBefore_mono (line : Text.Bytes) {n m : Nat} (h : n ≤ m) :
    charsBefore line n ≤ charsBefore line m := by
  rw [charsBefore_take line h]
  exact (Text.length_lossyChars_take (line.take m) n).1

/-- A column that moves forward passes no more characters than bytes. -/
theorem charsBefore_le_add (line : Text.Bytes) {n m : Nat} (h : n ≤ m) :
    charsBefore line m ≤ charsBefore line n + (m - n) := by
  rw [charsBefore_take line h]
  calc
    charsBefore line m ≤ charsBefore (line.take m) n + ((line.take m).length - n) :=
      (Text.length_lossyChars_take (line.take m) n).2
    _ ≤ charsBefore (line.take m) n + (m - n) :=
      Nat.add_le_add_left (Nat.sub_le_sub_right (List.length_take_le m line) n) _

/-- There are no more characters before a column than bytes. -/
theorem charsBefore_le (line : Text.Bytes) (n : Nat) :
    charsBefore line n ≤ min n line.length :=
  Nat.le_trans (Text.length_lossyChars_le _) (Nat.le_of_eq List.length_take)

theorem position_mono (lines : List Text.Bytes) {p q : Point} (h : p.le q = true) :
    (position lines p).le (position lines q) = true := by
  rw [Point.le_iff] at h
  rw [Position.le_iff]
  rcases h with hrow | ⟨hrow, hcolumn⟩
  · left
    show (p.row : Int) + 1 < q.row + 1
    omega
  · right
    have hchars := charsBefore_mono (lines.getD q.row []) hcolumn
    refine ⟨?_, ?_⟩
    · show (p.row : Int) + 1 = q.row + 1
      omega
    · show (charsBefore (lines.getD p.row []) p.column : Int) + 1 ≤
        charsBefore (lines.getD q.row []) q.column + 1
      rw [hrow]
      omega

/-- The column of a position is one that a key has room for if the line is short, or the
column of the point. -/
theorem position_inStride {lines : List Text.Bytes} {p : Point}
    (h : (lines.getD p.row []).length < 2 ^ 32 ∨ p.column < 2 ^ 32) :
    (position lines p).InStride := by
  have hchars := charsBefore_le (lines.getD p.row []) p.column
  constructor
  · show (0 : Int) ≤ charsBefore (lines.getD p.row []) p.column + 1
    omega
  · show (charsBefore (lines.getD p.row []) p.column : Int) + 1 ≤ 2 ^ 32
    omega

theorem ShortLines.getD {lines : List Text.Bytes} (h : ShortLines lines) (row : Nat) :
    (lines.getD row []).length < 2 ^ 32 := by
  rw [List.getD_eq_getElem?_getD]
  cases hget : lines[row]? with
  | none => simp
  | some line => exact h line (List.mem_of_getElem? hget)

end Source

namespace Region

/-- The region starts no later than it stops, at columns that keys have room for. -/
structure Upright (r : Region) : Prop where
  start_inStride : r.start.InStride
  stop_inStride : r.stop.InStride
  forward : r.start.le r.stop = true

theorem Upright.isInverted_eq_false {r : Region} (h : r.Upright) :
    r.isInverted = false := by
  have hkey := Position.key_le_key h.start_inStride h.stop_inStride h.forward
  rw [isInverted, decide_eq_false_iff_not]
  omega

theorem upright_of_shortLines {lines : List Text.Bytes} (hlines : Source.ShortLines lines)
    {e : Extent} (h : e.Forward) : (Source.region lines e).Upright :=
  ⟨Source.position_inStride (.inl (hlines.getD _)),
    Source.position_inStride (.inl (hlines.getD _)), Source.position_mono lines h⟩

theorem upright_of_narrow (lines : List Text.Bytes) {e : Extent} (h : e.Forward)
    (hnarrow : e.Narrow) : (Source.region lines e).Upright :=
  ⟨Source.position_inStride (.inr hnarrow.1), Source.position_inStride (.inr hnarrow.2),
    Source.position_mono lines h⟩

/-- The least region with two upright regions in it is upright. -/
theorem Upright.hull {a b : Region} (ha : a.Upright) (hb : b.Upright) :
    (a.hull b).Upright := by
  have hstart : (earlier a.start b.start).InStride ∧
      (earlier a.start b.start).le a.start = true := by
    rw [earlier]
    split
    · exact ⟨ha.start_inStride, (Position.le_iff _ _).2 (.inr ⟨rfl, le_rfl⟩)⟩
    · next h =>
        rw [Position.le_iff] at h
        refine ⟨hb.start_inStride, (Position.le_iff _ _).2 ?_⟩
        omega
  have hstop : (later a.stop b.stop).InStride ∧
      a.stop.le (later a.stop b.stop) = true := by
    rw [later]
    split
    · next h => exact ⟨hb.stop_inStride, h⟩
    · exact ⟨ha.stop_inStride, (Position.le_iff _ _).2 (.inr ⟨rfl, le_rfl⟩)⟩
  refine ⟨hstart.1, hstop.1, ?_⟩
  have hforward := ha.forward
  have hleft := hstart.2
  have hright := hstop.2
  rw [Position.le_iff] at hforward hleft hright
  show (earlier a.start b.start).le (later a.stop b.stop) = true
  rw [Position.le_iff]
  omega

theorem Upright.foldl_hull {a : Region} (ha : a.Upright) {bs : List Region}
    (hbs : ∀ b ∈ bs, b.Upright) : (bs.foldl Region.hull a).Upright := by
  induction bs generalizing a with
  | nil => exact ha
  | cons b bs ih =>
      exact ih (ha.hull (hbs b List.mem_cons_self))
        fun b' hb' => hbs b' (List.mem_cons_of_mem b hb')

/-! ## The search -/

section Search

open Source (Node NodeKind ShortLines)

variable {lines : List Text.Bytes}

private theorem entryRegion?_upright {before : List Node} {returnType : Option Extent}
    {r : Region} (hbefore : ∀ n ∈ before, (Source.region lines n.extent).Upright)
    (htype : ∀ e ∈ returnType, (Source.region lines e).Upright)
    (h : entryRegion? lines before returnType = some r) : r.Upright := by
  have hparts : ∀ part ∈ (leadingAttributes before).map
      (fun n => Source.region lines n.extent) ++
        (returnType.map (Source.region lines)).toList, part.Upright := by
    intro part hpart
    rcases List.mem_append.1 hpart with hpart | hpart
    · obtain ⟨n, hn, rfl⟩ := List.mem_map.1 hpart
      exact hbefore n ((List.takeWhile_sublist _).mem (List.mem_of_mem_filter hn))
    · rw [Option.mem_toList, Option.map_eq_some_iff] at hpart
      obtain ⟨e, he, rfl⟩ := hpart
      exact htype e he
  rw [entryRegion?] at h
  split at h
  · dsimp only at h
    split at h
    · contradiction
    · next first rest heq =>
        rw [heq] at hparts
        obtain rfl := Option.some.inj h
        exact (hparts first List.mem_cons_self).foldl_hull
          fun b hb => hparts b (List.mem_cons_of_mem first hb)
  · contradiction

private theorem ownRegions_upright {before : List Node} {kind : NodeKind} {e : Extent}
    (hbefore : ∀ n ∈ before, (Source.region lines n.extent).Upright)
    (hkind : kind.All fun e => (Source.region lines e).Upright)
    (he : (Source.region lines e).Upright) :
    ∀ f ∈ ownRegions lines before kind e, f.region.Upright := by
  have hown : ∀ f ∈ (if kind.isMuting then
      [(⟨Source.region lines e, none⟩ : Found)] else []), f.region.Upright := by
    intro f hf
    split at hf
    · rw [List.mem_singleton.1 hf]
      exact he
    · contradiction
  cases kind with
  | function name returnType =>
      intro f hf
      rw [ownRegions, Option.mem_toList, Option.map_eq_some_iff] at hf
      obtain ⟨r, hr, rfl⟩ := hf
      exact entryRegion?_upright hbefore hkind hr
  | _ => exact hown

mutual

private theorem inNode_upright (before : List Node)
    (hbefore : ∀ n ∈ before, (Source.region lines n.extent).Upright) :
    (n : Node) → (n.All fun e => (Source.region lines e).Upright) →
      ∀ f ∈ inNode lines before n, f.region.Upright
  | .mk kind e children, .mk hkind he hchildren => by
      intro f hf
      rw [inNode] at hf
      rcases List.mem_append.1 hf with hf | hf
      · exact ownRegions_upright hbefore hkind he f hf
      · split at hf
        · contradiction
        · exact inNodes_upright [] (by simp) children hchildren f hf

private theorem inNodes_upright (before : List Node)
    (hbefore : ∀ n ∈ before, (Source.region lines n.extent).Upright) :
    (ns : List Node) → (∀ n ∈ ns, n.All fun e => (Source.region lines e).Upright) →
      ∀ f ∈ inNodes lines before ns, f.region.Upright
  | [], _ => by simp [inNodes]
  | n :: rest, hns => by
      have hn := hns n List.mem_cons_self
      intro f hf
      rw [inNodes] at hf
      rcases List.mem_append.1 hf with hf | hf
      · exact inNodes_upright (n :: before) (List.forall_mem_cons.2 ⟨hn.extent, hbefore⟩)
          rest (fun m hm => hns m (List.mem_cons_of_mem n hm)) f hf
      · exact inNode_upright before hbefore n hn f hf

end

/-- The regions that are found in a tree are upright if those of its extents are. -/
theorem search_upright {source : Text.Bytes} {tree : Node}
    (h : tree.All fun e => (Source.region (Source.lines source) e).Upright) :
    ∀ f ∈ search source tree, f.region.Upright :=
  inNode_upright [] (by simp) tree h

theorem inOrder_upright {found : List Found} (h : ∀ f ∈ found, f.region.Upright) :
    ∀ r ∈ inOrder found, r.Upright := by
  intro r hr
  rw [inOrder, List.mem_mergeSort] at hr
  obtain ⟨f, hf, rfl⟩ := List.mem_map.1 hr
  exact h f hf

/-- Upright regions make a set. -/
theorem exists_ofList?_of_upright {rs : List Region} (h : ∀ r ∈ rs, r.Upright) :
    ∃ set, RegionSet.ofList? rs = some set := by
  have hnone : rs.any isInverted = false := by
    rw [List.any_eq_false]
    intro r hr
    rw [(h r hr).isInverted_eq_false]
    exact Bool.false_ne_true
  rw [RegionSet.ofList?, hnone]
  exact ⟨_, rfl⟩

/-- What is found in the tree of a lawful parser makes a set. -/
theorem exists_ofList?_search {parse : Source.Parser} (hparse : parse.Lawful)
    (source : Text.Bytes) :
    ∃ set, RegionSet.ofList? (inOrder (search source (parse source))) = some set := by
  refine exists_ofList?_of_upright (inOrder_upright (search_upright ?_))
  exact ((hparse.forward source).and (hparse.narrow source)).mono
    fun _ h => upright_of_narrow _ h.1 h.2

end Search

end Region

end DeadSymbols
