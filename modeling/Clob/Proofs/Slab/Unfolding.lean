import Mathlib.Logic.Relation
import Clob.Proofs.Slab.Walk
/-!
# Walking arbitrary links

The links of a slab need not form a tree. From the root they unfold into a tree that may be
infinite (a link back to an ancestor), may repeat records (two links to one record), and may
reach a link outside the arena or a record that is not a node of the tree. The walk reads that
unfolding depth first, one visit per record taken from its stack, and stops after as many
visits as the arena has records.

The walk from a record either passes the whole unfolding from it, which is then a finite tree
of inner and leaf records that the budget covers, or ends in a fault having listed a prefix of
the unfolding's leaves (`Slab.walkFrom_whole_or_prefix`). So a walk ends without a fault exactly
when the unfolding from the root is a finite tree of inner and leaf records with no more nodes
than the arena has records. That condition does not depend on the direction, and a tree has no
cycle, so every cycle of links that the root reaches ends the walk in a fault. `Slab.walkVisits`
logs the records a walk takes from its stack: never more than one past the arena's size.
-/

namespace Clob

namespace Branch

def firstChild (b : Branch) (descending : Bool) : Nat := if descending then b.right else b.left

def secondChild (b : Branch) (descending : Bool) : Nat := if descending then b.left else b.right

end Branch

namespace Slab

variable {s : Slab}

def Child (s : Slab) (i j : Nat) : Prop :=
  ∃ b, s.nodes[i]? = some (.inner b) ∧ (j = b.left ∨ j = b.right)

/-- `ls` is a prefix of the leaves met by reading the unfolding of the links from record `i`
depth first, each branch's `firstChild` subtree before the other. A prefix may stop anywhere,
and reaches into the second subtree of a branch only once the first is a finite tree read
whole. -/
inductive LeafPrefix (s : Slab) (descending : Bool) : Nat → List Leaf → Prop where
  | nil {i : Nat} : LeafPrefix s descending i []
  | leaf {i : Nat} {l : Leaf} : s.nodes[i]? = some (.leaf l) → LeafPrefix s descending i [l]
  | first {i : Nat} {b : Branch} {ls : List Leaf} : s.nodes[i]? = some (.inner b) →
      LeafPrefix s descending (b.firstChild descending) ls → LeafPrefix s descending i ls
  | second {i : Nat} {b : Branch} {t : CritTree} {ls : List Leaf} :
      s.nodes[i]? = some (.inner b) → s.TreeAt (b.firstChild descending) t →
      LeafPrefix s descending (b.secondChild descending) ls →
      LeafPrefix s descending i ((if descending then t.leaves.reverse else t.leaves) ++ ls)

/-- The walk of `walkFrom`, with the records it takes from its stack in the order it takes them.
A record taken when no visit is left, or one that ends the walk, is taken all the same. -/
def walkVisits (s : Slab) (descending : Bool) : (budget : Nat) → (stack : List Nat) →
    Walk × List Nat
  | _, [] => (⟨[], none⟩, [])
  | 0, index :: _ => (⟨[], some (.walkCyclic s.capacity)⟩, [index])
  | budget + 1, index :: rest =>
    match s.nodes[index]? with
    | none => (⟨[], some (.nodeIndexOutOfRange index s.capacity)⟩, [index])
    | some (.leaf l) =>
      let r := walkVisits s descending budget rest
      (r.1.cons l, index :: r.2)
    | some (.inner b) =>
      let r := walkVisits s descending budget
        (if descending then b.right :: b.left :: rest else b.left :: b.right :: rest)
      (r.1, index :: r.2)
    | some n => (⟨[], some (.walkNonTree index n.kind)⟩, [index])

/-! ## The tree an unfolding is -/

theorem TreeAt.unique {i : Nat} {t t' : CritTree} (h : s.TreeAt i t) (h' : s.TreeAt i t') :
    t = t' := by
  induction h generalizing t' with
  | leaf hnode =>
      cases h' with
      | leaf hnode' => rw [hnode] at hnode'; cases hnode'; rfl
      | branch hnode' => rw [hnode] at hnode'; cases hnode'
  | branch hnode _ _ ihl ihr =>
      cases h' with
      | leaf hnode' => rw [hnode] at hnode'; cases hnode'
      | branch hnode' hl' hr' =>
          rw [hnode] at hnode'
          cases hnode'
          rw [ihl hl', ihr hr']

theorem TreeAt.child {i j : Nat} {t : CritTree} (h : s.TreeAt i t) (hc : s.Child i j) :
    ∃ t', s.TreeAt j t' ∧ t'.size < t.size := by
  obtain ⟨b, hb, hj⟩ := hc
  cases h with
  | leaf hnode => rw [hnode] at hb; cases hb
  | @branch _ b' left right hnode hl hr =>
      rw [hnode] at hb
      cases hb
      rcases hj with rfl | rfl
      · exact ⟨left, hl, by simp only [CritTree.size]; omega⟩
      · exact ⟨right, hr, by simp only [CritTree.size]; omega⟩

theorem TreeAt.transGen {i j : Nat} {t : CritTree} (h : s.TreeAt i t)
    (hp : Relation.TransGen s.Child i j) : ∃ t', s.TreeAt j t' ∧ t'.size < t.size := by
  induction hp with
  | single hc => exact h.child hc
  | tail _ hc ih =>
      obtain ⟨t₁, h₁, hlt₁⟩ := ih
      obtain ⟨t₂, h₂, hlt₂⟩ := h₁.child hc
      exact ⟨t₂, h₂, by omega⟩

theorem TreeAt.acyclic {i j : Nat} {t : CritTree} (h : s.TreeAt i t)
    (hr : Relation.ReflTransGen s.Child i j) : ¬ Relation.TransGen s.Child j j := by
  intro hcycle
  obtain ⟨t₁, h₁⟩ : ∃ t₁, s.TreeAt j t₁ := by
    rcases Relation.reflTransGen_iff_eq_or_transGen.mp hr with rfl | hp
    · exact ⟨t, h⟩
    · obtain ⟨t₁, h₁, -⟩ := h.transGen hp
      exact ⟨t₁, h₁⟩
  obtain ⟨t₂, h₂, hlt⟩ := h₁.transGen hcycle
  rw [h₁.unique h₂] at hlt
  exact Nat.lt_irrefl _ hlt

theorem TreeAt.leafPrefix {i : Nat} {t : CritTree} (h : s.TreeAt i t) (descending : Bool) :
    s.LeafPrefix descending i (if descending then t.leaves.reverse else t.leaves) := by
  induction h with
  | leaf hnode => cases descending <;> exact .leaf hnode
  | @branch i b left right hnode hl hr ihl ihr =>
      cases descending with
      | false =>
          have := @LeafPrefix.second s false i b left _ hnode hl ihr
          simpa [CritTree.leaves] using this
      | true =>
          have := @LeafPrefix.second s true i b right _ hnode hr ihl
          simpa [CritTree.leaves] using this

/-! ## What a walk from one record does -/

theorem walkFrom_inner {descending : Bool} {n i : Nat} {rest : List Nat} {b : Branch}
    (hnode : s.nodes[i]? = some (.inner b)) :
    s.walkFrom descending (n + 1) (i :: rest) =
      s.walkFrom descending n (b.firstChild descending :: b.secondChild descending :: rest) := by
  cases descending <;> simp [walkFrom, hnode, Branch.firstChild, Branch.secondChild]

theorem fault_prepend (ls : List Leaf) (w : Walk) : (Walk.prepend ls w).fault = w.fault := rfl

theorem leaves_prepend (ls : List Leaf) (w : Walk) :
    (Walk.prepend ls w).leaves = ls ++ w.leaves := rfl

theorem faulted_at_once {descending : Bool} {budget i : Nat} {rest : List Nat}
    (h : ∃ f, s.walkFrom descending budget (i :: rest) = ⟨[], some f⟩) :
    (s.walkFrom descending budget (i :: rest)).fault ≠ none ∧
      s.LeafPrefix descending i (s.walkFrom descending budget (i :: rest)).leaves := by
  obtain ⟨f, hf⟩ := h
  rw [hf]
  exact ⟨Option.some_ne_none f, .nil⟩

/-- A walk from record `i` either passes the whole unfolding from `i`, a finite tree of inner and
leaf records that the budget covers, and goes on with the rest of the stack; or it ends in a
fault inside that unfolding, having listed a prefix of its leaves. -/
theorem walkFrom_whole_or_prefix (descending : Bool) (budget i : Nat) (rest : List Nat) :
    (∃ t, s.TreeAt i t ∧ t.size ≤ budget ∧
      s.walkFrom descending budget (i :: rest) =
        Walk.prepend (if descending then t.leaves.reverse else t.leaves)
          (s.walkFrom descending (budget - t.size) rest)) ∨
    ((s.walkFrom descending budget (i :: rest)).fault ≠ none ∧
      s.LeafPrefix descending i (s.walkFrom descending budget (i :: rest)).leaves) := by
  induction budget using Nat.strongRecOn generalizing i rest with
  | ind budget ih =>
  cases budget with
  | zero => exact .inr (faulted_at_once (by simp [walkFrom]))
  | succ n =>
      cases hnode : s.nodes[i]? with
      | none => exact .inr (faulted_at_once (by simp [walkFrom, hnode]))
      | some node =>
          cases node with
          | leaf l =>
              refine .inl ⟨.leaf i l, .leaf hnode, by simp [CritTree.size], ?_⟩
              cases descending <;>
                simp [walkFrom, hnode, CritTree.size, CritTree.leaves, Walk.cons, Walk.prepend]
          | inner b =>
              rw [walkFrom_inner hnode]
              rcases ih n (by omega) (b.firstChild descending) (b.secondChild descending :: rest)
                with ⟨t₁, h₁, hs₁, hw₁⟩ | ⟨hf₁, hp₁⟩
              · rw [hw₁]
                rcases ih (n - t₁.size) (by omega) (b.secondChild descending) rest
                  with ⟨t₂, h₂, hs₂, hw₂⟩ | ⟨hf₂, hp₂⟩
                · left
                  rw [hw₂, Walk.prepend_prepend]
                  have hn : n - t₁.size - t₂.size = n + 1 - (t₁.size + t₂.size + 1) := by omega
                  cases descending with
                  | false =>
                      refine ⟨.branch i b t₁ t₂, .branch hnode h₁ h₂, ?_, ?_⟩
                      · simp only [CritTree.size]; omega
                      · simp [CritTree.leaves, CritTree.size, hn]
                  | true =>
                      refine ⟨.branch i b t₂ t₁, .branch hnode h₂ h₁, ?_, ?_⟩
                      · simp only [CritTree.size]; omega
                      · simp [CritTree.leaves, CritTree.size, hn, Nat.add_comm t₂.size]
                · exact .inr ⟨by rwa [fault_prepend], by
                    rw [leaves_prepend]; exact .second hnode h₁ hp₂⟩
              · exact .inr ⟨hf₁, .first hnode hp₁⟩
          | _ => exact .inr (faulted_at_once (by simp [walkFrom, hnode]))

/-! ## The records a walk visits -/

theorem walkVisits_fst (descending : Bool) (budget : Nat) (stack : List Nat) :
    (s.walkVisits descending budget stack).1 = s.walkFrom descending budget stack := by
  induction budget generalizing stack with
  | zero => cases stack <;> rfl
  | succ n ih =>
      cases stack with
      | nil => rfl
      | cons i rest =>
          cases hnode : s.nodes[i]? with
          | none => simp [walkVisits, walkFrom, hnode]
          | some node => cases node <;> simp [walkVisits, walkFrom, hnode, ih]

theorem length_walkVisits_le (descending : Bool) (budget : Nat) (stack : List Nat) :
    (s.walkVisits descending budget stack).2.length ≤ budget + 1 := by
  induction budget generalizing stack with
  | zero => cases stack <;> simp [walkVisits]
  | succ n ih =>
      cases stack with
      | nil => simp [walkVisits]
      | cons i rest =>
          cases hnode : s.nodes[i]? with
          | none => simp [walkVisits, hnode]
          | some node =>
              cases node <;> simp [walkVisits, hnode]
              all_goals exact ih _

/-! ## The walk from the root -/

/-- On a slab with leaves, a walk in either direction ends without a fault exactly when the
unfolding from the root is a finite tree of inner and leaf records with no more nodes than the
arena has records, and it then lists that tree's leaves in its direction. Otherwise it ends in a
corruption fault, having listed a prefix of the unfolding's leaves. Either way it takes at most
one record more than the arena holds from its stack. -/
theorem walk_by_unfolding (hpos : 0 < s.header.leafCount) (descending : Bool) :
    ((s.walk descending).fault = none ↔
      ∃ t, s.TreeAt s.header.rootIndex t ∧ t.size ≤ s.capacity) ∧
    (∀ t, s.TreeAt s.header.rootIndex t → t.size ≤ s.capacity →
      s.walk descending = ⟨if descending then t.leaves.reverse else t.leaves, none⟩) ∧
    ((s.walk descending).fault ≠ none →
      (∃ f, (s.walk descending).fault = some f ∧ f.kind = .corruption) ∧
        s.LeafPrefix descending s.header.rootIndex (s.walk descending).leaves) ∧
    (s.walkVisits descending s.capacity [s.header.rootIndex]).1 = s.walk descending ∧
    (s.walkVisits descending s.capacity [s.header.rootIndex]).2.length ≤ s.capacity + 1 := by
  have hwalk : s.walk descending = s.walkFrom descending s.capacity [s.header.rootIndex] := by
    rw [walk, if_neg (Nat.pos_iff_ne_zero.mp hpos)]
  have hwhole : ∀ t, s.TreeAt s.header.rootIndex t → t.size ≤ s.capacity →
      s.walk descending = ⟨if descending then t.leaves.reverse else t.leaves, none⟩ := by
    intro t ht hsize
    rw [hwalk, walkFrom_treeAt ht descending hsize]
    simp [walkFrom, Walk.prepend]
  refine ⟨⟨fun hnone => ?_, fun htree => ?_⟩, hwhole,
    fun hfault => ⟨?_, ?_⟩, by rw [walkVisits_fst, hwalk], length_walkVisits_le _ _ _⟩
  · rcases walkFrom_whole_or_prefix (s := s) descending s.capacity s.header.rootIndex [] with
      ⟨t, ht, hsize, -⟩ | ⟨hf, -⟩
    · exact ⟨t, ht, hsize⟩
    · exact absurd (hwalk ▸ hnone) hf
  · obtain ⟨t, ht, hsize⟩ := htree
    rw [hwhole t ht hsize]
  · obtain ⟨f, hf⟩ := Option.ne_none_iff_exists'.mp hfault
    exact ⟨f, hf, walk_fault_kind hf⟩
  · rcases walkFrom_whole_or_prefix (s := s) descending s.capacity s.header.rootIndex [] with
      ⟨t, ht, hsize, -⟩ | ⟨-, hp⟩
    · exact absurd (by rw [hwhole t ht hsize]) hfault
    · rwa [hwalk]

/-- Take a slab with leaves and arbitrary links. A walk in either direction ends without a
fault exactly when the unfolding of the links from the root is a finite tree of inner and leaf
records with no more nodes than the arena has records, and then lists its leaves in its
direction; otherwise it ends in a corruption fault having listed a prefix of the unfolding's
leaves, after taking at most one record more than the arena holds from its stack. So every
cycle that the root reaches ends both walks in a fault, the ascending walk ends without a fault
exactly when the descending one does, and then each lists the other's leaves reversed. -/
theorem walk_completes_iff_unfolding_fits (s : Slab) (hpos : 0 < s.header.leafCount) :
    (∀ descending : Bool,
      ((s.walk descending).fault = none ↔
        ∃ t, s.TreeAt s.header.rootIndex t ∧ t.size ≤ s.capacity) ∧
      (∀ t, s.TreeAt s.header.rootIndex t → t.size ≤ s.capacity →
        s.walk descending = ⟨if descending then t.leaves.reverse else t.leaves, none⟩) ∧
      ((s.walk descending).fault ≠ none →
        (∃ f, (s.walk descending).fault = some f ∧ f.kind = .corruption) ∧
          s.LeafPrefix descending s.header.rootIndex (s.walk descending).leaves) ∧
      (s.walkVisits descending s.capacity [s.header.rootIndex]).1 = s.walk descending ∧
      (s.walkVisits descending s.capacity [s.header.rootIndex]).2.length ≤ s.capacity + 1) ∧
    (∀ j, Relation.ReflTransGen s.Child s.header.rootIndex j → Relation.TransGen s.Child j j →
      ∀ descending, (s.walk descending).fault ≠ none) ∧
    ((s.walk false).fault = none ↔ (s.walk true).fault = none) ∧
    ((s.walk false).fault = none → (s.walk true).leaves = (s.walk false).leaves.reverse) := by
  refine ⟨walk_by_unfolding hpos, fun j hj hcycle descending hnone => ?_, ?_, fun hnone => ?_⟩
  · obtain ⟨t, ht, -⟩ := (walk_by_unfolding hpos descending).1.mp hnone
    exact ht.acyclic hj hcycle
  · rw [(walk_by_unfolding hpos false).1, (walk_by_unfolding hpos true).1]
  · obtain ⟨t, ht, hsize⟩ := (walk_by_unfolding hpos false).1.mp hnone
    rw [(walk_by_unfolding hpos false).2.1 t ht hsize, (walk_by_unfolding hpos true).2.1 t ht hsize]
    simp

/-- One inner record whose two links lead back to itself. -/
def selfLoop : Slab := ⟨⟨1, 0, 0, 0, 1⟩, #[.inner ⟨0, 0, 0, 0⟩]⟩

theorem selfLoop_walks_fault :
    0 < selfLoop.header.leafCount ∧ ∀ descending, (selfLoop.walk descending).fault ≠ none :=
  ⟨by decide, (walk_completes_iff_unfolding_fits selfLoop (by decide)).2.1 0 .refl
    (.single ⟨⟨0, 0, 0, 0⟩, rfl, .inl rfl⟩)⟩

end Slab

end Clob
