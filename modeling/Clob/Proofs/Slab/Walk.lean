import Clob.Proofs.Slab.Tree
/-!
# The walk lists the tree in key order

A walk whose stack has the root of a tree on top lists the tree's leaves, spends one visit on each
node, and then goes on from the rest of the stack (`Slab.walkFrom_treeAt`). The ascending walk
takes the left subtree first and the descending walk the right one. On a well-formed slab the
records of the tree are distinct, so the budget of one visit per record always suffices, and the
two walks list the leaves in increasing and in decreasing key order without a fault.
-/

namespace Clob

namespace Walk

def prepend (ls : List Leaf) (w : Walk) : Walk := ⟨ls ++ w.leaves, w.fault⟩

@[simp] theorem prepend_prepend (xs ys : List Leaf) (w : Walk) :
    prepend xs (prepend ys w) = prepend (xs ++ ys) w := by
  simp [prepend]

theorem first_of_complete (ls : List Leaf) : (⟨ls, none⟩ : Walk).first = .ok ls.head? := by
  cases ls <;> rfl

theorem first_extreme {ls : List Leaf} {r : Leaf → Leaf → Prop} (hne : ls ≠ [])
    (h : ls.Pairwise r) :
    ∃ l ∈ ls, (⟨ls, none⟩ : Walk).first = .ok (some l) ∧ ∀ x ∈ ls, x = l ∨ r l x := by
  obtain ⟨l, rest, rfl⟩ := List.exists_cons_of_ne_nil hne
  refine ⟨l, List.mem_cons_self, rfl, fun x hx => ?_⟩
  rcases List.mem_cons.mp hx with rfl | hx
  · exact .inl rfl
  · exact .inr ((List.pairwise_cons.mp h).1 x hx)

end Walk

namespace Slab

variable {s : Slab}

theorem walkFrom_treeAt {i : Nat} {t : CritTree} (h : s.TreeAt i t) (descending : Bool)
    {budget : Nat} {rest : List Nat} (hb : t.size ≤ budget) :
    s.walkFrom descending budget (i :: rest) =
      Walk.prepend (if descending then t.leaves.reverse else t.leaves)
        (s.walkFrom descending (budget - t.size) rest) := by
  induction h generalizing budget rest with
  | leaf hnode =>
      obtain ⟨n, rfl⟩ : ∃ n, budget = n + 1 := ⟨budget - 1, by simp [CritTree.size] at hb; omega⟩
      cases descending <;> simp [walkFrom, hnode, CritTree.size, CritTree.leaves, Walk.cons,
        Walk.prepend]
  | @branch i b left right hnode _ _ ihl ihr =>
      simp only [CritTree.size] at hb
      obtain ⟨n, rfl⟩ : ∃ n, budget = n + 1 := ⟨budget - 1, by omega⟩
      cases descending with
      | false =>
          have hn : n + 1 - (left.size + right.size + 1) = n - left.size - right.size := by omega
          simp only [walkFrom, hnode, Bool.false_eq_true, if_false]
          rw [ihl (by omega), ihr (by omega)]
          simp [CritTree.size, CritTree.leaves, hn]
      | true =>
          have hn : n + 1 - (left.size + right.size + 1) = n - right.size - left.size := by omega
          simp only [walkFrom, hnode, if_true]
          rw [ihr (by omega), ihl (by omega)]
          simp [CritTree.size, CritTree.leaves, hn]

theorem walkFrom_fault_kind {descending : Bool} {budget : Nat} {stack : List Nat} {f : Fault}
    (h : (s.walkFrom descending budget stack).fault = some f) : f.kind = .corruption := by
  induction budget generalizing stack with
  | zero =>
      cases stack with
      | nil => simp [walkFrom] at h
      | cons i rest =>
          simp only [walkFrom, Option.some.injEq] at h
          subst h
          rfl
  | succ n ih =>
      cases stack with
      | nil => simp [walkFrom] at h
      | cons i rest =>
          simp only [walkFrom] at h
          split at h
          · simp only [Option.some.injEq] at h
            subst h
            rfl
          · exact ih h
          · exact ih h
          · simp only [Option.some.injEq] at h
            subst h
            rfl

theorem walk_fault_kind {descending : Bool} {f : Fault} (h : (s.walk descending).fault = some f) :
    f.kind = .corruption := by
  unfold walk at h
  split at h
  · simp at h
  · exact walkFrom_fault_kind h

theorem WellFormed.walk_eq {t : CritTree} (hw : s.WellFormed t) (descending : Bool) :
    s.walk descending = ⟨if descending then t.leaves.reverse else t.leaves, none⟩ := by
  have hsize := hw.tree.size_le hw.distinct
  rw [walk, if_neg (Nat.pos_iff_ne_zero.mp hw.leafCount_pos),
    walkFrom_treeAt hw.tree descending hsize]
  simp [walkFrom, Walk.prepend]

theorem WellFormed.walk_ascending {t : CritTree} (hw : s.WellFormed t) :
    s.walk false = ⟨t.leaves, none⟩ := by
  simpa using hw.walk_eq false

theorem WellFormed.walk_descending {t : CritTree} (hw : s.WellFormed t) :
    s.walk true = ⟨t.leaves.reverse, none⟩ := by
  simpa using hw.walk_eq true

/-- A slab without leaves walks to nothing. On a well-formed slab the ascending walk lists every
leaf of the tree once, in strictly increasing key order, and the descending walk lists them in
the reverse order; neither meets a fault. So the first leaf of each walk is the least and the
greatest key. -/
theorem walk_lists_leaves_in_key_order (s : Slab) :
    (s.header.leafCount = 0 → ∀ descending, s.walk descending = ⟨[], none⟩) ∧
    ∀ t, s.WellFormed t →
      s.walk false = ⟨t.leaves, none⟩ ∧ s.walk true = ⟨t.leaves.reverse, none⟩ ∧
      t.leaves.Pairwise (fun x y => x.key < y.key) ∧
      (∃ l ∈ t.leaves, (s.walk false).first = .ok (some l) ∧ ∀ x ∈ t.leaves, l.key ≤ x.key) ∧
      (∃ l ∈ t.leaves, (s.walk true).first = .ok (some l) ∧ ∀ x ∈ t.leaves, x.key ≤ l.key) := by
  refine ⟨fun h0 descending => by simp [walk, h0], fun t hw => ?_⟩
  have hasc := hw.walk_ascending
  have hdesc := hw.walk_descending
  have hsorted := hw.critbit.sorted
  obtain ⟨lo, hlo, hfirst, hleast⟩ := Walk.first_extreme t.leaves_ne_nil hsorted
  obtain ⟨hi, hhi, hlast, hgreatest⟩ :=
    Walk.first_extreme (List.reverse_ne_nil_iff.mpr t.leaves_ne_nil)
      (List.pairwise_reverse.mpr hsorted)
  refine ⟨hasc, hdesc, hsorted, ⟨lo, hlo, ?_, fun x hx => ?_⟩,
    ⟨hi, List.mem_reverse.mp hhi, ?_, fun x hx => ?_⟩⟩
  · rw [hasc]
    exact hfirst
  · rcases hleast x hx with rfl | hlt <;> omega
  · rw [hdesc]
    exact hlast
  · rcases hgreatest x (List.mem_reverse.mpr hx) with rfl | hlt <;> omega

theorem twoLeaf_walk_ascending :
    twoLeaf.WellFormed twoLeafTree ∧ twoLeaf.walk false = ⟨twoLeafTree.leaves, none⟩ :=
  ⟨twoLeaf_wellFormed, ((walk_lists_leaves_in_key_order twoLeaf).2 _ twoLeaf_wellFormed).1⟩

end Slab

end Clob
