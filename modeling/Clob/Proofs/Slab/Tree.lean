import Clob.Slab.Walk
/-!
# The tree a slab holds

The records of a slab hold a crit-bit tree when the links from the root lead only to inner and
leaf records, each reached once. `Slab.TreeAt s i t` reads the tree `t` off the arena from record
`i`; it is the second side against which the walk and the search are proved.

`CritTree.Critbit` is the crit-bit invariant. Below a branch whose prefix is `p` bits long, every
key agrees with the branch's key above bit `127 - p`, and that bit is clear for the keys on the
left and set for those on the right. The keys of a decoded slab are 128-bit words, so the part
above bit `127 - p` is their top `p` bits.

The main facts are that the leaves of such a tree are in strictly increasing key order
(`CritTree.Critbit.sorted`), and that a tree whose records are distinct has no more nodes than
the arena has records (`Slab.TreeAt.size_le`).
-/

namespace Clob

/-- A crit-bit tree, each node with the index of the record that holds it. -/
inductive CritTree where
  | leaf (index : Nat) (l : Leaf)
  | branch (index : Nat) (b : Branch) (left right : CritTree)
  deriving DecidableEq, Repr

namespace CritTree

def indices : CritTree → List Nat
  | leaf index _ => [index]
  | branch index _ left right => index :: (left.indices ++ right.indices)

def size : CritTree → Nat
  | leaf _ _ => 1
  | branch _ _ left right => left.size + right.size + 1

def leaves : CritTree → List Leaf
  | leaf _ l => [l]
  | branch _ _ left right => left.leaves ++ right.leaves

@[simp] theorem length_indices (t : CritTree) : t.indices.length = t.size := by
  induction t with
  | leaf => rfl
  | branch _ _ left right ihl ihr =>
      simp [indices, size, ihl, ihr]

theorem leaves_ne_nil (t : CritTree) : t.leaves ≠ [] := by
  induction t with
  | leaf => simp [leaves]
  | branch _ _ left right ihl _ => simp [leaves, ihl]

end CritTree

namespace Branch

def Routes (b : Branch) (bit key : Nat) : Prop :=
  key / 2 ^ (128 - b.prefixLen) = b.key / 2 ^ (128 - b.prefixLen) ∧
    key / 2 ^ (127 - b.prefixLen) % 2 = bit

instance (b : Branch) (bit key : Nat) : Decidable (b.Routes bit key) :=
  inferInstanceAs (Decidable (_ ∧ _))

theorem Routes.lt {b : Branch} {x y : Nat} (hx : b.Routes 0 x) (hy : b.Routes 1 y) : x < y := by
  obtain ⟨hxk, hxb⟩ := hx
  obtain ⟨hyk, hyb⟩ := hy
  by_cases hp : b.prefixLen ≤ 127
  · have hs : 128 - b.prefixLen = 127 - b.prefixLen + 1 := by omega
    rw [hs, Nat.pow_succ, ← Nat.div_div_eq_div_mul, ← Nat.div_div_eq_div_mul] at hxk hyk
    have hlt : x / 2 ^ (127 - b.prefixLen) < y / 2 ^ (127 - b.prefixLen) := by omega
    exact Nat.lt_of_div_lt_div hlt
  · have h0 : 128 - b.prefixLen = 0 := by omega
    have h1 : 127 - b.prefixLen = 0 := by omega
    simp only [h0, h1, Nat.pow_zero, Nat.div_one] at hxk hyk hxb hyb
    omega

end Branch

namespace CritTree

def Critbit : CritTree → Prop
  | leaf _ _ => True
  | branch _ b left right =>
      (∀ l ∈ left.leaves, b.Routes 0 l.key) ∧ (∀ l ∈ right.leaves, b.Routes 1 l.key) ∧
        left.Critbit ∧ right.Critbit

instance decidableCritbit : (t : CritTree) → Decidable t.Critbit
  | leaf _ _ => isTrue trivial
  | branch _ _ left right =>
      haveI := decidableCritbit left
      haveI := decidableCritbit right
      inferInstanceAs (Decidable (_ ∧ _ ∧ _ ∧ _))

theorem Critbit.sorted {t : CritTree} (h : t.Critbit) :
    t.leaves.Pairwise (fun x y => x.key < y.key) := by
  induction t with
  | leaf => exact List.pairwise_singleton _ _
  | branch _ _ left right ihl ihr =>
      obtain ⟨hl, hr, hcl, hcr⟩ := h
      exact List.pairwise_append.mpr
        ⟨ihl hcl, ihr hcr, fun x hx y hy => (hl x hx).lt (hr y hy)⟩

end CritTree

namespace Slab

/-- Record `i` of the slab roots the tree `t`: every node of `t` is the record its index names,
and a branch's subtrees are rooted at the records its links name. -/
inductive TreeAt (s : Slab) : Nat → CritTree → Prop where
  | leaf {i : Nat} {l : Leaf} : s.nodes[i]? = some (.leaf l) → TreeAt s i (.leaf i l)
  | branch {i : Nat} {b : Branch} {left right : CritTree} :
      s.nodes[i]? = some (.inner b) → TreeAt s b.left left → TreeAt s b.right right →
      TreeAt s i (.branch i b left right)

/-- A slab that holds the crit-bit tree `t`: the header counts leaves, `t` is read off from the
root, no record is reached twice, and `t` keeps the crit-bit invariant. -/
structure WellFormed (s : Slab) (t : CritTree) : Prop where
  leafCount_pos : 0 < s.header.leafCount
  tree : s.TreeAt s.header.rootIndex t
  distinct : t.indices.Nodup
  critbit : t.Critbit

variable {s : Slab} {i : Nat} {t : CritTree}

theorem TreeAt.index_lt (h : s.TreeAt i t) : ∀ j ∈ t.indices, j < s.capacity := by
  induction h with
  | leaf hnode =>
      intro j hj
      simp only [CritTree.indices, List.mem_singleton] at hj
      subst hj
      exact (Array.getElem?_eq_some_iff.mp hnode).1
  | branch hnode _ _ ihl ihr =>
      intro j hj
      simp only [CritTree.indices, List.mem_cons, List.mem_append] at hj
      rcases hj with rfl | hj | hj
      · exact (Array.getElem?_eq_some_iff.mp hnode).1
      · exact ihl j hj
      · exact ihr j hj

theorem TreeAt.size_le (h : s.TreeAt i t) (hd : t.indices.Nodup) : t.size ≤ s.capacity := by
  have hsub : t.indices ⊆ List.range s.capacity :=
    fun j hj => List.mem_range.mpr (h.index_lt j hj)
  calc t.size = t.indices.length := t.length_indices.symm
    _ ≤ (List.range s.capacity).length := hd.length_le_of_subset hsub
    _ = s.capacity := List.length_range

def twoLeaf : Slab :=
  ⟨⟨3, 0, 0, 0, 2⟩,
    #[.inner ⟨124, 5, 1, 2⟩, .leaf ⟨1, 0, 0, 5, [], 10, 1⟩, .leaf ⟨2, 0, 0, 9, [], 20, 2⟩]⟩

def twoLeafTree : CritTree :=
  .branch 0 ⟨124, 5, 1, 2⟩ (.leaf 1 ⟨1, 0, 0, 5, [], 10, 1⟩) (.leaf 2 ⟨2, 0, 0, 9, [], 20, 2⟩)

theorem twoLeaf_wellFormed : twoLeaf.WellFormed twoLeafTree :=
  ⟨by decide, .branch rfl (.leaf rfl) (.leaf rfl), by decide, by decide⟩

end Slab

end Clob
