import Clob.Proofs.Slab.Walk
import Clob.Slab.Walk
/-!
# The search agrees with the walk

The search descends from the root and, at each branch, either stops because the key leaves the
branch's prefix or follows the bit below the prefix. Under the crit-bit invariant neither choice
loses a leaf: a key outside the prefix is held by no leaf below the branch, and the subtree not
taken holds only keys whose bit differs from the key's. So the search from a tree's root finds
what a scan of the tree's leaves finds (`Slab.findFrom_treeAt`), for every integer key: a
negative key or one of more than 128 bits leaves every prefix of a 128-bit key.
-/

namespace Clob

namespace Branch

theorem Routes.cast {b : Branch} {bit x : Nat} (h : b.Routes bit x) :
    (x : Int) / 2 ^ (128 - b.prefixLen) = (b.key : Int) / 2 ^ (128 - b.prefixLen) ∧
      (x : Int) / 2 ^ (127 - b.prefixLen) % 2 = bit := by
  obtain ⟨hpre, hbit⟩ := h
  constructor
  · have := congrArg (fun n : Nat => (n : Int)) hpre
    simpa [Int.natCast_ediv] using this
  · have := congrArg (fun n : Nat => (n : Int)) hbit
    simpa [Int.natCast_ediv, Int.natCast_emod] using this

theorem find?_eq_none_of_routes {b : Branch} {bit : Nat} {ls : List Leaf} {key : Int}
    (hls : ∀ l ∈ ls, b.Routes bit l.key)
    (hkey : ¬ (key / 2 ^ (128 - b.prefixLen) = (b.key : Int) / 2 ^ (128 - b.prefixLen) ∧
      key / 2 ^ (127 - b.prefixLen) % 2 = bit)) :
    ls.find? (fun l => (l.key : Int) == key) = none := by
  rw [List.find?_eq_none]
  intro l hl heq
  rw [beq_iff_eq] at heq
  exact hkey (heq ▸ (hls l hl).cast)

end Branch

namespace Slab

variable {s : Slab}

theorem findFrom_treeAt {i : Nat} {t : CritTree} (h : s.TreeAt i t) (hc : t.Critbit) (key : Int)
    {steps : Nat} (hs : t.size ≤ steps) :
    s.findFrom key steps i = .ok (t.leaves.find? fun l => (l.key : Int) == key) := by
  induction h generalizing steps with
  | @leaf i l hnode =>
      obtain ⟨n, rfl⟩ : ∃ n, steps = n + 1 := ⟨steps - 1, by simp [CritTree.size] at hs; omega⟩
      by_cases hkey : (l.key : Int) = key <;> simp [findFrom, hnode, CritTree.leaves, hkey]
  | @branch i b left right hnode _ _ ihl ihr =>
      obtain ⟨hl, hr, hcl, hcr⟩ := hc
      simp only [CritTree.size] at hs
      obtain ⟨n, rfl⟩ : ∃ n, steps = n + 1 := ⟨steps - 1, by omega⟩
      have h127 : 128 - b.prefixLen - 1 = 127 - b.prefixLen := by omega
      simp only [findFrom, hnode, CritTree.leaves, List.find?_append, h127]
      by_cases hpre : key / 2 ^ (128 - b.prefixLen) = (b.key : Int) / 2 ^ (128 - b.prefixLen)
      · rw [if_neg (not_not_intro hpre)]
        by_cases hbit : key / 2 ^ (127 - b.prefixLen) % 2 = 1
        · rw [if_pos hbit, ihr hcr (by omega), Branch.find?_eq_none_of_routes hl (by simp [hbit]),
            Option.none_or]
        · rw [if_neg hbit, ihl hcl (by omega),
            Branch.find?_eq_none_of_routes hr (by simp [hbit]), Option.or_none]
      · rw [if_pos hpre, Branch.find?_eq_none_of_routes hl (by simp [hpre]),
          Branch.find?_eq_none_of_routes hr (by simp [hpre])]
        rfl

/-- On a well-formed slab the search for any integer key ends without a fault and gives what a
scan of the ascending walk gives: the leaf holding the key if there is one, and nothing
otherwise. -/
theorem find_eq_scan_of_walk (s : Slab) (t : CritTree) (hw : s.WellFormed t) (key : Int) :
    s.find key = .ok ((s.walk false).leaves.find? fun l => (l.key : Int) == key) := by
  rw [hw.walk_ascending, find, if_neg (Nat.pos_iff_ne_zero.mp hw.leafCount_pos)]
  exact findFrom_treeAt hw.tree hw.critbit key (hw.tree.size_le hw.distinct)

theorem twoLeaf_find :
    twoLeaf.WellFormed twoLeafTree ∧
      twoLeaf.find 9 = .ok ((twoLeaf.walk false).leaves.find? fun l => (l.key : Int) == 9) :=
  ⟨twoLeaf_wellFormed, find_eq_scan_of_walk _ _ twoLeaf_wellFormed 9⟩

end Slab

end Clob
