import Mathlib.Data.List.Chain
import Clob.Slab.Walk
import Clob.Proofs.Slab.Decode
import Clob.Proofs.Slab.Unfolding
/-!
# The search on any decoded slab

`Slab.find` descends from the root one record per step, along the link that the key's bit below
each branch's prefix selects. On a slab with arbitrary links it may meet a cycle, a link outside
the arena or a record that is not a node of the tree; its budget of one step per record ends
every descent, and each of these ends it with a corruption fault. Otherwise it stops at a branch
whose prefix the key leaves, or at a leaf, which it returns when the leaf holds the key.

`Slab.findVisits` logs the records a search visits: a path of links from where it starts, no
longer than its budget. On a decoded slab every branch keeps at most 127 prefix bits, so the
search's shift counts `128 - prefixLen` and `127 - prefixLen` are at least one and zero: the
truncating subtractions of the naturals are the integer ones.
-/

namespace Clob

namespace Slab

variable {s : Slab} {key : Int}

def findVisits (s : Slab) (key : Int) : (steps : Nat) → (index : Nat) →
    Except Fault (Option Leaf) × List Nat
  | 0, _ => (.error (.searchUnfinished s.capacity), [])
  | steps + 1, index =>
    match s.nodes[index]? with
    | none => (.error (.nodeIndexOutOfRange index s.capacity), [index])
    | some (.leaf l) => (.ok (if (l.key : Int) = key then some l else none), [index])
    | some (.inner b) =>
      let shift := 128 - b.prefixLen
      if key / 2 ^ shift ≠ (b.key : Int) / 2 ^ shift then (.ok none, [index])
      else
        let r := findVisits s key steps
          (if key / 2 ^ (shift - 1) % 2 = 1 then b.right else b.left)
        (r.1, index :: r.2)
    | some n => (.error (.searchNonTree index n.kind), [index])

def findWithVisits (s : Slab) (key : Int) : Except Fault (Option Leaf) × List Nat :=
  if s.header.leafCount = 0 then (.ok none, []) else s.findVisits key s.capacity s.header.rootIndex

theorem findVisits_fst (steps i : Nat) :
    (s.findVisits key steps i).1 = s.findFrom key steps i := by
  induction steps generalizing i with
  | zero => rfl
  | succ n ih =>
      cases hnode : s.nodes[i]? with
      | none => simp [findVisits, findFrom, hnode]
      | some node =>
          cases node with
          | inner b =>
              simp only [findVisits, findFrom, hnode]
              split <;> simp [ih]
          | _ => simp [findVisits, findFrom, hnode]

theorem length_findVisits_le (steps i : Nat) : (s.findVisits key steps i).2.length ≤ steps := by
  induction steps generalizing i with
  | zero => simp [findVisits]
  | succ n ih =>
      cases hnode : s.nodes[i]? with
      | none => simp [findVisits, hnode]
      | some node =>
          cases node with
          | inner b =>
              simp only [findVisits, hnode]
              split
              · simp
              · simpa using ih _
          | _ => simp [findVisits, hnode]

theorem findVisits_path (steps i : Nat) :
    (s.findVisits key steps i).2.IsChain s.Child ∧
      ∀ j ∈ (s.findVisits key steps i).2.head?, j = i := by
  induction steps generalizing i with
  | zero => simp [findVisits]
  | succ n ih =>
      cases hnode : s.nodes[i]? with
      | none => simp [findVisits, hnode]
      | some node =>
          cases node with
          | inner b =>
              simp only [findVisits, hnode]
              split
              · simp
              · obtain ⟨hchain, hhead⟩ := ih (if key / 2 ^ (128 - b.prefixLen - 1) % 2 = 1
                  then b.right else b.left)
                refine ⟨hchain.cons fun j hj => ?_, by simp⟩
                rw [hhead j hj]
                exact ⟨b, hnode, by split <;> simp⟩
          | _ => simp [findVisits, hnode]

theorem findFrom_eq_some {steps i : Nat} {l : Leaf} (h : s.findFrom key steps i = .ok (some l)) :
    (l.key : Int) = key ∧ ∃ j, Relation.ReflTransGen s.Child i j ∧ s.nodes[j]? = some (.leaf l) := by
  induction steps generalizing i with
  | zero => simp [findFrom] at h
  | succ n ih =>
      simp only [findFrom] at h
      split at h
      · cases h
      · rename_i l' hnode
        split at h
        · cases h
          exact ⟨‹_›, i, .refl, hnode⟩
        · cases h
      · rename_i b hnode
        split at h
        · cases h
        · obtain ⟨hkey, j, hj, hleaf⟩ := ih h
          refine ⟨hkey, j, .head ⟨b, hnode, ?_⟩ hj, hleaf⟩
          split <;> simp
      · cases h

theorem findFrom_fault_kind {steps i : Nat} {f : Fault} (h : s.findFrom key steps i = .error f) :
    f.kind = .corruption := by
  induction steps generalizing i with
  | zero =>
      simp only [findFrom, Except.error.injEq] at h
      subst h
      rfl
  | succ n ih =>
      simp only [findFrom] at h
      split at h
      · cases h
        rfl
      · split at h <;> cases h
      · split at h
        · cases h
        · exact ih h
      · cases h
        rfl

theorem shift_counts_of_decode {data : List UInt8} (h : decode data = .ok s) {i : Nat} {b : Branch}
    (hb : s.nodes[i]? = some (.inner b)) :
    1 ≤ 128 - b.prefixLen ∧ ((128 - b.prefixLen : Nat) : Int) = 128 - (b.prefixLen : Int) ∧
      ((128 - b.prefixLen - 1 : Nat) : Int) = 128 - (b.prefixLen : Int) - 1 := by
  have hle := prefixLen_le_of_decode h hb
  omega

/-- Take a decoded slab and any integer key. Every branch's shift counts are at least one and
zero, as the integers give them. The search visits a path of links from the root, at most one
record per step and no more records than the arena holds; it finds nothing, finds a leaf that
holds the key and is reached from the root along links, or ends in a corruption fault. -/
theorem find_total_on_decoded (data : List UInt8) (s : Slab) (h : decode data = .ok s)
    (key : Int) :
    (∀ (i : Nat) (b : Branch), s.nodes[i]? = some (.inner b) →
      1 ≤ 128 - b.prefixLen ∧ ((128 - b.prefixLen : Nat) : Int) = 128 - (b.prefixLen : Int) ∧
        ((128 - b.prefixLen - 1 : Nat) : Int) = 128 - (b.prefixLen : Int) - 1) ∧
    (s.findWithVisits key).1 = s.find key ∧
    (s.findWithVisits key).2.length ≤ s.capacity ∧
    (s.findWithVisits key).2.IsChain s.Child ∧
    (∀ j ∈ (s.findWithVisits key).2.head?, j = s.header.rootIndex) ∧
    (s.find key = .ok none ∨
      (∃ l, s.find key = .ok (some l) ∧ (l.key : Int) = key ∧
        ∃ j, Relation.ReflTransGen s.Child s.header.rootIndex j ∧ s.nodes[j]? = some (.leaf l)) ∨
      ∃ f, s.find key = .error f ∧ f.kind = .corruption) := by
  refine ⟨fun i b hb => shift_counts_of_decode h hb, ?_, ?_, ?_, ?_, ?_⟩
  · unfold findWithVisits find
    split
    · rfl
    · exact findVisits_fst _ _
  · unfold findWithVisits
    split
    · simp
    · exact length_findVisits_le _ _
  · unfold findWithVisits
    split
    · exact .nil
    · exact (findVisits_path _ _).1
  · unfold findWithVisits
    split
    · simp
    · exact (findVisits_path _ _).2
  · unfold find
    split
    · exact .inl rfl
    · cases hr : s.findFrom key s.capacity s.header.rootIndex with
      | error f => exact .inr (.inr ⟨f, rfl, findFrom_fault_kind hr⟩)
      | ok r =>
          cases r with
          | none => exact .inl rfl
          | some l => exact .inr (.inl ⟨l, rfl, findFrom_eq_some hr⟩)

def twoLeafBuffer : List UInt8 :=
  LittleEndian.encode 4 3 ++ List.replicate 16 0 ++ LittleEndian.encode 4 0 ++
    LittleEndian.encode 4 2 ++ List.replicate 4 0 ++
  (LittleEndian.encode 4 1 ++ LittleEndian.encode 4 124 ++ LittleEndian.encode 16 5 ++
    LittleEndian.encode 4 1 ++ LittleEndian.encode 4 2 ++ List.replicate 40 0) ++
  (LittleEndian.encode 4 2 ++ List.replicate 4 0 ++ LittleEndian.encode 16 5 ++
    List.replicate 32 0 ++ LittleEndian.encode 8 10 ++ LittleEndian.encode 8 1) ++
  (LittleEndian.encode 4 2 ++ List.replicate 4 0 ++ LittleEndian.encode 16 9 ++
    List.replicate 32 0 ++ LittleEndian.encode 8 20 ++ LittleEndian.encode 8 2)

def twoLeafDecoded : Slab :=
  ⟨⟨3, 0, 0, 0, 2⟩, #[.inner ⟨124, 5, 1, 2⟩, .leaf ⟨1, 0, 0, 5, List.replicate 32 0, 10, 1⟩,
    .leaf ⟨2, 0, 0, 9, List.replicate 32 0, 20, 2⟩]⟩

set_option maxRecDepth 2000 in
theorem twoLeafBuffer_find_visits :
    decode twoLeafBuffer = .ok twoLeafDecoded ∧
      (twoLeafDecoded.findWithVisits 9).1 = twoLeafDecoded.find 9 ∧
      (twoLeafDecoded.findWithVisits 9).2.length ≤ twoLeafDecoded.capacity := by
  have h : decode twoLeafBuffer = .ok twoLeafDecoded := by rfl
  obtain ⟨-, hfst, hlen, -⟩ := find_total_on_decoded twoLeafBuffer twoLeafDecoded h 9
  exact ⟨h, hfst, hlen⟩

end Slab

end Clob
