import Clob.Slab.Decode
/-!
# Searching and walking a slab

`Slab.find` looks a key up in the crit-bit tree. From the root it follows, at each branch, the
child that the key's bit just below the branch's prefix selects, and stops with no result as
soon as the key leaves the branch's prefix. A leaf ends the search: it is the result when its key
is the one sought. The key may be any integer; bits are those of its two's complement, so a
negative key agrees with no prefix of a nonnegative node key.

The search takes at most as many steps as the arena has records; more steps mean a cycle and are
reported, as is a link outside the arena or to a record that is not part of the tree.

`Slab.walk` lists the leaves of the tree in key order, ascending or descending, by a depth-first
walk with a stack of record indices. Each record taken from the stack counts as one visit, and a
walk may make as many visits as the arena has records: one more means the links are cyclic. A
link outside the arena, or to a record that is not part of the tree, also ends the walk. The
outcome keeps the leaves listed before such a fault, and the fault.
-/

namespace Clob

namespace Slab

def findFrom (s : Slab) (key : Int) : (steps : Nat) → (index : Nat) → Except Fault (Option Leaf)
  | 0, _ => .error (.searchUnfinished s.capacity)
  | steps + 1, index =>
    match s.nodes[index]? with
    | none => .error (.nodeIndexOutOfRange index s.capacity)
    | some (.leaf l) => .ok (if (l.key : Int) = key then some l else none)
    | some (.inner b) =>
      let shift := 128 - b.prefixLen
      if key / 2 ^ shift ≠ (b.key : Int) / 2 ^ shift then .ok none
      else findFrom s key steps (if key / 2 ^ (shift - 1) % 2 = 1 then b.right else b.left)
    | some n => .error (.searchNonTree index n.kind)

def find (s : Slab) (key : Int) : Except Fault (Option Leaf) :=
  if s.header.leafCount = 0 then .ok none else s.findFrom key s.capacity s.header.rootIndex

end Slab

/-- The outcome of a walk: the leaves it listed, in order, and the fault that ended it early, if
any. -/
structure Walk where
  leaves : List Leaf
  fault : Option Fault

namespace Walk

def cons (l : Leaf) (w : Walk) : Walk := ⟨l :: w.leaves, w.fault⟩

def toExcept (w : Walk) : Except Fault (List Leaf) :=
  match w.fault with
  | none => .ok w.leaves
  | some f => .error f

/-- The first leaf of the walk, if it listed one; a fault matters only when it came first. -/
def first (w : Walk) : Except Fault (Option Leaf) :=
  match w.leaves, w.fault with
  | l :: _, _ => .ok (some l)
  | [], none => .ok none
  | [], some f => .error f

end Walk

namespace Slab

def walkFrom (s : Slab) (descending : Bool) : (budget : Nat) → (stack : List Nat) → Walk
  | _, [] => ⟨[], none⟩
  | 0, _ :: _ => ⟨[], some (.walkCyclic s.capacity)⟩
  | budget + 1, index :: rest =>
    match s.nodes[index]? with
    | none => ⟨[], some (.nodeIndexOutOfRange index s.capacity)⟩
    | some (.leaf l) => (walkFrom s descending budget rest).cons l
    | some (.inner b) =>
      walkFrom s descending budget
        (if descending then b.right :: b.left :: rest else b.left :: b.right :: rest)
    | some n => ⟨[], some (.walkNonTree index n.kind)⟩

def walk (s : Slab) (descending : Bool) : Walk :=
  if s.header.leafCount = 0 then ⟨[], none⟩
  else s.walkFrom descending s.capacity [s.header.rootIndex]

end Slab

end Clob
