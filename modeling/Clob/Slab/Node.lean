import Clob.Prelude
/-!
# Slab nodes

A slab is an arena of fixed-size records. Each record is a node of a crit-bit tree over 128-bit
order keys, or a slot that the tree does not use: never used, on the free list, or the last slot
of the free list.

* A `Branch` splits keys on the bit below its common prefix: the keys of its `left` subtree have
  that bit clear and those of its `right` subtree have it set.
* A `Leaf` is a resting order: its key, owner and quantity.
-/

namespace Clob

/-- An inner node of the tree: the keys below it share their top `prefixLen` bits with `key`. -/
structure Branch where
  prefixLen : Nat
  key : Nat
  left : Nat
  right : Nat
  deriving DecidableEq, Repr

structure Leaf where
  index : Nat
  ownerSlot : Nat
  feeTier : Nat
  key : Nat
  owner : List UInt8
  quantity : Nat
  clientOrderId : Nat
  deriving DecidableEq, Repr

namespace Leaf

def priceLots (l : Leaf) : Nat := l.key / 2 ^ 64

end Leaf

inductive NodeKind where
  | uninitialized
  | inner
  | leaf
  | free
  | lastFree
  deriving DecidableEq, Repr

def NodeKind.typeName : NodeKind → String
  | .uninitialized => "UninitializedNode"
  | .inner => "InnerNode"
  | .leaf => "LeafNode"
  | .free => "FreeNode"
  | .lastFree => "LastFreeNode"

inductive Node where
  | uninitialized
  | inner (branch : Branch)
  | leaf (leaf : Leaf)
  | free (next : Nat)
  | lastFree
  deriving DecidableEq, Repr

def Node.kind : Node → NodeKind
  | .uninitialized => .uninitialized
  | .inner _ => .inner
  | .leaf _ => .leaf
  | .free _ => .free
  | .lastFree => .lastFree

end Clob
