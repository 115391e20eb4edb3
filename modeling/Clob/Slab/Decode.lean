import Clob.Bytes.LittleEndian
import Clob.Fault
/-!
# Reading a slab

A slab is a 32-byte header followed by 72-byte node records. The header holds the bump index
(how many records were ever used), the length and head of the free list, the root index and the
number of leaves, each a 32-bit word at offsets 0, 8, 16, 20 and 24. A record starts with a
32-bit tag (0 unused, 1 inner, 2 leaf, 3 free, 4 last free) and its payload follows at offset 4.

`Slab.decode` checks, in this order: the header is present, the records fill the rest exactly,
the bump index does not exceed the record count, a tree with leaves has its root in the arena;
then it reads the records in index order and stops at the first with an unknown tag or an inner
prefix longer than 127 bits.
-/

namespace Clob

structure SlabHeader where
  bumpIndex : Nat
  freeListLen : Nat
  freeListHead : Nat
  rootIndex : Nat
  leafCount : Nat
  deriving DecidableEq, Repr

structure Slab where
  header : SlabHeader
  nodes : Array Node

namespace Slab

def headerSize : Nat := 32

def stride : Nat := 72

def capacity (s : Slab) : Nat := s.nodes.size

def readHeader (data : List UInt8) : SlabHeader :=
  let w (offset : Nat) := LittleEndian.field data offset 4
  ⟨w 0, w 8, w 16, w 20, w 24⟩

def readNode (index : Nat) (r : List UInt8) : Except Fault Node :=
  let f := LittleEndian.field r
  match f 0 4 with
  | 0 => .ok .uninitialized
  | 1 =>
    let prefixLen := f 4 4
    if prefixLen > 127 then .error (.nodePrefixTooLong index prefixLen)
    else .ok (.inner ⟨prefixLen, f 8 16, f 24 4, f 28 4⟩)
  | 2 =>
    .ok (.leaf ⟨index, f 4 1, f 5 1, f 8 16, LittleEndian.slice r 24 32, f 56 8, f 64 8⟩)
  | 3 => .ok (.free (f 4 4))
  | 4 => .ok .lastFree
  | tag => .error (.nodeTagUnknown index tag)

def readNodes (index : Nat) : List (List UInt8) → Except Fault (List Node)
  | [] => .ok []
  | r :: rest => do
    let n ← readNode index r
    let ns ← readNodes (index + 1) rest
    pure (n :: ns)

def decode (data : List UInt8) : Except Fault Slab :=
  let size := data.length
  if size < headerSize then .error (.slabHeaderShort size)
  else if (size - headerSize) % stride ≠ 0 then .error (.slabBodyStride (size - headerSize))
  else
    let count := (size - headerSize) / stride
    let header := readHeader data
    if header.bumpIndex > count then .error (.slabBumpBeyond header.bumpIndex count)
    else if header.leafCount > 0 ∧ header.rootIndex ≥ count then
      .error (.slabRootOutOfRange header.rootIndex count)
    else
      (readNodes 0 (LittleEndian.records stride count (data.drop headerSize))).map
        fun nodes => ⟨header, nodes.toArray⟩

end Slab

end Clob
