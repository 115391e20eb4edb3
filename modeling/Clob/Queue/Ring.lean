import Clob.Bytes.LittleEndian
import Clob.Fault
/-!
# Queue rings

A queue account is a ring of fixed-size records after a 37-byte header: the envelope's marker
bytes and flag word, then the head slot, the count of live records and the next sequence number,
each a 32-bit word at offsets 13, 21 and 29. The ring holds as many whole records as fit between
the header and the seven marker bytes at the end.

The live records are the `count` records from the head on, oldest first, wrapping around the
ring. A history of `n` records is instead the `n` most recently written slots, newest first,
including those already consumed, but never more than the ring holds. Sequence numbers count
modulo `2 ^ 32`: the newest record has the number just below the header's.
-/

namespace Clob

structure QueueHeader where
  flags : AccountFlags
  head : Nat
  count : Nat
  seqNum : Nat

structure Ring where
  header : QueueHeader
  capacity : Nat

structure Queue (α : Type) where
  ring : Ring
  records : List α

namespace Ring

def headerSize : Nat := 37

def tailSize : Nat := 7

def seqModulus : Nat := 2 ^ 32

def read (kind : QueueKind) (data : List UInt8) : Except Fault Ring := do
  if data.length < headerSize then throw (.queueHeaderShort kind data.length)
  let flags := AccountFlags.ofWord (LittleEndian.field data 5 8)
  if !(flags.has .initialized && flags.has kind.flag) then throw (.queueUnmarked kind flags)
  let w (offset : Nat) := LittleEndian.field data offset 4
  let header : QueueHeader := ⟨flags, w 13, w 21, w 29⟩
  let capacity := (data.length - headerSize - tailSize) / kind.stride
  if header.count > capacity then throw (.queueCountBeyond kind header.count capacity)
  if capacity > 0 ∧ header.head ≥ capacity then
    throw (.queueHeadBeyond kind header.head capacity)
  pure ⟨header, capacity⟩

def live (r : Ring) : List (Nat × Nat) :=
  (List.range r.header.count).map fun i =>
    ((r.header.head + i) % r.capacity,
      ((r.header.seqNum + i : Int) - r.header.count) % (seqModulus : Int) |>.toNat)

/-- The slots and sequence numbers of the `n` most recently written records, newest first. -/
def recent (r : Ring) (n : Nat) : List (Nat × Nat) :=
  (List.range (min n r.capacity)).map fun i =>
    ((r.header.head + r.header.count + r.capacity - 1 - i) % r.capacity,
      ((r.header.seqNum : Int) - 1 - i) % (seqModulus : Int) |>.toNat)

def positions (r : Ring) (history : Option Int) : Except Fault (List (Nat × Nat)) :=
  match history with
  | none => .ok r.live
  | some n => if n < 0 then .error (.historyNegative n) else .ok (r.recent n.toNat)

def records (kind : QueueKind) (data : List UInt8) : Array (List UInt8) :=
  (LittleEndian.chunks kind.stride (data.drop headerSize)).toArray

def decode (kind : QueueKind) (readRecord : List UInt8 → Nat → α) (data : List UInt8)
    (history : Option Int) : Except Fault (Queue α) := do
  let r ← read kind data
  let ps ← r.positions history
  let slots := records kind data
  pure ⟨r, ps.map fun (slot, seq) => readRecord (slots.getD slot []) seq⟩

end Ring

end Clob
