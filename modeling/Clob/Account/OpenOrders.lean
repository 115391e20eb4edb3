import Clob.Bytes.Layout
/-!
# Open-orders accounts

An open-orders account holds one owner's funds and resting orders on one market: 128 order
slots, each with an order key and a client order id. A slot is live when its bit in the
free-slot mask is clear; its bit in the bid mask says which side it is on. The body is 3200
bytes, or 3208 when it also counts referrer rebates (the second version of the layout).

The account's own address is not part of its data; a caller who knows it supplies it.
-/

namespace Clob

structure OpenOrderSlot where
  slot : Nat
  orderId : Nat
  clientOrderId : Nat
  isBid : Bool
  deriving DecidableEq, Repr

structure OpenOrders where
  market : List UInt8
  owner : List UInt8
  baseFree : Nat
  baseTotal : Nat
  quoteFree : Nat
  quoteTotal : Nat
  freeSlotBits : Nat
  isBidBits : Nat
  orders : List Nat
  clientIds : List Nat
  referrerRebates : Option Nat
  address : Option (List UInt8)
  deriving DecidableEq, Repr

namespace OpenOrders

def slotCount : Nat := 128

def sizeV1 : Nat := 3200

def sizeV2 : Nat := 3208

def version (o : OpenOrders) : Nat := if o.referrerRebates.isSome then 2 else 1

def isSlotFree (o : OpenOrders) (slot : Nat) : Bool := o.freeSlotBits / 2 ^ slot % 2 == 1

def liveSlots (o : OpenOrders) : List OpenOrderSlot :=
  (List.range slotCount).filterMap fun slot =>
    if o.isSlotFree slot then none
    else
      some ⟨slot, o.orders.getD slot 0, o.clientIds.getD slot 0, o.isBidBits / 2 ^ slot % 2 == 1⟩

def orderIds (o : OpenOrders) : List Nat :=
  ((o.liveSlots.map OpenOrderSlot.orderId).mergeSort (· ≤ ·)).eraseDups

/-- The open-orders account that `data` holds, with the given address. The flags must mark an
initialized open-orders account, the body must have one of the two sizes, and an address must
have 32 bytes, checked in that order. -/
def decode (data : List UInt8) (address : Option (List UInt8)) : Except Fault OpenOrders := do
  let env ← Envelope.split .openOrders data
  if !(env.flags.has .initialized && env.flags.has .openOrders) then
    throw (.openOrdersUnmarked env.flags)
  let body := env.body
  if body.length ≠ sizeV1 ∧ body.length ≠ sizeV2 then throw (.openOrdersBodySize body.length)
  if let some a := address then
    if a.length ≠ 32 then throw (.openOrdersAddressSize a.length)
  let f := LittleEndian.field body
  pure {
    market := LittleEndian.slice body 0 32
    owner := LittleEndian.slice body 32 32
    baseFree := f 64 8
    baseTotal := f 72 8
    quoteFree := f 80 8
    quoteTotal := f 88 8
    freeSlotBits := f 96 16
    isBidBits := f 112 16
    orders := (List.range slotCount).map fun i => f (128 + 16 * i) 16
    clientIds := (List.range slotCount).map fun i => f (2176 + 8 * i) 8
    referrerRebates := if body.length = sizeV2 then some (f sizeV1 8) else none
    address := address }

end OpenOrders

end Clob
