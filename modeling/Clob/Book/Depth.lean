import Clob.Book.Order
/-!
# Depth of a book

`Orderbook.depth n` aggregates the resting size per price, best first, into at most `n` levels.
Orders are taken in priority order and priced; an order whose price equals that of the last
level joins it, even when the list is full; otherwise it opens a new level, or ends the
aggregation if `n` levels are already open. Levels merge on the converted price, so lot prices
that convert to the same number share a level, which keeps the lot price of its first order.

A fault of the walk matters only if the aggregation reaches it.
-/

namespace Clob

structure BookLevel where
  price : Binary64
  size : Binary64
  priceLots : Nat
  sizeLots : Nat
  deriving DecidableEq, Repr

structure OpenLevel where
  price : Binary64
  priceLots : Nat
  sizeLots : Nat
  deriving DecidableEq, Repr

namespace Orderbook

/-- Aggregate `leaves` onto the open levels `acc` (last level first); the flag says whether the
aggregation ended before the leaves did. -/
def gather (price : Nat → Binary64) (depth : Nat) :
    List Leaf → List OpenLevel → List OpenLevel × Bool
  | [], acc => (acc, false)
  | l :: rest, acc =>
    let p := price l.priceLots
    match acc with
    | last :: older =>
      if last.price.sameValue p then
        gather price depth rest ({ last with sizeLots := last.sizeLots + l.quantity } :: older)
      else if acc.length = depth then (acc, true)
      else gather price depth rest (⟨p, l.priceLots, l.quantity⟩ :: acc)
    | [] =>
      if depth = 0 then ([], true)
      else gather price depth rest [⟨p, l.priceLots, l.quantity⟩]

def depth (b : Orderbook) (depth : Int) : Except Fault (List BookLevel) :=
  if depth < 0 then .error (.depthNegative depth)
  else
    let w := b.slab.walk b.side.priorityDescending
    let (levels, stopped) := gather b.market.price depth.toNat w.leaves []
    let result := levels.reverse.map fun lv =>
      (⟨lv.price, b.market.baseSize lv.sizeLots, lv.priceLots, lv.sizeLots⟩ : BookLevel)
    match w.fault with
    | some f => if stopped then .ok result else .error f
    | none => .ok result

end Orderbook

def BookLevel.toJson (lv : BookLevel) : Json :=
  .obj [("price", .float lv.price), ("size", .float lv.size), ("price_lots", .int lv.priceLots),
    ("size_lots", .int lv.sizeLots)]

end Clob
