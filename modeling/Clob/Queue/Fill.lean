import Clob.Bytes.Text
import Clob.Json.Value
import Clob.Market.Lots
import Clob.OrderKey
import Clob.Queue.Event
/-!
# Fills

A fill event becomes a fill in tokens. A bid paid quote and received base; an ask paid base and
received quote. The price is taken on the quote amount before fees: a maker's rebate is added
back to what a bid paid or taken off what an ask received, and a taker's fee is taken off what a
bid paid or added back to what an ask received. The fee cost is negative for a maker.

`fills` keeps the events that are fills and paid something, in order, and stops at the first
that moved no base or whose fee exceeds its quote amount.
-/

namespace Clob

structure Fill where
  side : Side
  price : Binary64
  size : Binary64
  feeCost : Binary64
  maker : Bool
  orderId : Nat
  clientOrderId : Nat
  owner : List UInt8
  openOrdersSlot : Nat
  feeTier : Nat
  sequenceNumber : Nat
  deriving DecidableEq, Repr

namespace Fill

def ofEvent (m : MarketConfig) (e : Event) : Except Fault Fill :=
  let maker := e.isMaker
  let (side, quote, base) := if e.isBid then (Side.buy, e.paid, e.released)
    else (Side.sell, e.released, e.paid)
  let beforeFees : Int :=
    if e.isBid == maker then (quote : Int) + e.fee else (quote : Int) - e.fee
  if base = 0 then .error (.fillWithoutBase e.orderId)
  else if beforeFees < 0 then .error (.fillFeeBeyondQuote e.orderId e.fee quote)
  else
    let feeCost := m.quoteAmount e.fee
    .ok { side
          price :=
            Binary64.quotient (beforeFees.toNat * m.baseMultiplier) (m.quoteMultiplier * base)
          size := m.baseAmount base
          feeCost := if maker then feeCost.negate else feeCost
          maker
          orderId := e.orderId
          clientOrderId := e.clientOrderId
          owner := e.owner
          openOrdersSlot := e.openOrdersSlot
          feeTier := e.feeTier
          sequenceNumber := e.sequenceNumber }

def toJson (f : Fill) : Json :=
  .obj [("side", .str f.side.name), ("price", .float f.price), ("size", .float f.size),
    ("fee_cost", .float f.feeCost), ("maker", .bool f.maker), ("order_id", .int f.orderId),
    ("client_order_id", .int f.clientOrderId), ("owner_id", .str (Hex.encode f.owner)),
    ("open_orders_slot", .int f.openOrdersSlot), ("fee_tier", .int f.feeTier),
    ("sequence_number", .int f.sequenceNumber)]

end Fill

def fills (m : MarketConfig) (events : List Event) : Except Fault (List Fill) :=
  (events.filter fun e => e.isFill && e.paid > 0).mapM (Fill.ofEvent m)

end Clob
