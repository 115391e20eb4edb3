import Clob.Account.OpenOrders
import Clob.Bytes.Layout
import Clob.Bytes.Text
import Clob.Json.Value
import Clob.Market.Lots
import Clob.OrderKey
import Clob.Slab.Walk
/-!
# Order books

An order book is one side of a market: a slab of resting orders, the side they rest on, and the
market configuration that turns their lots into prices and sizes. An order is a leaf of the slab
seen through that configuration.

The best order of a book comes first in priority order: the walk runs descending for bids and
ascending for asks (`Side.priorityDescending`).

A bids or asks account holds a slab in its envelope body. `Orderbook.decode` checks, in this
order, that the account is long enough for the envelope, that it is initialized, that exactly one
of the bids and asks flags is set (other flags do not matter), and that the body holds a slab
header. The body is then cut to whole node records, since an account's allocation may leave a
remainder shorter than one record, and read as a slab. The side is `buy` for a bids account.

`Orderbook.ownedBy` lists, in ascending key order, the orders that belong to any of a list of
owners. An owner is named by its 32-byte key, by the hex text of that key, or by a decoded
open-orders account: an account whose address is known claims the orders owned by that address,
and one without claims the orders whose keys are among its live order ids.

Hex text is compared after its ASCII letters are put in lower case; a text with any other
character that is not a hex digit, a lone surrogate included, never matches, since order owners
are written in lowercase hex.
-/

namespace Clob

structure Order where
  orderId : Nat
  clientOrderId : Nat
  owner : List UInt8
  ownerSlot : Nat
  feeTier : Nat
  price : Binary64
  priceLots : Nat
  size : Binary64
  sizeLots : Nat
  side : Side
  deriving DecidableEq, Repr

structure Orderbook where
  slab : Slab
  side : Side
  market : MarketConfig

structure OrderWalk where
  orders : List Order
  fault : Option Fault

namespace Orderbook

def isBids (b : Orderbook) : Bool := b.side == .buy

def order (b : Orderbook) (l : Leaf) : Order :=
  { orderId := l.key
    clientOrderId := l.clientOrderId
    owner := l.owner
    ownerSlot := l.ownerSlot
    feeTier := l.feeTier
    price := b.market.price l.priceLots
    priceLots := l.priceLots
    size := b.market.baseSize l.quantity
    sizeLots := l.quantity
    side := b.side }

def orders (b : Orderbook) (descending : Bool) : OrderWalk :=
  let w := b.slab.walk descending
  ⟨w.leaves.map b.order, w.fault⟩

def byPriority (b : Orderbook) : OrderWalk := b.orders b.side.priorityDescending

def best (b : Orderbook) : Except Fault (Option Order) :=
  (b.slab.walk b.side.priorityDescending).first.map (Option.map b.order)

def find (b : Orderbook) (orderId : Int) : Except Fault (Option Order) :=
  (b.slab.find orderId).map (Option.map b.order)

end Orderbook

namespace Order

def toJson (o : Order) : Json :=
  .obj [("order_id", .int o.orderId), ("client_order_id", .int o.clientOrderId),
    ("owner_id", .str (Hex.encode o.owner)), ("owner_slot", .int o.ownerSlot),
    ("fee_tier", .int o.feeTier), ("price", .float o.price), ("price_lots", .int o.priceLots),
    ("size", .float o.size), ("size_lots", .int o.sizeLots), ("side", .str o.side.name)]

end Order

namespace Orderbook

def decode (data : List UInt8) (m : MarketConfig) : Except Fault Orderbook := do
  let env ← Envelope.split .orderbook data
  if !env.flags.has .initialized then throw (.bookUninitialized env.flags)
  let isBids := env.flags.has .bids
  if isBids == env.flags.has .asks then throw (.bookSideUnclear env.flags)
  let size := env.body.length
  if size < Slab.headerSize then throw (.bookSlabShort size)
  let slop := (size - Slab.headerSize) % Slab.stride
  let slab ← Slab.decode (env.body.take (size - slop))
  pure ⟨slab, if isBids then .buy else .sell, m⟩

def ofSlab (data : List UInt8) (side : Json) (m : MarketConfig) : Except Fault Orderbook := do
  let slab ← Slab.decode data
  let s ← Side.ofJson side
  pure ⟨slab, s, m⟩

end Orderbook

inductive OwnerRef where
  | key (bytes : List UInt8)
  | text (hex : CodeText)
  | account (o : OpenOrders)

namespace Orderbook

def claims (owners : List OwnerRef) : List String × List Nat :=
  owners.foldl (fun (texts, ids) o =>
    match o with
    | .key bs => (Hex.encode bs :: texts, ids)
    | .text s =>
      match s.toString? with
      | some s => (s.toLower :: texts, ids)
      | none => (texts, ids)
    | .account a =>
      match a.address with
      | some addr => (Hex.encode addr :: texts, ids)
      | none => (texts, a.orderIds ++ ids)) ([], [])

def ownedBy (b : Orderbook) (owners : List OwnerRef) : Except Fault (List Order) :=
  let (texts, ids) := claims owners
  (b.slab.walk false).toExcept.map fun leaves =>
    (leaves.filter fun l => texts.contains (Hex.encode l.owner) || ids.contains l.key).map b.order

end Orderbook

def ordersOfAccounts (bids asks : Orderbook) (accounts : List OpenOrders) :
    Except Fault (List Order) := do
  let owners := accounts.map OwnerRef.account
  let onBids ← bids.ownedBy owners
  let onAsks ← asks.ownedBy owners
  pure (onBids ++ onAsks)

end Clob
