import Clob.Queue.Ring
/-!
# Events and requests

An event records a fill or the removal of an order (an out) for one open-orders account: what
it released and paid in the tokens' smallest units, its fee or rebate, and the order. Its flags
say whether it is a fill, an out, on the bid side, and whether the account was the maker.

A request is an order or cancel waiting to be matched.
-/

namespace Clob

structure Event where
  flags : Nat
  openOrdersSlot : Nat
  feeTier : Nat
  released : Nat
  paid : Nat
  fee : Nat
  orderId : Nat
  owner : List UInt8
  clientOrderId : Nat
  sequenceNumber : Nat
  deriving DecidableEq, Repr

namespace Event

def isFill (e : Event) : Bool := e.flags % 2 == 1

def isOut (e : Event) : Bool := e.flags / 2 % 2 == 1

def isBid (e : Event) : Bool := e.flags / 4 % 2 == 1

def isMaker (e : Event) : Bool := e.flags / 8 % 2 == 1

def read (r : List UInt8) (seq : Nat) : Event :=
  let f := LittleEndian.field r
  ⟨f 0 1 % 16, f 1 1, f 2 1, f 8 8, f 16 8, f 24 8, f 32 16, LittleEndian.slice r 48 32, f 80 8,
    seq⟩

def decodeQueue (data : List UInt8) (history : Option Int) : Except Fault (Queue Event) :=
  Ring.decode .event read data history

end Event

structure Request where
  flags : Nat
  openOrdersSlot : Nat
  feeTier : Nat
  maxBaseSizeOrCancelId : Nat
  quoteLocked : Nat
  orderId : Nat
  owner : List UInt8
  clientOrderId : Nat
  deriving DecidableEq, Repr

namespace Request

def read (r : List UInt8) (_seq : Nat) : Request :=
  let f := LittleEndian.field r
  ⟨f 0 1 % 32, f 1 1, f 2 1, f 8 8, f 16 8, f 24 16, LittleEndian.slice r 40 32, f 72 8⟩

def decodeQueue (data : List UInt8) (history : Option Int) : Except Fault (Queue Request) :=
  Ring.decode .request read data history

end Request

end Clob
