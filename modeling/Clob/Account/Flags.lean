import Clob.Prelude
/-!
# Account flags

The first word of every account's data is a set of flags that says what the account is. Only
the low eight bits carry meaning; the rest are dropped when the word is read.

`AccountFlags.render` writes a set as `<AccountFlags.A|B: n>`, members in the order of
`AccountFlag.all`, or `<AccountFlags: 0>` for the empty set.
-/

namespace Clob

inductive AccountFlag where
  | initialized
  | market
  | openOrders
  | requestQueue
  | eventQueue
  | bids
  | asks
  | disabled
  deriving DecidableEq, Repr

namespace AccountFlag

def all : List AccountFlag :=
  [initialized, market, openOrders, requestQueue, eventQueue, bids, asks, disabled]

def mask : AccountFlag → Nat
  | initialized => 1
  | market => 2
  | openOrders => 4
  | requestQueue => 8
  | eventQueue => 16
  | bids => 32
  | asks => 64
  | disabled => 128

def name : AccountFlag → String
  | initialized => "INITIALIZED"
  | market => "MARKET"
  | openOrders => "OPEN_ORDERS"
  | requestQueue => "REQUEST_QUEUE"
  | eventQueue => "EVENT_QUEUE"
  | bids => "BIDS"
  | asks => "ASKS"
  | disabled => "DISABLED"

end AccountFlag

structure AccountFlags where
  bits : Nat
  bits_lt : bits < 256 := by omega
  deriving Repr

namespace AccountFlags

def ofWord (w : Nat) : AccountFlags := ⟨w % 256, Nat.mod_lt _ (by decide)⟩

def has (f : AccountFlags) (a : AccountFlag) : Bool := f.bits / a.mask % 2 == 1

def members (f : AccountFlags) : List AccountFlag := AccountFlag.all.filter f.has

def render (f : AccountFlags) : String :=
  if f.bits = 0 then "<AccountFlags: 0>"
  else "<AccountFlags." ++ "|".intercalate (f.members.map AccountFlag.name) ++ ": " ++
    toString f.bits ++ ">"

end AccountFlags

end Clob
