import Clob.Fault
/-!
# Order keys

A resting order is keyed by 128 bits: its price in lots in the top 64 bits and its sequence
number in the low 64. On the buy side the sequence number is stored complemented, so that among
orders at one price the earlier order has the larger key, and the best order of either side is
at one end of the key order (`Side.priorityDescending`).

The main statement is `decode_compose`: a key composed from a price and sequence number in
range gives them back.
-/

namespace Clob

inductive Side where
  | buy
  | sell
  deriving DecidableEq, Repr

namespace Side

def name : Side → String
  | buy => "buy"
  | sell => "sell"

def ofJson (j : Json) : Except Fault Side :=
  match j with
  | .str (.plain "buy") => .ok buy
  | .str (.plain "sell") => .ok sell
  | _ => .error (.sideUnknown j)

def priorityDescending : Side → Bool
  | buy => true
  | sell => false

end Side

namespace OrderKey

def wordBound : Nat := 2 ^ 64

/-- The low half of a key: the sequence number, complemented on the buy side. -/
def lowHalf (side : Side) (sequence : Nat) : Nat :=
  match side with
  | .buy => wordBound - 1 - sequence
  | .sell => sequence

def compose (side : Side) (price sequence : Nat) : Nat :=
  price * wordBound + lowHalf side sequence

def price (key : Int) : Int := key / (wordBound : Int)

def sequence (side : Side) (key : Nat) : Nat := lowHalf side (key % wordBound)

/-- The key of an order, after checking that price and sequence number are 64-bit words and that
the side is `buy` or `sell`, in that order. -/
def encode (side : Json) (price sequence : Int) : Except Fault Nat :=
  if price < 0 ∨ price ≥ wordBound then .error (.priceOutOfRange price)
  else if sequence < 0 ∨ sequence ≥ wordBound then .error (.sequenceOutOfRange sequence)
  else (Side.ofJson side).map fun s => compose s price.toNat sequence.toNat

def decode (side : Json) (key : Int) : Except Fault (Nat × Nat) :=
  if key < 0 ∨ key ≥ (2 : Int) ^ 128 then .error (.keyOutOfRange key)
  else (Side.ofJson side).map fun s => (key.toNat / wordBound, sequence s key.toNat)

theorem lowHalf_lt (side : Side) (sequence : Nat) (h : sequence < wordBound) :
    lowHalf side sequence < wordBound := by
  cases side <;> simp [lowHalf, wordBound] at * <;> omega

theorem lowHalf_lowHalf (side : Side) (sequence : Nat) (h : sequence < wordBound) :
    lowHalf side (lowHalf side sequence) = sequence := by
  cases side <;> simp [lowHalf, wordBound] at *
  omega

theorem decode_compose (side : Side) (p s : Nat) (hs : s < wordBound) :
    (compose side p s / wordBound, sequence side (compose side p s)) = (p, s) := by
  have hl := lowHalf_lt side s hs
  have hw : 0 < wordBound := by decide
  simp only [compose, sequence, Prod.mk.injEq]
  constructor
  · rw [Nat.add_comm, Nat.add_mul_div_right _ _ hw, Nat.div_eq_of_lt hl, Nat.zero_add]
  · rw [Nat.add_comm, Nat.add_mul_mod_self_right, Nat.mod_eq_of_lt hl, lowHalf_lowHalf side s hs]

end OrderKey

end Clob
