import Clob.Prelude
/-!
# Binary64 values

An IEEE 754 binary64 value is kept as its 64-bit pattern: the sign in bit 63, an 11-bit biased
exponent field in bits 52 to 62 and a 52-bit fraction below it. A finite value is
`significand * 2 ^ exponent`, with the hidden bit in the significand of a normal value.

The numeric comparisons here are those of the standard: a NaN is unordered and equals nothing,
and the two zeros are equal.
-/

namespace Clob

/-- An IEEE 754 binary64 value, identified by its bit pattern. -/
structure Binary64 where
  bits : UInt64
  deriving DecidableEq, Repr, Inhabited

namespace Binary64

def ofBits (n : Nat) : Binary64 := ⟨UInt64.ofNat n⟩

def signBit (x : Binary64) : Bool := x.bits.toNat ≥ 2 ^ 63

def magnitude (x : Binary64) : Nat := x.bits.toNat % 2 ^ 63

def field (x : Binary64) : Nat := x.magnitude / 2 ^ 52

def fraction (x : Binary64) : Nat := x.bits.toNat % 2 ^ 52

def significand (x : Binary64) : Nat :=
  if x.field = 0 then x.fraction else 2 ^ 52 + x.fraction

def exponent (x : Binary64) : Int := (max x.field 1 : Nat) - 1075

def isFinite (x : Binary64) : Bool := x.field != 2047

def isNaN (x : Binary64) : Bool := x.field == 2047 && x.fraction != 0

def isInfinite (x : Binary64) : Bool := x.field == 2047 && x.fraction == 0

def isZero (x : Binary64) : Bool := x.magnitude == 0

def zero : Binary64 := ofBits 0

def infinity : Binary64 := ofBits (2047 * 2 ^ 52)

def negate (x : Binary64) : Binary64 :=
  ofBits (if x.signBit then x.magnitude else x.magnitude + 2 ^ 63)

/-- An integer that orders all values that are not NaN as the reals order them, with both
zeros at `0` and the infinities at the ends. -/
def orderKey (x : Binary64) : Int :=
  if x.signBit then -(x.magnitude : Int) else x.magnitude

def sameValue (x y : Binary64) : Bool :=
  !x.isNaN && !y.isNaN && x.orderKey == y.orderKey

def atLeast (x y : Binary64) : Bool :=
  !x.isNaN && !y.isNaN && decide (x.orderKey ≥ y.orderKey)

def below (x y : Binary64) : Bool :=
  !x.isNaN && !y.isNaN && decide (x.orderKey < y.orderKey)

theorem magnitude_lt (x : Binary64) : x.magnitude < 2 ^ 63 := Nat.mod_lt _ (by decide)

theorem field_lt (x : Binary64) : x.field < 2048 := by
  have := x.magnitude_lt
  unfold field
  omega

theorem fraction_lt (x : Binary64) : x.fraction < 2 ^ 52 := Nat.mod_lt _ (by decide)

end Binary64

end Clob
