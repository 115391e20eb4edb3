import Clob.Numeric.Binary64
/-!
# Rounding a ratio to the nearest binary64

`Binary64.nearest neg num den` is the binary64 value nearest to `num / den`, with the sign
given apart: an exact tie goes to the even significand, a magnitude below the least subnormal's
half goes to zero, and one at or above `2 ^ 1024 - 2 ^ 970` becomes infinite. The computation
is exact arithmetic on naturals: find `e = ⌊log₂ (num / den)⌋`, fix the spacing `2 ^ q` of the
values in that binade (or of the subnormals), and round `num / (den * 2 ^ q)` half to even. A
significand that rounds up to `2 ^ 53` carries into the next binade by plain addition of the
bit pattern.
-/

namespace Clob

/-- `num / den` rounded to the nearest natural number; an exact half goes to the even
neighbour. -/
def roundHalfEven (num den : Nat) : Nat :=
  let q := num / den
  let r := num % den
  if 2 * r < den then q
  else if den < 2 * r then q + 1
  else if q % 2 = 0 then q else q + 1

def atLeastPow2 (num den : Nat) (e : Int) : Bool :=
  decide (den * 2 ^ e.toNat ≤ num * 2 ^ (-e).toNat)

def floorLog2 (num den : Nat) : Int :=
  let e : Int := (Nat.log2 num : Int) - (Nat.log2 den : Int)
  if atLeastPow2 num den e then e else e - 1

namespace Binary64

def nearestMagnitude (num den : Nat) : Nat :=
  if num = 0 ∨ den = 0 then 0
  else
    let e := max (floorLog2 num den) (-1022)
    let q := e - 52
    let m := roundHalfEven (num * 2 ^ (-q).toNat) (den * 2 ^ q.toNat)
    min ((e + 1022).toNat * 2 ^ 52 + m) (2047 * 2 ^ 52)

/-- The binary64 value nearest to `num / den`, negative when `neg`; ties go to the even
significand and overflow gives an infinity. -/
def nearest (neg : Bool) (num den : Nat) : Binary64 :=
  let m := nearestMagnitude num den
  ofBits (if neg then m + 2 ^ 63 else m)

/-- The value `x * 2 ^ k` rounded to nearest, or `none` when a finite value overflows. Zeros,
infinities and NaNs are their own scalings. -/
def scaleB? (x : Binary64) (k : Int) : Option Binary64 :=
  if x.isZero || !x.isFinite then some x
  else
    let t := x.exponent + k
    let r := nearest x.signBit (x.significand * 2 ^ t.toNat) (2 ^ (-t).toNat)
    if r.isFinite then some r else none

def toRatio (x : Binary64) : Bool × Nat × Nat :=
  (x.signBit, x.significand * 2 ^ x.exponent.toNat, 2 ^ (-x.exponent).toNat)

end Binary64

end Clob
