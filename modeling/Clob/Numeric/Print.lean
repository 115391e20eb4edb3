import Clob.Numeric.Nearest
/-!
# Shortest decimals and writing binary64 values

A positive finite value `m * 2 ^ q` is the nearest binary64 value to every real of its rounding
interval: the reals between the midpoints to its two neighbours, ends included exactly when `m`
is even (a tie goes to the even significand). Below a power of two the lower neighbour is only
half as far, unless the value is the least normal.

`Binary64.shortest` gives the decimal with the fewest significant digits in that interval; among
the candidates of that length it takes the one nearest to the value, and of two equally near the
one with an even last digit. It tries `1, 2, …, 17` digits on the decimal grid `10 ^ (k - n)`,
where `10 ^ k` is the least power of ten above the value: a grid with a point in the interval
also has one of the value's two neighbours on that grid there, so testing those two suffices.

A finite value is written with its shortest decimal (`Binary64.shortest`). With `p` the position
of the decimal point after the first digit, counted from the left of the digits, the value is
written positionally when `-4 < p ≤ 16`, with `.0` after an integral value; otherwise it is
`d.ddd` followed by `e`, the sign of the exponent and at least two exponent digits. The
infinities are `inf` and `-inf`, a NaN is `nan`, and the zeros are `0.0` and `-0.0`.
-/

namespace Clob

structure Decimal where
  digits : Nat
  exponent : Int
  deriving DecidableEq, Repr, Inhabited

namespace Decimal

def normalize (d : Decimal) : Decimal :=
  if d.digits ≠ 0 ∧ d.digits % 10 = 0 then
    normalize ⟨d.digits / 10, d.exponent + 1⟩
  else d
termination_by d.digits
decreasing_by omega

def digitCount (n : Nat) : Nat :=
  if n = 0 then 0 else digitCount (n / 10) + 1
termination_by n
decreasing_by omega

end Decimal

def compareScaled (a : Nat) (i : Int) (b : Nat) (j : Int) : Ordering :=
  compare (a * 10 ^ i.toNat * 2 ^ (-j).toNat) (b * 2 ^ j.toNat * 10 ^ (-i).toNat)

structure RoundingInterval where
  lo : Nat
  hi : Nat
  scale : Int
  closed : Bool
  deriving Repr

namespace RoundingInterval

def contains (r : RoundingInterval) (c : Nat) (e : Int) : Bool :=
  let below := compareScaled c e r.lo r.scale
  let above := compareScaled c e r.hi r.scale
  (below == .gt || (r.closed && below == .eq)) && (above == .lt || (r.closed && above == .eq))

end RoundingInterval

namespace Binary64

def roundingInterval (x : Binary64) : RoundingInterval :=
  let m := x.significand
  let narrow := x.fraction == 0 && x.field > 1
  { lo := if narrow then 4 * m - 1 else 4 * m - 2
    hi := 4 * m + 2
    scale := x.exponent - 2
    closed := m % 2 == 0 }

def decimalScale (x : Binary64) : Int :=
  let m := x.significand
  let guess : Int := ((Nat.log2 m : Int) + x.exponent) * 30103 / 100000
  let rec climb : Nat → Int → Int
    | 0, k => k
    | fuel + 1, k => if compareScaled 1 k m x.exponent == .gt then k else climb fuel (k + 1)
  climb 6 (guess - 1)

def gridFloor (x : Binary64) (e : Int) : Nat :=
  (x.significand * 2 ^ x.exponent.toNat * 10 ^ (-e).toNat) /
    (2 ^ (-x.exponent).toNat * 10 ^ e.toNat)

def gridPoint? (x : Binary64) (e : Int) : Option Nat :=
  let r := x.roundingInterval
  let c := x.gridFloor e
  let down := c ≠ 0 && r.contains c e
  let up := r.contains (c + 1) e
  if down && up then
    match compareScaled (2 * c + 1) e (2 * x.significand) x.exponent with
    | .lt => some (c + 1)
    | .gt => some c
    | .eq => some (if c % 2 == 0 then c else c + 1)
  else if down then some c
  else if up then some (c + 1)
  else none

/-- The shortest decimal in the rounding interval of a positive finite `x`, nearest to `x`
among those of its length, with trailing zeros removed. -/
def shortest (x : Binary64) : Decimal :=
  let k := x.decimalScale
  let found := (List.range' 1 17).findSome? fun (n : Nat) =>
    (x.gridPoint? (k - n)).map fun c => (⟨c, k - n⟩ : Decimal)
  (found.getD ⟨roundHalfEven (x.significand * 2 ^ x.exponent.toNat * 10 ^ (17 - k).toNat)
    (2 ^ (-x.exponent).toNat * 10 ^ (k - 17).toNat), k - 17⟩).normalize

end Binary64

namespace Decimal

def digitText (n : Nat) : String := toString n

def twoDigits (n : Nat) : String := if n < 10 then "0" ++ toString n else toString n

def render (d : Decimal) : String :=
  let s := digitText d.digits
  let len := s.length
  let point : Int := len + d.exponent
  if point ≤ -4 ∨ point > 16 then
    let mantissa :=
      if len = 1 then s
      else String.ofList (s.toList.take 1) ++ "." ++ String.ofList (s.toList.drop 1)
    let e := point - 1
    mantissa ++ "e" ++ (if e < 0 then "-" else "+") ++ twoDigits e.natAbs
  else if point ≤ 0 then
    "0." ++ String.ofList (List.replicate (-point).toNat '0') ++ s
  else if point ≥ len then
    s ++ String.ofList (List.replicate (point.toNat - len) '0') ++ ".0"
  else
    String.ofList (s.toList.take point.toNat) ++ "." ++ String.ofList (s.toList.drop point.toNat)

end Decimal

namespace Binary64

def toText (x : Binary64) : String :=
  if x.isNaN then "nan"
  else
    let sign := if x.signBit then "-" else ""
    if x.isInfinite then sign ++ "inf"
    else if x.isZero then sign ++ "0.0"
    else sign ++ x.shortest.render

end Binary64

end Clob
