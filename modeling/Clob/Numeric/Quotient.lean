import Clob.Numeric.Nearest
/-!
# Ratios of large naturals as binary64 values

`Binary64.quotient n d` turns a ratio of naturals (`d > 0`) into a binary64 value in four steps:

1. When both fit in 53 bits, it is the correctly rounded quotient.
2. Otherwise both are divided by their greatest common divisor, and step 1 is tried again.
3. Otherwise each is cut down to its top 53 bits (the bits below are dropped, not rounded), the
   two are divided with correct rounding, and the quotient is scaled back by the difference of
   the two cuts, rounding once more if it lands among the subnormals.
4. If that scaling overflows, the quotient is taken to 60 significant decimal digits, a half
   going to the even digit, and that decimal is rounded to binary64, which may be infinite.

Steps 3 and 4 round twice, so the result can differ from the correctly rounded quotient in the
last place.
-/

namespace Clob

def bitLength (n : Nat) : Nat := if n = 0 then 0 else Nat.log2 n + 1

def fits53 (n : Nat) : Bool := n < 2 ^ 53

def decimalLength (n : Nat) : Nat := (toString n).length

namespace Binary64

def floorLog10 (num den : Nat) : Int :=
  let e : Int := (decimalLength num : Int) - decimalLength den
  if den * 10 ^ e.toNat ≤ num * 10 ^ (-e).toNat then e else e - 1

/-- `num / den` to `60` significant decimal digits, a half going to the even digit, then rounded
to the nearest binary64 value. -/
def decimalQuotient (num den : Nat) : Binary64 :=
  if num = 0 ∨ den = 0 then zero
  else
    let t := floorLog10 num den - 59
    let c := roundHalfEven (num * 10 ^ (-t).toNat) (den * 10 ^ t.toNat)
    nearest false (c * 10 ^ t.toNat) (10 ^ (-t).toNat)

/-- The ratio `n / d` by steps 1 to 3 above, or `none` when the scaling of step 3 overflows. -/
def scaledQuotient? (n d : Nat) : Option Binary64 :=
  if fits53 n && fits53 d then some (nearest false n d)
  else
    let g := Nat.gcd n d
    let n' := n / g
    let d' := d / g
    if fits53 n' && fits53 d' then some (nearest false n' d')
    else
      let ns := bitLength n' - 53
      let ds := bitLength d' - 53
      (nearest false (n' / 2 ^ ns) (d' / 2 ^ ds)).scaleB? ((ns : Int) - ds)

def quotient (n d : Nat) : Binary64 :=
  match scaledQuotient? n d with
  | some r => r
  | none => decimalQuotient n d

end Binary64

end Clob
