import Clob.Market.Config
import Clob.Numeric.Quotient
/-!
# Lot conversions and fees

Prices and sizes rest on the book as integers of lots. With base and quote multipliers `B` and
`Q` (ten to the token decimals) and lot sizes `b` and `q`:

* a price of `p` lots is `p * q * B / (b * Q)` quote tokens per base token;
* a size of `s` base lots is `s * b / B` base tokens, and of `s` quote lots `s * q / Q` quote
  tokens;
* a native amount `a` is `a / B` base tokens or `a / Q` quote tokens.

Lots become numbers through `Binary64.quotient`; numbers become lots by rounding the exact value
of the binary64 number times the inverse factor to the nearest integer, a half going to the even
integer. Both directions refuse negative input, and numbers must be finite.

A lot count given from outside may be of any size. Its conversion, like `Lots.ratio`, is the
same quotient, except that it writes both operands as decimal text when the last step of the
quotient is reached, and that refuses an integer of more than `Numeric.maxIntegerDigits`
digits. A market's own values (lot sizes below `2 ^ 64`, at most 30 decimals) never come near
that.

Every order and fill carries a fee tier. A tier fixes the taker fee rate and the maker rate,
negative because makers are paid a rebate, both as fractions of the quote amount traded. A tier
outside the schedule is charged as tier `0`. A tier is earned by holding discount tokens: any
holding of at least one of the larger token gives the top tier, otherwise the balance of the
smaller token is compared with thresholds from the highest down.
-/

namespace Clob

namespace MarketConfig

def priceRatio (m : MarketConfig) (lots : Nat) : Nat × Nat :=
  (lots * m.quoteLotSize * m.baseMultiplier, m.baseLotSize * m.quoteMultiplier)

def baseSizeRatio (m : MarketConfig) (lots : Nat) : Nat × Nat :=
  (lots * m.baseLotSize, m.baseMultiplier)

def quoteSizeRatio (m : MarketConfig) (lots : Nat) : Nat × Nat :=
  (lots * m.quoteLotSize, m.quoteMultiplier)

def baseAmountRatio (m : MarketConfig) (native : Nat) : Nat × Nat :=
  (native, m.baseMultiplier)

def quoteAmountRatio (m : MarketConfig) (native : Nat) : Nat × Nat :=
  (native, m.quoteMultiplier)

def price (m : MarketConfig) (lots : Nat) : Binary64 :=
  Binary64.quotient (m.priceRatio lots).1 (m.priceRatio lots).2

def baseSize (m : MarketConfig) (lots : Nat) : Binary64 :=
  Binary64.quotient (m.baseSizeRatio lots).1 (m.baseSizeRatio lots).2

def quoteSize (m : MarketConfig) (lots : Nat) : Binary64 :=
  Binary64.quotient (m.quoteSizeRatio lots).1 (m.quoteSizeRatio lots).2

def baseAmount (m : MarketConfig) (native : Nat) : Binary64 :=
  Binary64.quotient (m.baseAmountRatio native).1 (m.baseAmountRatio native).2

def quoteAmount (m : MarketConfig) (native : Nat) : Binary64 :=
  Binary64.quotient (m.quoteAmountRatio native).1 (m.quoteAmountRatio native).2

def tickSize (m : MarketConfig) : Binary64 := m.price 1

def minOrderSize (m : MarketConfig) : Binary64 := m.baseSize 1

end MarketConfig

namespace Lots

/-- `Binary64.quotient n d`, refused when the quotient reaches its decimal step with an operand
of more than `Numeric.maxIntegerDigits` decimal digits. -/
def checkedQuotient (n d : Nat) : Except Fault Binary64 :=
  if (Binary64.scaledQuotient? n d).isNone ∧
      (decimalLength n > Numeric.maxIntegerDigits ∨
        decimalLength d > Numeric.maxIntegerDigits) then
    .error .integerTooLongForText
  else .ok (Binary64.quotient n d)

theorem checkedQuotient_of_scaled {n d : Nat} {r : Binary64}
    (h : Binary64.scaledQuotient? n d = some r) : checkedQuotient n d = .ok r := by
  simp [checkedQuotient, Binary64.quotient, h]

/-- The ratio `n / d` of integers as a binary64 value: a zero denominator is refused first, then
a negative operand, then (by `checkedQuotient`) an operand too long to write. -/
def ratio (n d : Int) : Except Fault Binary64 :=
  if d = 0 then .error .denominatorZero
  else if n < 0 ∨ d < 0 then .error (.operandNegative n d)
  else checkedQuotient n.toNat d.toNat

/-- The value of the ratio `terms amount` for a nonnegative `amount` (by `checkedQuotient`); a
negative one is refused as `measure`. -/
def ofAmount (measure : Measure) (terms : Nat → Nat × Nat) (amount : Int) :
    Except Fault Binary64 :=
  if amount < 0 then .error (.amountNegative measure amount)
  else checkedQuotient (terms amount.toNat).1 (terms amount.toNat).2

/-- The exact value of `x * num / den` rounded to the nearest integer, a half going to the even
one, for a finite nonnegative `x`; others are refused as `measure`, a non-finite value first.
The zero of either sign is nonnegative. -/
def ofNumber (measure : Measure) (x : Binary64) (num den : Nat) : Except Fault Nat :=
  if !x.isFinite then .error (.numberNotFinite measure x)
  else if x.signBit && !x.isZero then .error (.numberNegative measure x)
  else
    let (_, a, b) := x.toRatio
    .ok (roundHalfEven (a * num) (b * den))

/-- The binary64 value nearest to an integer, a tie going to the even one; an integer whose
nearest value is beyond the largest finite one (from `2 ^ 1024 - 2 ^ 970` on, in size) is
refused. -/
def numberOfInteger (n : Int) : Except Fault Binary64 :=
  let x := Binary64.nearest (n < 0) n.natAbs 1
  if x.isFinite then .ok x else .error .integerTooLargeForNumber

def readNumber (s : CodeText) : Except Fault Binary64 :=
  match s.toString?.bind Binary64.read? with
  | some x => .ok x
  | none => .error (.numberTextInvalid s)

end Lots

namespace MarketConfig

def priceLots (m : MarketConfig) (x : Binary64) : Except Fault Nat :=
  Lots.ofNumber .price x (m.quoteMultiplier * m.baseLotSize) (m.baseMultiplier * m.quoteLotSize)

def baseSizeLots (m : MarketConfig) (x : Binary64) : Except Fault Nat :=
  Lots.ofNumber .size x m.baseMultiplier m.baseLotSize

def quoteSizeLots (m : MarketConfig) (x : Binary64) : Except Fault Nat :=
  Lots.ofNumber .size x m.quoteMultiplier m.quoteLotSize

def baseNative (m : MarketConfig) (x : Binary64) : Except Fault Nat :=
  Lots.ofNumber .size x m.baseMultiplier 1

def quoteNative (m : MarketConfig) (x : Binary64) : Except Fault Nat :=
  Lots.ofNumber .size x m.quoteMultiplier 1

end MarketConfig

structure FeeRates where
  taker : Binary64
  maker : Binary64
  deriving DecidableEq, Repr

namespace FeeRates

def ofTier (tier : Int) : FeeRates :=
  let rebate := Binary64.ofDecimal true 3 (-4)
  match tier with
  | 1 => ⟨Binary64.ofDecimal false 20 (-4), rebate⟩
  | 2 => ⟨Binary64.ofDecimal false 18 (-4), rebate⟩
  | 3 => ⟨Binary64.ofDecimal false 16 (-4), rebate⟩
  | 4 => ⟨Binary64.ofDecimal false 14 (-4), rebate⟩
  | 5 => ⟨Binary64.ofDecimal false 12 (-4), rebate⟩
  | 6 => ⟨Binary64.ofDecimal false 10 (-4), Binary64.ofDecimal true 5 (-4)⟩
  | _ => ⟨Binary64.ofDecimal false 22 (-4), rebate⟩

end FeeRates

def discountThresholds : List (Nat × Nat) :=
  [(1000000, 5), (100000, 4), (10000, 3), (1000, 2), (100, 1)]

def feeTierOf (large small : Binary64) : Nat :=
  if large.atLeast (Binary64.ofDecimal false 1 0) then 6
  else
    match discountThresholds.find? fun (t, _) => small.atLeast (Binary64.ofDecimal false t 0) with
    | some (_, tier) => tier
    | none => 0

end Clob
