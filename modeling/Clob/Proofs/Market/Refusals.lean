import Clob.Proofs.Numeric.Monotone
import Clob.Proofs.Queue.Fills
/-!
# What the conversions refuse

A ratio of integers is refused when its denominator is zero, then when an operand is negative
(`Lots.ratio_eq`). Past those guards every division the quotient makes is by a positive divisor,
the truncating step's of at most 53 bits (`Binary64.scaledQuotient?_divisor`), and a scaling that
overflows falls back to the decimal step. That step writes both operands in decimal, which
refuses an integer of more than `Numeric.maxIntegerDigits` digits: so a quotient is refused
exactly when its truncating step overflows and an operand is at least `10 ^ 4300`
(`Lots.checkedQuotient_eq`).

For a market the conversions of lot counts and native amounts refuse a negative count, and of the
others only one whose numerator is that long (`Lots.AmountRefusals`): their denominators are
positive and, for a valid market, far shorter. On counts of 64 bits they refuse nothing and give
the book's own conversions of the count (`Lots.ofAmount_of_word_count`). The conversions of
numbers refuse a value that is not finite, then one below zero, and convert every other
(`Lots.NumberRefusals`); the zero of either sign is converted.
-/

namespace Clob

theorem maxIntegerDigits_lt_decimalLength_iff (n : Nat) :
    Numeric.maxIntegerDigits < decimalLength n ↔ 10 ^ Numeric.maxIntegerDigits ≤ n := by
  rw [← Nat.not_le, decimalLength, Nat.toString_eq_repr,
    Nat.length_repr_le_iff (by decide : 0 < Numeric.maxIntegerDigits), Nat.not_lt]

namespace Binary64

theorem scaledQuotient?_divisor (n : Nat) {d : Nat} (hd : 0 < d) :
    ∃ a b, 0 < b ∧ (scaledQuotient? n d = some (nearest false a b) ∨
      b < 2 ^ 53 ∧ ∃ k, scaledQuotient? n d = (nearest false a b).scaleB? k) := by
  have hg : 0 < Nat.gcd n d := Nat.gcd_pos_of_pos_right _ hd
  have hd' : 1 ≤ d / Nat.gcd n d := Nat.div_pos (Nat.gcd_le_right _ hd) hg
  simp only [scaledQuotient?]
  split
  · exact ⟨n, d, hd, .inl rfl⟩
  split
  · exact ⟨_, _, hd', .inl rfl⟩
  · obtain ⟨hlo, hhi⟩ := truncate53_bounds hd'
    exact ⟨_, _, hlo, .inr ⟨hhi, _, rfl⟩⟩

theorem isFinite_eq_false_iff (x : Binary64) : x.isFinite = false ↔ x.isNaN ∨ x.isInfinite := by
  simp only [isFinite, isNaN, isInfinite, bne_eq_false_iff_eq, Bool.and_eq_true, beq_iff_eq,
    bne_iff_ne, ne_eq]
  omega

theorem isNaN_eq_false_of_isFinite {x : Binary64} (hx : x.isFinite = true) : x.isNaN = false := by
  simp only [isFinite, bne_iff_ne, ne_eq] at hx
  simp [isNaN, hx]

theorem below_zero_eq {x : Binary64} (hx : x.isFinite = true) :
    x.below zero = (x.signBit && !x.isZero) := by
  simp only [below, isNaN_eq_false_of_isFinite hx, NonNeg.zero.isNaN_eq, orderKey_zero]
  unfold orderKey isZero
  cases x.signBit <;> cases x.magnitude <;> simp <;> omega

end Binary64

namespace Lots

open Binary64

/-- The quotients that `checkedQuotient` refuses: the truncating step overflows, so the decimal
step is taken, and an operand has more than `Numeric.maxIntegerDigits` digits. -/
def Unwritable (n d : Nat) : Prop :=
  scaledQuotient? n d = none ∧
    (10 ^ Numeric.maxIntegerDigits ≤ n ∨ 10 ^ Numeric.maxIntegerDigits ≤ d)

instance (n d : Nat) : Decidable (Unwritable n d) := inferInstanceAs (Decidable (_ ∧ _))

theorem checkedQuotient_eq (n d : Nat) :
    checkedQuotient n d =
      if Unwritable n d then .error .integerTooLongForText else .ok (quotient n d) := by
  simp only [checkedQuotient, Unwritable, Option.isNone_iff_eq_none, gt_iff_lt,
    maxIntegerDigits_lt_decimalLength_iff]
  congr

theorem ratio_eq (n d : Int) :
    ratio n d =
      if d = 0 then .error .denominatorZero
      else if n < 0 ∨ d < 0 then .error (.operandNegative n d)
      else if Unwritable n.toNat d.toNat then .error .integerTooLongForText
      else .ok (quotient n.toNat d.toNat) := by
  rw [ratio, checkedQuotient_eq]

/-- A conversion of integer amounts whose ratios are `terms` refuses a negative amount as
`measure`; of the others it refuses only one whose numerator has more than
`Numeric.maxIntegerDigits` digits when its quotient overflows the truncating step, and gives the
quotient of every other. Its denominators are positive. -/
def AmountRefusals (measure : Measure) (terms : Nat → Nat × Nat) : Prop :=
  ∀ v : Int, 0 < (terms v.toNat).2 ∧
    ofAmount measure terms v =
      if v < 0 then .error (.amountNegative measure v)
      else if scaledQuotient? (terms v.toNat).1 (terms v.toNat).2 = none ∧
          10 ^ Numeric.maxIntegerDigits ≤ (terms v.toNat).1 then .error .integerTooLongForText
      else .ok (quotient (terms v.toNat).1 (terms v.toNat).2)

theorem amountRefusals_of_denominator {measure : Measure} {terms : Nat → Nat × Nat}
    (h : ∀ k, 0 < (terms k).2 ∧ (terms k).2 < 10 ^ Numeric.maxIntegerDigits) :
    AmountRefusals measure terms := by
  intro v
  refine ⟨(h v.toNat).1, ?_⟩
  have hshort : ¬ 10 ^ Numeric.maxIntegerDigits ≤ (terms v.toNat).2 :=
    Nat.not_le.mpr (h v.toNat).2
  simp only [ofAmount, checkedQuotient_eq, Unwritable, hshort, or_false]

/-- A conversion of numbers refuses, as `measure`, a value that is not finite, then a finite value
below zero, and converts every other value. -/
def NumberRefusals (measure : Measure) (convert : Binary64 → Except Fault Nat) : Prop :=
  ∀ x : Binary64,
    (convert x = .error (.numberNotFinite measure x) ↔ x.isNaN ∨ x.isInfinite) ∧
    (convert x = .error (.numberNegative measure x) ↔ x.isFinite ∧ x.below zero) ∧
    (x.isFinite → x.below zero = false → ∃ k, convert x = .ok k)

theorem ofNumber_eq (measure : Measure) (x : Binary64) (num den : Nat) :
    ofNumber measure x num den =
      if x.isFinite = false then .error (.numberNotFinite measure x)
      else if x.below zero then .error (.numberNegative measure x)
      else .ok (roundHalfEven (x.toRatio.2.1 * num) (x.toRatio.2.2 * den)) := by
  cases hfin : x.isFinite
  · simp [ofNumber, hfin]
  · simp [ofNumber, hfin, below_zero_eq hfin]

theorem numberRefusals_ofNumber (measure : Measure) (num den : Nat) :
    NumberRefusals measure fun x => ofNumber measure x num den := by
  intro x
  dsimp only
  rw [ofNumber_eq, ← isFinite_eq_false_iff]
  cases hfin : x.isFinite <;> cases hbelow : x.below zero <;> simp

end Lots

namespace MarketConfig

variable {m : MarketConfig}

theorem Valid.denominators_short (hm : m.Valid) :
    m.baseLotSize * m.quoteMultiplier < 10 ^ Numeric.maxIntegerDigits ∧
      m.baseMultiplier < 10 ^ Numeric.maxIntegerDigits ∧
      m.quoteMultiplier < 10 ^ Numeric.maxIntegerDigits := by
  have hwide : 2 ^ 164 ≤ 10 ^ Numeric.maxIntegerDigits :=
    (Nat.pow_le_pow_left (by decide) 164).trans (Nat.pow_le_pow_right (by decide) (by decide))
  have hprice : m.baseLotSize * m.quoteMultiplier < 2 ^ 164 :=
    mul_lt_two_pow hm.baseLotSize_lt hm.quoteMultiplier_lt
  have hmul : 2 ^ 100 < 2 ^ 164 := Nat.pow_lt_pow_right (by decide) (by decide)
  exact ⟨lt_of_lt_of_le hprice hwide, by have := hm.baseMultiplier_lt; omega,
    by have := hm.quoteMultiplier_lt; omega⟩

end MarketConfig

namespace Lots

open Binary64

/-- On a valid market each conversion of lot counts or native amounts to numbers refuses a
negative count, and of the others only one whose numerator has more than
`Numeric.maxIntegerDigits` digits and whose quotient overflows the truncating step; each
conversion of numbers to lots refuses a value that is not finite, then one below zero, and
converts every other. A ratio of integers is refused for a zero denominator, then for a negative
operand, then when it cannot be written; every division it makes is by a positive divisor, in
the truncating step one of at most 53 bits. A zero denominator is a division fault and every
other refusal a value fault. -/
theorem conversions_refuse_negatives_and_overlong_numerators (m : MarketConfig) (hm : m.Valid) :
    (AmountRefusals .priceLots m.priceRatio ∧ AmountRefusals .sizeLots m.baseSizeRatio ∧
      AmountRefusals .sizeLots m.quoteSizeRatio ∧ AmountRefusals .nativeBase m.baseAmountRatio ∧
      AmountRefusals .nativeQuote m.quoteAmountRatio) ∧
    (NumberRefusals .price m.priceLots ∧ NumberRefusals .size m.baseSizeLots ∧
      NumberRefusals .size m.quoteSizeLots ∧ NumberRefusals .size m.baseNative ∧
      NumberRefusals .size m.quoteNative) ∧
    (∀ n d : Int, ratio n d =
      if d = 0 then .error .denominatorZero
      else if n < 0 ∨ d < 0 then .error (.operandNegative n d)
      else if Unwritable n.toNat d.toNat then .error .integerTooLongForText
      else .ok (quotient n.toNat d.toNat)) ∧
    (∀ n d : Nat, 0 < d → ∃ a b, 0 < b ∧ (scaledQuotient? n d = some (nearest false a b) ∨
      b < 2 ^ 53 ∧ ∃ k, scaledQuotient? n d = (nearest false a b).scaleB? k)) ∧
    Fault.denominatorZero.kind = .zeroDivision ∧ Fault.integerTooLongForText.kind = .value ∧
    ∀ (μ : Measure) (v n d : Int) (x : Binary64), (Fault.amountNegative μ v).kind = .value ∧
      (Fault.operandNegative n d).kind = .value ∧ (Fault.numberNotFinite μ x).kind = .value ∧
      (Fault.numberNegative μ x).kind = .value := by
  obtain ⟨hprice, hbase, hquote⟩ := hm.denominators_short
  have hB := m.baseMultiplier_pos
  have hQ := m.quoteMultiplier_pos
  refine ⟨⟨?_, ?_, ?_, ?_, ?_⟩, ⟨?_, ?_, ?_, ?_, ?_⟩, ratio_eq, fun n d hd =>
    scaledQuotient?_divisor n hd, rfl, rfl, fun _ _ _ _ _ => ⟨rfl, rfl, rfl, rfl⟩⟩
  · exact amountRefusals_of_denominator fun _ => ⟨Nat.mul_pos m.baseLotSize_pos hQ, hprice⟩
  · exact amountRefusals_of_denominator fun _ => ⟨hB, hbase⟩
  · exact amountRefusals_of_denominator fun _ => ⟨hQ, hquote⟩
  · exact amountRefusals_of_denominator fun _ => ⟨hB, hbase⟩
  · exact amountRefusals_of_denominator fun _ => ⟨hQ, hquote⟩
  all_goals exact numberRefusals_ofNumber _ _ _

def thirtyDecimalMarket : MarketConfig := .ofSizes 1 1 30 0

theorem thirtyDecimalMarket_refusals :
    thirtyDecimalMarket.Valid ∧ AmountRefusals .priceLots thirtyDecimalMarket.priceRatio := by
  have hm : thirtyDecimalMarket.Valid := thirtyDecimalMarket.valid
  exact ⟨hm, (conversions_refuse_negatives_and_overlong_numerators _ hm).1.1⟩

/-- A count of `10 ^ 4299` price lots is not negative, yet its conversion on the market with thirty
base decimals is refused with a value fault: the numerator `10 ^ 4329` overflows the truncating
step, and the decimal step cannot write it. -/
theorem overlongCount_refused :
    (0 : Int) ≤ ((10 ^ 4299 : Nat) : Int) ∧
      ofAmount .priceLots thirtyDecimalMarket.priceRatio ((10 ^ 4299 : Nat) : Int) =
        .error .integerTooLongForText ∧
      Fault.integerTooLongForText.kind = .value := by
  have hunw : Unwritable (thirtyDecimalMarket.priceRatio (10 ^ 4299)).1
      (thirtyDecimalMarket.priceRatio (10 ^ 4299)).2 := by
    decide +kernel
  refine ⟨Int.natCast_nonneg _, ?_, rfl⟩
  rw [ofAmount, if_neg (Int.not_lt.mpr (Int.natCast_nonneg _)), Int.toNat_natCast,
    checkedQuotient_eq, if_pos hunw]

end Lots

end Clob
