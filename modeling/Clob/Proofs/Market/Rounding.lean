import Mathlib.Algebra.Group.Nat.Even
import Clob.Proofs.Market.Refusals
/-!
# Numbers to lots, rounded to the nearest

A conversion of a number to lots scales the exact value of the binary64 number by a ratio of the
market's lot sizes and multipliers and rounds the result to the nearest integer, a half going to
the even one. The scaling is exact: the value `significand * 2 ^ exponent` is kept as a ratio of
naturals (`Binary64.toRatio`), multiplied out, and rounded by `roundHalfEven`, which gives the
integer within a half of the ratio, and exactly a half only when it is even
(`roundHalfEven_isNearestEven`).

Such a rounding is monotone and gives `L` for every value strictly within a half of `L`
(`IsNearestEven.mono`, `IsNearestEven.eq_of_abs_lt`), so the five conversions of a market are
(`Lots.numbers_round_to_nearest_lot`).
-/

namespace Clob

/-- `L` is the integer nearest to `v`, a half going to the even one: `L` is within a half of `v`,
and exactly a half only when `L` is even. -/
def IsNearestEven (v : ℚ) (L : ℕ) : Prop :=
  |v - L| < 1 / 2 ∨ (|v - L| = 1 / 2 ∧ Even L)

namespace IsNearestEven

variable {v w : ℚ} {L L' : ℕ}

theorem abs_sub_le_half (h : IsNearestEven v L) : |v - L| ≤ 1 / 2 := by
  rcases h with h | ⟨h, -⟩
  · exact h.le
  · exact h.le

theorem abs_sub_le (h : IsNearestEven v L) (k : ℤ) : |v - L| ≤ |v - k| := by
  rcases eq_or_ne k L with rfl | hk
  · simp
  have hone : (1 : ℚ) ≤ |(L : ℚ) - k| := by
    have : (1 : ℤ) ≤ |(L : ℤ) - k| := Int.one_le_abs (sub_ne_zero.mpr (Ne.symm hk))
    exact_mod_cast this
  have htri : |(L : ℚ) - k| ≤ |v - L| + |v - k| := by
    calc |(L : ℚ) - k| = |(v - k) - (v - L)| := by ring_nf
      _ ≤ |v - k| + |v - L| := abs_sub _ _
      _ = |v - L| + |v - k| := add_comm _ _
  linarith [h.abs_sub_le_half]

theorem even_of_abs_eq (h : IsNearestEven v L) (hhalf : |v - L| = 1 / 2) : Even L := by
  rcases h with h | ⟨-, he⟩
  · rw [hhalf] at h
    exact absurd h (lt_irrefl _)
  · exact he

theorem eq_of_abs_lt (h : IsNearestEven v L') (hL : |v - L| < 1 / 2) : L' = L := by
  have hle := h.abs_sub_le L
  have htri : |(L' : ℚ) - L| < 1 := by
    calc |(L' : ℚ) - L| = |(v - L) - (v - L')| := by ring_nf
      _ ≤ |v - L| + |v - L'| := abs_sub _ _
      _ < 1 := by push_cast at hle; linarith
  have : |(L' : ℤ) - L| < 1 := by exact_mod_cast htri
  have := abs_lt.mp this
  omega

theorem mono (hvw : v ≤ w) (h : IsNearestEven v L) (h' : IsNearestEven w L') : L ≤ L' := by
  by_contra hlt
  have hlt : L' + 1 ≤ L := by omega
  have hltq : (L' : ℚ) + 1 ≤ L := by exact_mod_cast hlt
  have hv := abs_le.mp h.abs_sub_le_half
  have hw := abs_le.mp h'.abs_sub_le_half
  have hvL : v - L = -(1 / 2) := by linarith
  have hwL : w - L' = 1 / 2 := by linarith
  have hstep : (L : ℚ) = L' + 1 := by linarith
  have heven : Even L := h.even_of_abs_eq (by rw [hvL]; norm_num)
  have heven' : Even L' := h'.even_of_abs_eq (by rw [hwL]; norm_num)
  have hstepN : L = L' + 1 := by exact_mod_cast hstep
  rw [hstepN, Nat.even_add_one] at heven
  exact heven heven'

end IsNearestEven

theorem abs_div_sub_eq {N D L : Nat} (hD : 0 < D) :
    |(N : ℚ) / D - L| = ((N - D * L + (D * L - N) : Nat) : ℚ) / D := by
  have hDq : (0 : ℚ) < D := by exact_mod_cast hD
  rw [show (N : ℚ) / D - L = ((N : ℚ) - D * L) / D by rw [sub_div, mul_div_cancel_left₀ _ hDq.ne'],
    abs_div, abs_of_pos hDq]
  congr 1
  rcases le_total N (D * L) with h | h
  · rw [Nat.sub_eq_zero_of_le h, Nat.zero_add, Nat.cast_sub h, abs_of_nonpos (by
      have : (N : ℚ) ≤ D * L := by exact_mod_cast h
      linarith)]
    push_cast
    ring
  · rw [Nat.sub_eq_zero_of_le h, Nat.add_zero, Nat.cast_sub h, abs_of_nonneg (by
      have : (D : ℚ) * L ≤ N := by exact_mod_cast h
      linarith)]
    push_cast
    ring

theorem isNearestEven_div_iff {N D L : Nat} (hD : 0 < D) :
    IsNearestEven ((N : ℚ) / D) L ↔
      2 * (N - D * L + (D * L - N)) < D ∨ (2 * (N - D * L + (D * L - N)) = D ∧ L % 2 = 0) := by
  have hDq : (0 : ℚ) < D := by exact_mod_cast hD
  have hlt : ∀ e : Nat, (e : ℚ) * 2 < 1 * D ↔ 2 * e < D := fun e => by
    rw [mul_comm, one_mul]
    norm_cast
  have heq : ∀ e : Nat, (e : ℚ) * 2 = 1 * D ↔ 2 * e = D := fun e => by
    rw [mul_comm, one_mul]
    norm_cast
  rw [IsNearestEven, abs_div_sub_eq hD, div_lt_div_iff₀ hDq two_pos,
    div_eq_div_iff hDq.ne' two_ne_zero, Nat.even_iff, hlt, heq]

theorem roundHalfEven_isNearestEven (N : Nat) {D : Nat} (hD : 0 < D) :
    IsNearestEven ((N : ℚ) / D) (roundHalfEven N D) := by
  rw [isNearestEven_div_iff hD]
  have hsplit := Nat.div_add_mod N D
  have hr := Nat.mod_lt N hD
  have hnext : D * (N / D + 1) = D * (N / D) + D := Nat.mul_add_one _ _
  simp only [roundHalfEven]
  split_ifs <;> omega

namespace Binary64

def toRat (x : Binary64) : ℚ :=
  (if x.signBit then -(x.significand : ℚ) else x.significand) * 2 ^ x.exponent

theorem significand_eq_zero {x : Binary64} (h : x.isZero = true) : x.significand = 0 := by
  have hmag : x.magnitude = 0 := by simpa [isZero] using h
  have hfield : x.field = 0 := by simp [field, hmag]
  have hfrac : x.fraction = 0 := by
    simp only [fraction]
    simp only [magnitude] at hmag
    rw [← Nat.mod_mod_of_dvd x.bits.toNat (by decide : 2 ^ 52 ∣ 2 ^ 63), hmag, Nat.zero_mod]
  simp [significand, hfield, hfrac]

theorem toRat_eq_ratio {x : Binary64} (hx : x.isFinite = true) (h : x.below zero = false) :
    x.toRat = (x.toRatio.2.1 : ℚ) / x.toRatio.2.2 := by
  have hratio : ((x.toRatio.2.1 : ℕ) : ℚ) / (x.toRatio.2.2 : ℕ) =
      x.significand * 2 ^ x.exponent := by
    simp only [toRatio]
    rw [two_zpow_eq_ratio]
    push_cast
    ring
  rw [hratio, toRat]
  rw [below_zero_eq hx] at h
  cases hs : x.signBit
  · simp
  · have hzero : x.isZero = true := by simpa [hs] using h
    simp [significand_eq_zero hzero]

theorem atLeast_zero_eq {x : Binary64} (hx : x.isFinite = true) :
    x.atLeast zero = !x.below zero := by
  simp only [atLeast, below, isNaN_eq_false_of_isFinite hx, NonNeg.zero.isNaN_eq, orderKey_zero]
  by_cases h : x.orderKey < 0
  · simp [h]
  · simp [h, Int.not_lt.mp h]

end Binary64

namespace Lots

open Binary64

/-- A conversion of numbers to counts that rounds the exact value of a finite value `x ≥ 0`,
times `factor`, to the nearest integer, a half going to the even one. It is then monotone in the
value, and gives `L` for every value whose scaled value lies strictly within a half of `L`. -/
structure RoundsToNearest (convert : Binary64 → Except Fault Nat) (factor : ℚ) : Prop where
  rounds : ∀ x, x.isFinite = true → x.atLeast zero = true →
    ∃ L, convert x = .ok L ∧ IsNearestEven (x.toRat * factor) L
  mono : ∀ x y L L', x.isFinite = true → y.isFinite = true → x.atLeast zero = true →
    y.atLeast zero = true → x.toRat ≤ y.toRat → convert x = .ok L → convert y = .ok L' → L ≤ L'
  eq_of_near : ∀ x (L : ℕ), x.isFinite = true → x.atLeast zero = true →
    |x.toRat * factor - L| < 1 / 2 → convert x = .ok L

theorem RoundsToNearest.of_rounds {convert : Binary64 → Except Fault Nat} {factor : ℚ}
    (hf : 0 ≤ factor)
    (h : ∀ x, x.isFinite = true → x.atLeast zero = true →
      ∃ L, convert x = .ok L ∧ IsNearestEven (x.toRat * factor) L) :
    RoundsToNearest convert factor where
  rounds := h
  mono := by
    intro x y L L' hx hy hx0 hy0 hxy hL hL'
    obtain ⟨L₁, h₁, hn₁⟩ := h x hx hx0
    obtain ⟨L₂, h₂, hn₂⟩ := h y hy hy0
    rw [hL, Except.ok.injEq] at h₁
    rw [hL', Except.ok.injEq] at h₂
    subst h₁ h₂
    exact hn₁.mono (mul_le_mul_of_nonneg_right hxy hf) hn₂
  eq_of_near := by
    intro x L hx hx0 hnear
    obtain ⟨L₁, h₁, hn₁⟩ := h x hx hx0
    rw [h₁, hn₁.eq_of_abs_lt hnear]

theorem roundsToNearest_ofNumber (measure : Measure) (num : Nat) {den : Nat} (hden : 0 < den) :
    RoundsToNearest (fun x => ofNumber measure x num den) ((num : ℚ) / den) := by
  refine RoundsToNearest.of_rounds (by positivity) fun x hx hx0 => ?_
  have hbelow : x.below zero = false := by simpa [atLeast_zero_eq hx] using hx0
  refine ⟨_, by rw [ofNumber_eq, if_neg (by simp [hx]), if_neg (by simp [hbelow])], ?_⟩
  have hb : 0 < x.toRatio.2.2 := by simp [toRatio]
  have hvalue : ((x.toRatio.2.1 * num : Nat) : ℚ) / ((x.toRatio.2.2 * den : Nat) : ℚ) =
      x.toRat * ((num : ℚ) / den) := by
    rw [toRat_eq_ratio hx hbelow]
    push_cast
    rw [mul_div_mul_comm]
  rw [← hvalue]
  exact roundHalfEven_isNearestEven _ (Nat.mul_pos hb hden)

theorem roundsToNearest_ofNumber_one (measure : Measure) (num : Nat) :
    RoundsToNearest (fun x => ofNumber measure x num 1) (num : ℚ) := by
  have h := roundsToNearest_ofNumber measure num Nat.one_pos
  rwa [Nat.cast_one, div_one] at h

/-- For every market each conversion of numbers to lots or to native amounts takes a finite
value `x ≥ 0` to the integer nearest to its exact value times the conversion's factor, a half
going to the even integer: `quote_multiplier * base_lot_size / (base_multiplier * quote_lot_size)`
for prices, `base_multiplier / base_lot_size` and `quote_multiplier / quote_lot_size` for sizes in
lots, and the multiplier for native amounts. Each is therefore monotone, and gives `L` for every
value whose scaled value lies strictly within a half of `L`. -/
theorem numbers_round_to_nearest_lot (m : MarketConfig) :
    RoundsToNearest m.priceLots
      ((m.quoteMultiplier * m.baseLotSize : ℚ) / (m.baseMultiplier * m.quoteLotSize)) ∧
    RoundsToNearest m.baseSizeLots ((m.baseMultiplier : ℚ) / m.baseLotSize) ∧
    RoundsToNearest m.quoteSizeLots ((m.quoteMultiplier : ℚ) / m.quoteLotSize) ∧
    RoundsToNearest m.baseNative (m.baseMultiplier : ℚ) ∧
    RoundsToNearest m.quoteNative (m.quoteMultiplier : ℚ) := by
  have hB := m.baseMultiplier_pos
  refine ⟨?_, roundsToNearest_ofNumber _ _ m.baseLotSize_pos,
    roundsToNearest_ofNumber _ _ m.quoteLotSize_pos, roundsToNearest_ofNumber_one _ _,
    roundsToNearest_ofNumber_one _ _⟩
  have h := roundsToNearest_ofNumber .price (m.quoteMultiplier * m.baseLotSize)
    (Nat.mul_pos hB m.quoteLotSize_pos)
  push_cast at h
  exact h

theorem unitMarket_price_rounds :
    (ofBits 0x4004000000000000).isFinite = true ∧
      (ofBits 0x4004000000000000).atLeast zero = true ∧
      ∃ L, MarketConfig.priceLots (.ofSizes 1 1 0 0)
          (ofBits 0x4004000000000000) = .ok L ∧
        IsNearestEven ((ofBits 0x4004000000000000).toRat * ((10 ^ 0 * 1 : ℚ) / (10 ^ 0 * 1))) L := by
  have hfin : (ofBits 0x4004000000000000).isFinite = true := by decide
  have hpos : (ofBits 0x4004000000000000).atLeast zero = true := by decide
  exact ⟨hfin, hpos, (numbers_round_to_nearest_lot (.ofSizes 1 1 0 0)).1.rounds _ hfin hpos⟩

example :
    (MarketConfig.priceLots (.ofSizes 1 1 0 0)
        (ofBits 0x4004000000000000)).toOption = some 2 ∧
      (MarketConfig.priceLots (.ofSizes 1 1 0 0)
        (ofBits 0x400C000000000000)).toOption = some 4 := by
  decide +kernel

end Lots

end Clob
