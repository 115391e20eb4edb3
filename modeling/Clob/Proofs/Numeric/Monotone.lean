import Clob.Market.Lots
import Clob.Proofs.Numeric.Quotient
/-!
# Order of quotients

Rounding a ratio to the nearest binary64 value keeps the order of ratios
(`Binary64.nearestMagnitude_mono`) and depends on the ratio only
(`Binary64.nearestMagnitude_mul_left`). The first two steps of `Binary64.quotient`, direct
division of operands of at most 53 bits and division once both are divided by their greatest
common divisor, therefore give the correctly rounded quotient, and of two numerators over one
denominator the larger gives the larger quotient (`Binary64.ExactStep`).

The truncating step keeps neither. It cuts the reduced numerator to 53 bits before dividing, and
the greatest common divisor, which decides what is cut, jumps between neighbouring numerators:
`2 ^ 62 / 10` reduces to `2 ^ 61 / 5` and `(2 ^ 62 + 1) / 10` to `((2 ^ 62 + 1) / 5) / 2`, and the
second lands one value below the first (`Lots.ratio_goes_backwards`).
-/

namespace Clob

/-! ## Rounding to the nearest natural -/

theorem roundHalfEven_mul_left {k : Nat} (hk : 0 < k) (N D : Nat) :
    roundHalfEven (k * N) (k * D) = roundHalfEven N D := by
  have hlt : 2 * (k * (N % D)) < k * D ↔ 2 * (N % D) < D := by
    rw [Nat.mul_left_comm]
    exact Nat.mul_lt_mul_left hk
  have hgt : k * D < 2 * (k * (N % D)) ↔ D < 2 * (N % D) := by
    rw [Nat.mul_left_comm]
    exact Nat.mul_lt_mul_left hk
  simp only [roundHalfEven, Nat.mul_div_mul_left N D hk, Nat.mul_mod_mul_left, hlt, hgt]

theorem roundHalfEven_mono {N₁ N₂ : Nat} (D : Nat) (h : N₁ ≤ N₂) :
    roundHalfEven N₁ D ≤ roundHalfEven N₂ D := by
  have hq : N₁ / D ≤ N₂ / D := Nat.div_le_div_right h
  rcases Nat.lt_or_eq_of_le hq with hlt | heq
  · calc roundHalfEven N₁ D ≤ N₁ / D + 1 := roundHalfEven_le_succ N₁ D
      _ ≤ N₂ / D := hlt
      _ ≤ roundHalfEven N₂ D := div_le_roundHalfEven N₂ D
  · have h₁ := Nat.div_add_mod N₁ D
    have h₂ := Nat.div_add_mod N₂ D
    rw [heq] at h₁
    have hr : N₁ % D ≤ N₂ % D := by omega
    simp only [roundHalfEven, heq]
    split_ifs <;> omega

/-! ## The binade of a ratio -/

theorem floorLog2_eq_of_bounds {a b : Nat} (ha : 0 < a) (hb : 0 < b) {e : Int}
    (hlo : (2 : ℚ) ^ e ≤ (a : ℚ) / b) (hhi : (a : ℚ) / b < 2 ^ (e + 1)) : floorLog2 a b = e := by
  obtain ⟨hfl, hfl'⟩ := floorLog2_spec ha hb
  have h1 : floorLog2 a b < e + 1 :=
    (zpow_lt_zpow_iff_right₀ one_lt_two).mp (lt_of_le_of_lt hfl hhi)
  have h2 : e < floorLog2 a b + 1 :=
    (zpow_lt_zpow_iff_right₀ one_lt_two).mp (lt_of_le_of_lt hlo hfl')
  omega

theorem floorLog2_mul_left {k a b : Nat} (hk : 0 < k) (ha : 0 < a) (hb : 0 < b) :
    floorLog2 (k * a) (k * b) = floorLog2 a b := by
  have hratio : ((k * a : Nat) : ℚ) / ((k * b : Nat) : ℚ) = (a : ℚ) / b := by
    push_cast
    exact mul_div_mul_left _ _ (by exact_mod_cast hk.ne')
  obtain ⟨hlo, hhi⟩ := floorLog2_spec ha hb
  exact floorLog2_eq_of_bounds (Nat.mul_pos hk ha) (Nat.mul_pos hk hb)
    (hratio ▸ hlo) (hratio ▸ hhi)

theorem floorLog2_mono {a₁ a₂ b : Nat} (ha : 0 < a₁) (hb : 0 < b) (h : a₁ ≤ a₂) :
    floorLog2 a₁ b ≤ floorLog2 a₂ b := by
  have hb' : (0 : ℚ) < b := by exact_mod_cast hb
  have hle : (a₁ : ℚ) / b ≤ (a₂ : ℚ) / b := div_le_div_of_nonneg_right (by exact_mod_cast h) hb'.le
  have h1 := (floorLog2_spec ha hb).1
  have h2 := (floorLog2_spec (lt_of_lt_of_le ha h) hb).2
  have := (zpow_lt_zpow_iff_right₀ one_lt_two).mp (lt_of_le_of_lt (h1.trans hle) h2)
  omega

theorem scaled_lt {a b : Nat} (ha : 0 < a) (hb : 0 < b) {e : Int} (he : floorLog2 a b ≤ e) :
    a * 2 ^ (-(e - 52)).toNat < 2 ^ 53 * (b * 2 ^ (e - 52).toNat) := by
  have hD : (0 : ℚ) < ((b * 2 ^ (e - 52).toNat : Nat) : ℚ) := by
    exact_mod_cast Nat.mul_pos hb (Nat.two_pow_pos _)
  have hpow : (2 : ℚ) ^ (e + 1) * 2 ^ (-(e - 52)) = 2 ^ 53 := by
    rw [← zpow_add₀ two_ne_zero, show e + 1 + -(e - 52) = ((53 : Nat) : Int) by omega,
      zpow_natCast]
  have hhi : (a : ℚ) / b < 2 ^ (e + 1) :=
    lt_of_lt_of_le (floorLog2_spec ha hb).2 (zpow_le_zpow_right₀ one_le_two (by omega))
  have h : ((a * 2 ^ (-(e - 52)).toNat : Nat) : ℚ) / ((b * 2 ^ (e - 52).toNat : Nat) : ℚ) <
      2 ^ 53 := by
    rw [scaled_ratio, ← hpow]
    exact mul_lt_mul_of_pos_right hhi (by positivity)
  rw [div_lt_iff₀ hD] at h
  exact_mod_cast h

theorem le_scaled {a b : Nat} (ha : 0 < a) (hb : 0 < b) {e : Int} (he : e ≤ floorLog2 a b) :
    2 ^ 52 * (b * 2 ^ (e - 52).toNat) ≤ a * 2 ^ (-(e - 52)).toNat := by
  have hD : (0 : ℚ) < ((b * 2 ^ (e - 52).toNat : Nat) : ℚ) := by
    exact_mod_cast Nat.mul_pos hb (Nat.two_pow_pos _)
  have hpow : (2 : ℚ) ^ e * 2 ^ (-(e - 52)) = 2 ^ 52 := by
    rw [← zpow_add₀ two_ne_zero, show e + -(e - 52) = ((52 : Nat) : Int) by omega, zpow_natCast]
  have hlo : (2 : ℚ) ^ e ≤ (a : ℚ) / b :=
    le_trans (zpow_le_zpow_right₀ one_le_two he) (floorLog2_spec ha hb).1
  have h : (2 : ℚ) ^ 52 ≤
      ((a * 2 ^ (-(e - 52)).toNat : Nat) : ℚ) / ((b * 2 ^ (e - 52).toNat : Nat) : ℚ) := by
    rw [scaled_ratio, ← hpow]
    exact mul_le_mul_of_nonneg_right hlo (by positivity)
  rw [le_div_iff₀ hD] at h
  exact_mod_cast h

namespace Binary64

/-! ## Rounding to the nearest binary64 value -/

theorem nearestMagnitude_mul_left {k : Nat} (hk : 0 < k) (a b : Nat) :
    nearestMagnitude (k * a) (k * b) = nearestMagnitude a b := by
  rcases Nat.eq_zero_or_pos a with rfl | ha
  · simp [nearestMagnitude]
  rcases Nat.eq_zero_or_pos b with rfl | hb
  · simp [nearestMagnitude]
  simp only [nearestMagnitude, Nat.mul_eq_zero, hk.ne', ha.ne', hb.ne', or_self, if_false,
    floorLog2_mul_left hk ha hb, Nat.mul_assoc, roundHalfEven_mul_left hk]

theorem pattern_le_of_binade_lt {e₁ e₂ : Int} {m₁ m₂ : Nat} (he : -1022 ≤ e₁) (hlt : e₁ < e₂)
    (h₁ : m₁ ≤ 2 ^ 53) (h₂ : 2 ^ 52 ≤ m₂) :
    (e₁ + 1022).toNat * 2 ^ 52 + m₁ ≤ (e₂ + 1022).toNat * 2 ^ 52 + m₂ := by
  omega

theorem nearestMagnitude_mono {a₁ a₂ b : Nat} (hb : 0 < b) (h : a₁ ≤ a₂) :
    nearestMagnitude a₁ b ≤ nearestMagnitude a₂ b := by
  rcases Nat.eq_zero_or_pos a₁ with rfl | ha₁
  · simp [nearestMagnitude]
  have ha₂ : 0 < a₂ := lt_of_lt_of_le ha₁ h
  have hf := floorLog2_mono ha₁ hb h
  simp only [nearestMagnitude, ha₁.ne', ha₂.ne', hb.ne', or_self, if_false]
  obtain ⟨e₁, he₁⟩ : ∃ e, e = max (floorLog2 a₁ b) (-1022) := ⟨_, rfl⟩
  obtain ⟨e₂, he₂⟩ : ∃ e, e = max (floorLog2 a₂ b) (-1022) := ⟨_, rfl⟩
  rw [← he₁, ← he₂]
  by_cases heq : e₁ = e₂
  · subst heq
    have hm := roundHalfEven_mono (b * 2 ^ (e₁ - 52).toNat)
      (Nat.mul_le_mul_right (2 ^ (-(e₁ - 52)).toNat) h)
    exact min_le_min_right _ (Nat.add_le_add_left hm _)
  · have hnormal : e₂ = floorLog2 a₂ b := by omega
    have hm₁ : roundHalfEven (a₁ * 2 ^ (-(e₁ - 52)).toNat) (b * 2 ^ (e₁ - 52).toNat) ≤ 2 ^ 53 := by
      have hlt := (Nat.div_lt_iff_lt_mul (Nat.mul_pos hb (Nat.two_pow_pos _))).mpr
        (scaled_lt ha₁ hb (he₁ ▸ le_max_left _ _))
      have := roundHalfEven_le_succ (a₁ * 2 ^ (-(e₁ - 52)).toNat) (b * 2 ^ (e₁ - 52).toNat)
      omega
    have hm₂ : 2 ^ 52 ≤ roundHalfEven (a₂ * 2 ^ (-(e₂ - 52)).toNat) (b * 2 ^ (e₂ - 52).toNat) := by
      have hle := (Nat.le_div_iff_mul_le (Nat.mul_pos hb (Nat.two_pow_pos _))).mpr
        (le_scaled ha₂ hb hnormal.le)
      exact le_trans hle (div_le_roundHalfEven _ _)
    exact min_le_min_right _ (pattern_le_of_binade_lt (by omega) (by omega) hm₁ hm₂)

theorem nearest_mul_left {k : Nat} (hk : 0 < k) (a b : Nat) :
    nearest false (k * a) (k * b) = nearest false a b := by
  rw [nearest_false_eq, nearest_false_eq, nearestMagnitude_mul_left hk]

theorem magnitude_nearest (a b : Nat) : (nearest false a b).magnitude = nearestMagnitude a b := by
  rw [nearest_false_eq]
  exact magnitude_ofBits (lt_of_le_of_lt (nearestMagnitude_le a b) (by norm_num))

theorem nearest_atLeast {a₁ a₂ b : Nat} (hb : 0 < b) (h : a₁ ≤ a₂) :
    (nearest false a₂ b).atLeast (nearest false a₁ b) = true := by
  have h₁ := NonNeg.nearest a₁ b
  have h₂ := NonNeg.nearest a₂ b
  simp only [atLeast, h₁.isNaN_eq, h₂.isNaN_eq, h₁.orderKey_eq, h₂.orderKey_eq,
    magnitude_nearest, Bool.not_false, Bool.true_and, decide_eq_true_eq]
  exact_mod_cast nearestMagnitude_mono hb h

/-! ## The exact steps of a quotient -/

/-- The quotient of `n` by `d` is taken by one of its exact steps: divided by their greatest
common divisor, both fit in 53 bits, as they then also do when they fit undivided. -/
def ExactStep (n d : Nat) : Prop := n / Nat.gcd n d < 2 ^ 53 ∧ d / Nat.gcd n d < 2 ^ 53

instance (n d : Nat) : Decidable (ExactStep n d) := inferInstanceAs (Decidable (_ ∧ _))

theorem scaledQuotient?_of_exactStep {n d : Nat} (hd : 0 < d) (h : ExactStep n d) :
    scaledQuotient? n d = some (nearest false n d) := by
  simp only [scaledQuotient?]
  split
  · rfl
  · rw [if_pos (by simpa only [fits53, Bool.and_eq_true, decide_eq_true_eq, ExactStep] using h)]
    have hg : 0 < Nat.gcd n d := Nat.gcd_pos_of_pos_right _ hd
    have hsame : nearest false (Nat.gcd n d * (n / Nat.gcd n d)) (Nat.gcd n d * (d / Nat.gcd n d)) =
        nearest false n d := by
      rw [Nat.mul_div_cancel' (Nat.gcd_dvd_left n d), Nat.mul_div_cancel' (Nat.gcd_dvd_right n d)]
    rw [← hsame, nearest_mul_left hg]

end Binary64

namespace Lots

open Binary64

theorem checkedQuotient_of_exactStep {n d : Nat} (hd : 0 < d) (h : ExactStep n d) :
    checkedQuotient n d = .ok (nearest false n d) := by
  exact checkedQuotient_of_scaled (scaledQuotient?_of_exactStep hd h)

theorem ratio_of_exactStep {n d : Int} (hd : 0 < d) (hn : 0 ≤ n) (h : ExactStep n.toNat d.toNat) :
    ratio n d = .ok (nearest false n.toNat d.toNat) := by
  rw [ratio, if_neg (by omega), if_neg (by omega)]
  exact checkedQuotient_of_exactStep (by omega) h

theorem ofAmount_of_exactStep {measure : Measure} {terms : Nat → Nat × Nat} {v : Int}
    (hv : 0 ≤ v) (hd : 0 < (terms v.toNat).2) (h : ExactStep (terms v.toNat).1 (terms v.toNat).2) :
    ofAmount measure terms v = .ok (nearest false (terms v.toNat).1 (terms v.toNat).2) := by
  rw [ofAmount, if_neg (by omega)]
  exact checkedQuotient_of_exactStep hd h

def MonotoneOnExactSteps (convert : Int → Except Fault Binary64) (terms : Nat → Nat × Nat) :
    Prop :=
  ∀ v₁ v₂ : Int, 0 ≤ v₁ → v₁ ≤ v₂ → ExactStep (terms v₁.toNat).1 (terms v₁.toNat).2 →
    ExactStep (terms v₂.toNat).1 (terms v₂.toNat).2 →
    ∃ x₁ x₂, convert v₁ = .ok x₁ ∧ convert v₂ = .ok x₂ ∧ x₂.atLeast x₁ = true

theorem monotoneOnExactSteps_of_fixed_denominator {measure : Measure} {terms : Nat → Nat × Nat}
    {D : Nat} (hD : 0 < D) (hden : ∀ v, (terms v).2 = D)
    (hnum : ∀ v w, v ≤ w → (terms v).1 ≤ (terms w).1) :
    MonotoneOnExactSteps (ofAmount measure terms) terms := by
  intro v₁ v₂ h₀ h₁₂ hx₁ hx₂
  refine ⟨_, _, ofAmount_of_exactStep h₀ (by rw [hden]; exact hD) hx₁,
    ofAmount_of_exactStep (by omega) (by rw [hden]; exact hD) hx₂, ?_⟩
  rw [hden, hden]
  exact nearest_atLeast hD (hnum _ _ (Int.toNat_le_toNat h₁₂))

/-- Of two nonnegative numerators over one positive denominator whose quotients are both taken
by an exact step, the larger gives the larger quotient, each the correctly rounded ratio. So for
every market configuration each conversion of lot counts and native amounts to numbers is
monotone over the counts whose ratios are taken by exact steps. -/
theorem quotient_monotone_on_exact_steps :
    (∀ n₁ n₂ d : Int, 0 < d → 0 ≤ n₁ → n₁ ≤ n₂ →
      ExactStep n₁.toNat d.toNat → ExactStep n₂.toNat d.toNat →
      ratio n₁ d = .ok (nearest false n₁.toNat d.toNat) ∧
        ratio n₂ d = .ok (nearest false n₂.toNat d.toNat) ∧
        (nearest false n₂.toNat d.toNat).atLeast (nearest false n₁.toNat d.toNat) = true) ∧
    ∀ m : MarketConfig,
      MonotoneOnExactSteps (ofAmount .priceLots m.priceRatio) m.priceRatio ∧
      MonotoneOnExactSteps (ofAmount .sizeLots m.baseSizeRatio) m.baseSizeRatio ∧
      MonotoneOnExactSteps (ofAmount .sizeLots m.quoteSizeRatio) m.quoteSizeRatio ∧
      MonotoneOnExactSteps (ofAmount .nativeBase m.baseAmountRatio) m.baseAmountRatio ∧
      MonotoneOnExactSteps (ofAmount .nativeQuote m.quoteAmountRatio) m.quoteAmountRatio := by
  refine ⟨fun n₁ n₂ d hd h₀ h₁₂ hx₁ hx₂ =>
    ⟨ratio_of_exactStep hd h₀ hx₁, ratio_of_exactStep hd (by omega) hx₂,
      nearest_atLeast (by omega) (Int.toNat_le_toNat h₁₂)⟩, fun m => ?_⟩
  have hbase := m.baseMultiplier_pos
  have hquote := m.quoteMultiplier_pos
  refine ⟨?_, ?_, ?_, ?_, ?_⟩
  · exact monotoneOnExactSteps_of_fixed_denominator (Nat.mul_pos m.baseLotSize_pos hquote)
      (fun _ => rfl) fun v w h => Nat.mul_le_mul_right _ (Nat.mul_le_mul_right _ h)
  · exact monotoneOnExactSteps_of_fixed_denominator hbase (fun _ => rfl)
      fun v w h => Nat.mul_le_mul_right _ h
  · exact monotoneOnExactSteps_of_fixed_denominator hquote (fun _ => rfl)
      fun v w h => Nat.mul_le_mul_right _ h
  · exact monotoneOnExactSteps_of_fixed_denominator hbase (fun _ => rfl) fun v w h => h
  · exact monotoneOnExactSteps_of_fixed_denominator hquote (fun _ => rfl) fun v w h => h

theorem threeQuarters_below_one :
    ExactStep (3 * 2 ^ 80 : Int).toNat (2 ^ 82 : Int).toNat ∧
      ExactStep (2 ^ 82 : Int).toNat (2 ^ 82 : Int).toNat ∧
      ratio (3 * 2 ^ 80) (2 ^ 82) = .ok (nearest false (3 * 2 ^ 80 : Int).toNat (2 ^ 82 : Int).toNat) ∧
      (nearest false (2 ^ 82 : Int).toNat (2 ^ 82 : Int).toNat).atLeast
        (nearest false (3 * 2 ^ 80 : Int).toNat (2 ^ 82 : Int).toNat) = true := by
  have hx₁ : ExactStep (3 * 2 ^ 80 : Int).toNat (2 ^ 82 : Int).toNat := by decide
  have hx₂ : ExactStep (2 ^ 82 : Int).toNat (2 ^ 82 : Int).toNat := by decide
  obtain ⟨h₁, -, h₁₂⟩ := quotient_monotone_on_exact_steps.1 (3 * 2 ^ 80) (2 ^ 82) (2 ^ 82)
    (by norm_num) (by norm_num) (by norm_num) hx₁ hx₂
  exact ⟨hx₁, hx₂, h₁, h₁₂⟩

def decimalMarket : MarketConfig := .ofSizes 1 1 1 2

/-- The quotient of `2 ^ 62 + 1` by `10` lies one value below that of `2 ^ 62`, and on a market
with unit lots, one base decimal and two quote decimals each of the five conversions takes the
count `2 ^ 62 + 1` to a number below that of `2 ^ 62`. -/
theorem ratio_goes_backwards :
    (ratio (2 ^ 62) 10).toOption = some (ofBits 0x439999999999999A) ∧
    (ratio (2 ^ 62 + 1) 10).toOption = some (ofBits 0x4399999999999999) ∧
    (ofBits 0x4399999999999999).atLeast (ofBits 0x439999999999999A) = false ∧
    (ofAmount .priceLots decimalMarket.priceRatio (2 ^ 62)).toOption =
      some (ofBits 0x439999999999999A) ∧
    (ofAmount .priceLots decimalMarket.priceRatio (2 ^ 62 + 1)).toOption =
      some (ofBits 0x4399999999999999) ∧
    (ofAmount .sizeLots decimalMarket.baseSizeRatio (2 ^ 62)).toOption =
      some (ofBits 0x439999999999999A) ∧
    (ofAmount .sizeLots decimalMarket.baseSizeRatio (2 ^ 62 + 1)).toOption =
      some (ofBits 0x4399999999999999) ∧
    (ofAmount .sizeLots decimalMarket.quoteSizeRatio (2 ^ 62)).toOption =
      some (ofBits 0x43647AE147AE147B) ∧
    (ofAmount .sizeLots decimalMarket.quoteSizeRatio (2 ^ 62 + 1)).toOption =
      some (ofBits 0x43647AE147AE147A) ∧
    (ofAmount .nativeBase decimalMarket.baseAmountRatio (2 ^ 62)).toOption =
      some (ofBits 0x439999999999999A) ∧
    (ofAmount .nativeBase decimalMarket.baseAmountRatio (2 ^ 62 + 1)).toOption =
      some (ofBits 0x4399999999999999) ∧
    (ofAmount .nativeQuote decimalMarket.quoteAmountRatio (2 ^ 62)).toOption =
      some (ofBits 0x43647AE147AE147B) ∧
    (ofAmount .nativeQuote decimalMarket.quoteAmountRatio (2 ^ 62 + 1)).toOption =
      some (ofBits 0x43647AE147AE147A) ∧
    (ofBits 0x43647AE147AE147A).atLeast (ofBits 0x43647AE147AE147B) = false := by
  refine ⟨?_, ?_, ?_, ?_, ?_, ?_, ?_, ?_, ?_, ?_, ?_, ?_, ?_, ?_⟩ <;> decide +kernel

end Lots

end Clob
