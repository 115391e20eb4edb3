import Mathlib.Algebra.Order.Field.Power
import Mathlib.Tactic.Linarith
import Mathlib.Tactic.NormNum
import Mathlib.Tactic.Positivity
import Mathlib.Tactic.Ring
import Clob.Numeric.Quotient
/-!
# Sign and range of quotients

`Binary64.quotient n d` is never negative and never a NaN, whichever of its four steps gives it
(`NonNeg.quotient`). It is positive when `0 < n < 2 ^ 1000` and `0 < d < 2 ^ 1000`
(`quotient_magnitude_pos`): the ratio then lies far inside the normal binades, and so do the two
roundings of the truncating step.

The exponent that rounding picks is `floorLog2`, which is `⌊log₂ (a / b)⌋` (`floorLog2_spec`).
For a ratio in the normal binades, from `2 ^ -1022` up to `2 ^ 1023`, the rounded value has
exponent field `floorLog2 + 1023` or, when the significand carries, one more
(`field_nearest`). Ratios are compared in `ℚ`, where the powers of two with integer exponents
that the model writes as ratios of natural powers are `zpow`.
-/

namespace Clob

theorem div_le_roundHalfEven (N D : Nat) : N / D ≤ roundHalfEven N D := by
  simp only [roundHalfEven]
  split_ifs <;> omega

theorem roundHalfEven_le_succ (N D : Nat) : roundHalfEven N D ≤ N / D + 1 := by
  simp only [roundHalfEven]
  split_ifs <;> omega

theorem two_zpow_eq_ratio (e : Int) :
    (2 : ℚ) ^ e = ((2 ^ e.toNat : Nat) : ℚ) / ((2 ^ (-e).toNat : Nat) : ℚ) := by
  rcases Int.le_total 0 e with he | he
  · have hneg : (-e).toNat = 0 := by omega
    rw [hneg, pow_zero, Nat.cast_one, div_one, Nat.cast_pow, Nat.cast_ofNat, ← zpow_natCast,
      Int.toNat_of_nonneg he]
  · have hpos : e.toNat = 0 := by omega
    rw [hpos, pow_zero, Nat.cast_one, Nat.cast_pow, Nat.cast_ofNat, ← zpow_natCast,
      Int.toNat_of_nonneg (by omega : 0 ≤ -e), zpow_neg, one_div, inv_inv]

theorem scaled_ratio (a b : Nat) (q : Int) :
    ((a * 2 ^ (-q).toNat : Nat) : ℚ) / ((b * 2 ^ q.toNat : Nat) : ℚ) =
      (a : ℚ) / b * 2 ^ (-q) := by
  rw [two_zpow_eq_ratio (-q), neg_neg]
  push_cast
  rw [mul_div_mul_comm]

theorem atLeastPow2_iff {a b : Nat} (hb : 0 < b) (e : Int) :
    atLeastPow2 a b e = true ↔ (2 : ℚ) ^ e ≤ (a : ℚ) / b := by
  have hbq : (0 : ℚ) < b := by exact_mod_cast hb
  rw [two_zpow_eq_ratio, div_le_div_iff₀ (by positivity) hbq, atLeastPow2, decide_eq_true_iff,
    ← Nat.cast_le (α := ℚ)]
  push_cast
  constructor <;> intro h <;> linarith

theorem floorLog2_spec {a b : Nat} (ha : 0 < a) (hb : 0 < b) :
    (2 : ℚ) ^ floorLog2 a b ≤ (a : ℚ) / b ∧ (a : ℚ) / b < 2 ^ (floorLog2 a b + 1) := by
  have hbq : (0 : ℚ) < b := by exact_mod_cast hb
  have ha1 : ((2 ^ a.log2 : Nat) : ℚ) ≤ a := by exact_mod_cast Nat.log2_self_le ha.ne'
  have ha2 : (a : ℚ) < ((2 ^ (a.log2 + 1) : Nat) : ℚ) := by exact_mod_cast Nat.lt_log2_self
  have hb1 : ((2 ^ b.log2 : Nat) : ℚ) ≤ b := by exact_mod_cast Nat.log2_self_le hb.ne'
  have hb2 : (b : ℚ) < ((2 ^ (b.log2 + 1) : Nat) : ℚ) := by exact_mod_cast Nat.lt_log2_self
  push_cast at ha1 ha2 hb1 hb2
  set e : Int := (a.log2 : Int) - b.log2 with he
  have hlo : (2 : ℚ) ^ (e - 1) ≤ (a : ℚ) / b := by
    have hsplit : (2 : ℚ) ^ (e - 1) * 2 ^ (b.log2 + 1) = 2 ^ a.log2 := by
      rw [← zpow_natCast, ← zpow_natCast, ← zpow_add₀ two_ne_zero]
      congr 1
      push_cast
      ring
    rw [le_div_iff₀ hbq]
    calc (2 : ℚ) ^ (e - 1) * b ≤ 2 ^ (e - 1) * 2 ^ (b.log2 + 1) := by gcongr
      _ = 2 ^ a.log2 := hsplit
      _ ≤ a := ha1
  have hhi : (a : ℚ) / b < 2 ^ (e + 1) := by
    have hsplit : (2 : ℚ) ^ (e + 1) * 2 ^ b.log2 = 2 ^ (a.log2 + 1) := by
      rw [← zpow_natCast, ← zpow_natCast, ← zpow_add₀ two_ne_zero]
      congr 1
      push_cast
      ring
    rw [div_lt_iff₀ hbq]
    calc (a : ℚ) < 2 ^ (a.log2 + 1) := ha2
      _ = 2 ^ (e + 1) * 2 ^ b.log2 := hsplit.symm
      _ ≤ 2 ^ (e + 1) * b := by gcongr
  simp only [floorLog2]
  rw [← he]
  split
  · rename_i hat
    exact ⟨(atLeastPow2_iff hb e).mp hat, hhi⟩
  · rename_i hat
    refine ⟨hlo, ?_⟩
    rw [sub_add_cancel]
    exact lt_of_not_ge fun hge => hat ((atLeastPow2_iff hb e).mpr hge)

namespace Binary64

theorem bits_ofBits {m : Nat} (hm : m < 2 ^ 64) : (ofBits m).bits.toNat = m := by
  simp only [ofBits, UInt64.toNat_ofNat']
  exact Nat.mod_eq_of_lt hm

theorem signBit_ofBits {m : Nat} (hm : m < 2 ^ 63) : (ofBits m).signBit = false := by
  simp only [signBit, bits_ofBits (by omega : m < 2 ^ 64), decide_eq_false_iff_not]
  omega

theorem magnitude_ofBits {m : Nat} (hm : m < 2 ^ 63) : (ofBits m).magnitude = m := by
  simp only [magnitude, bits_ofBits (by omega : m < 2 ^ 64)]
  exact Nat.mod_eq_of_lt hm

theorem field_ofBits {m : Nat} (hm : m < 2 ^ 63) : (ofBits m).field = m / 2 ^ 52 := by
  simp only [field, magnitude_ofBits hm]

theorem fraction_ofBits {m : Nat} (hm : m < 2 ^ 64) : (ofBits m).fraction = m % 2 ^ 52 := by
  simp only [fraction, bits_ofBits hm]

theorem isNaN_ofBits {m : Nat} (hm : m ≤ 2047 * 2 ^ 52) : (ofBits m).isNaN = false := by
  simp only [isNaN, field_ofBits (by omega : m < 2 ^ 63), fraction_ofBits (by omega : m < 2 ^ 64),
    Bool.and_eq_false_iff, beq_eq_false_iff_ne, bne_eq_false_iff_eq]
  omega

theorem isFinite_ofBits {m : Nat} (hm : m < 2047 * 2 ^ 52) : (ofBits m).isFinite = true := by
  simp only [isFinite, field_ofBits (by omega : m < 2 ^ 63), bne_iff_ne, ne_eq]
  omega

theorem significand_lt (x : Binary64) : x.significand < 2 ^ 53 := by
  have := x.fraction_lt
  simp only [significand]
  split <;> omega

theorem significand_ge {x : Binary64} (h : x.field ≠ 0) : 2 ^ 52 ≤ x.significand := by
  simp only [significand, if_neg h]
  omega

theorem nearestMagnitude_le (a b : Nat) : nearestMagnitude a b ≤ 2047 * 2 ^ 52 := by
  simp only [nearestMagnitude]
  split
  · omega
  · exact Nat.min_le_right _ _

structure NonNeg (x : Binary64) : Prop where
  signBit_eq : x.signBit = false
  isNaN_eq : x.isNaN = false

theorem NonNeg.ofBits {m : Nat} (hm : m ≤ 2047 * 2 ^ 52) : NonNeg (ofBits m) :=
  ⟨signBit_ofBits (by omega), isNaN_ofBits hm⟩

theorem nearest_false_eq (a b : Nat) : nearest false a b = ofBits (nearestMagnitude a b) := by
  simp only [nearest, Bool.false_eq_true, if_false]

theorem NonNeg.nearest (a b : Nat) : NonNeg (nearest false a b) := by
  rw [nearest_false_eq]
  exact NonNeg.ofBits (nearestMagnitude_le a b)

theorem NonNeg.zero : NonNeg zero := NonNeg.ofBits (Nat.zero_le _)

theorem NonNeg.scaleB? {x y : Binary64} {k : Int} (hx : NonNeg x) (h : x.scaleB? k = some y) :
    NonNeg y := by
  simp only [Binary64.scaleB?] at h
  split at h
  · cases h
    exact hx
  · split at h
    · cases h
      rw [hx.signBit_eq]
      exact NonNeg.nearest _ _
    · cases h

theorem NonNeg.decimalQuotient (n d : Nat) : NonNeg (decimalQuotient n d) := by
  simp only [Binary64.decimalQuotient]
  split
  · exact NonNeg.zero
  · exact NonNeg.nearest _ _

theorem NonNeg.scaledQuotient? {n d : Nat} {x : Binary64} (h : scaledQuotient? n d = some x) :
    NonNeg x := by
  simp only [Binary64.scaledQuotient?] at h
  split at h
  · cases h
    exact NonNeg.nearest _ _
  · split at h
    · cases h
      exact NonNeg.nearest _ _
    · exact (NonNeg.nearest _ _).scaleB? h

theorem NonNeg.quotient (n d : Nat) : NonNeg (quotient n d) := by
  simp only [Binary64.quotient]
  split
  · rename_i x hx
    exact NonNeg.scaledQuotient? hx
  · exact NonNeg.decimalQuotient n d

theorem magnitude_zero : zero.magnitude = 0 := magnitude_ofBits (by decide)

theorem orderKey_zero : zero.orderKey = 0 := by
  simp [orderKey, NonNeg.zero.signBit_eq, magnitude_zero]

theorem NonNeg.orderKey_eq {x : Binary64} (hx : NonNeg x) : x.orderKey = x.magnitude := by
  simp [orderKey, hx.signBit_eq]

theorem NonNeg.atLeast_zero {x : Binary64} (hx : NonNeg x) : x.atLeast Binary64.zero = true := by
  simp [atLeast, hx.isNaN_eq, NonNeg.zero.isNaN_eq, hx.orderKey_eq, orderKey_zero]

theorem NonNeg.below_zero {x : Binary64} (hx : NonNeg x) : x.below Binary64.zero = false := by
  simp [below, hx.orderKey_eq, orderKey_zero]

theorem NonNeg.negate_not_pos {x : Binary64} (hx : NonNeg x) : Binary64.zero.below x.negate = false := by
  have hm := x.magnitude_lt
  have hbits : x.negate.bits.toNat = x.magnitude + 2 ^ 63 := by
    simp only [negate, hx.signBit_eq, Bool.false_eq_true, if_false]
    exact bits_ofBits (by omega)
  have hkey : x.negate.orderKey ≤ 0 := by
    simp only [orderKey, signBit, hbits]
    simp
  simp only [below, orderKey_zero, Bool.and_eq_false_iff, decide_eq_false_iff_not]
  right
  omega

theorem NonNeg.zero_below {x : Binary64} (hx : NonNeg x) (hpos : 0 < x.magnitude) :
    Binary64.zero.below x = true := by
  simp [below, hx.isNaN_eq, NonNeg.zero.isNaN_eq, hx.orderKey_eq, orderKey_zero, hpos]

theorem ratio_bounds {a b p : Nat} (ha : 1 ≤ a) (ha' : a < 2 ^ p) (hb : 1 ≤ b) (hb' : b < 2 ^ p) :
    (2 : ℚ) ^ (-(p : Int)) < (a : ℚ) / b ∧ (a : ℚ) / b < 2 ^ (p : Int) := by
  have haq : (1 : ℚ) ≤ a := by exact_mod_cast ha
  have haq' : (a : ℚ) < 2 ^ p := by exact_mod_cast ha'
  have hbq : (1 : ℚ) ≤ b := by exact_mod_cast hb
  have hbq' : (b : ℚ) < 2 ^ p := by exact_mod_cast hb'
  have hb0 : (0 : ℚ) < b := by linarith
  rw [zpow_neg, zpow_natCast]
  constructor
  · rw [lt_div_iff₀ hb0, inv_mul_eq_div, div_lt_iff₀ (by positivity)]
    nlinarith
  · rw [div_lt_iff₀ hb0]
    nlinarith

theorem field_nearest {a b : Nat} (ha : 0 < a) (hb : 0 < b)
    (hlo : (2 : ℚ) ^ (-1022 : Int) ≤ (a : ℚ) / b) (hhi : (a : ℚ) / b < 2 ^ (1023 : Int)) :
    (nearest false a b).isFinite = true ∧
      floorLog2 a b + 1023 ≤ ((nearest false a b).field : Int) ∧
      ((nearest false a b).field : Int) ≤ floorLog2 a b + 1024 := by
  obtain ⟨hfl, hfl'⟩ := floorLog2_spec ha hb
  have two_lt : (1 : ℚ) < 2 := one_lt_two
  have hge : -1022 ≤ floorLog2 a b := by
    have := (zpow_lt_zpow_iff_right₀ two_lt).mp (lt_of_le_of_lt hlo hfl')
    omega
  have hlt : floorLog2 a b < 1023 := (zpow_lt_zpow_iff_right₀ two_lt).mp (lt_of_le_of_lt hfl hhi)
  set f := floorLog2 a b with hf
  set q : Int := f - 52 with hq
  have hscaled := scaled_ratio a b q
  have hpow52 : (2 : ℚ) ^ f * 2 ^ (-q) = 2 ^ 52 := by
    rw [← zpow_add₀ two_ne_zero, show f + -q = ((52 : Nat) : Int) by omega, zpow_natCast]
  have hpow53 : (2 : ℚ) ^ (f + 1) * 2 ^ (-q) = 2 ^ 53 := by
    rw [← zpow_add₀ two_ne_zero, show f + 1 + -q = ((53 : Nat) : Int) by omega, zpow_natCast]
  have hD : 0 < b * 2 ^ q.toNat := Nat.mul_pos hb (Nat.two_pow_pos _)
  have hDq : (0 : ℚ) < ((b * 2 ^ q.toNat : Nat) : ℚ) := by exact_mod_cast hD
  have hlow : 2 ^ 52 * (b * 2 ^ q.toNat) ≤ a * 2 ^ (-q).toNat := by
    have h : (2 : ℚ) ^ 52 ≤ ((a * 2 ^ (-q).toNat : Nat) : ℚ) / ((b * 2 ^ q.toNat : Nat) : ℚ) := by
      rw [hscaled, ← hpow52]
      exact mul_le_mul_of_nonneg_right hfl (by positivity)
    rw [le_div_iff₀ hDq] at h
    exact_mod_cast h
  have hhigh : a * 2 ^ (-q).toNat < 2 ^ 53 * (b * 2 ^ q.toNat) := by
    have h : ((a * 2 ^ (-q).toNat : Nat) : ℚ) / ((b * 2 ^ q.toNat : Nat) : ℚ) < 2 ^ 53 := by
      rw [hscaled, ← hpow53]
      exact mul_lt_mul_of_pos_right hfl' (by positivity)
    rw [div_lt_iff₀ hDq] at h
    exact_mod_cast h
  have hm1 := div_le_roundHalfEven (a * 2 ^ (-q).toNat) (b * 2 ^ q.toNat)
  have hm2 := roundHalfEven_le_succ (a * 2 ^ (-q).toNat) (b * 2 ^ q.toNat)
  have hdiv1 : 2 ^ 52 ≤ a * 2 ^ (-q).toNat / (b * 2 ^ q.toNat) :=
    (Nat.le_div_iff_mul_le hD).mpr hlow
  have hdiv2 : a * 2 ^ (-q).toNat / (b * 2 ^ q.toNat) < 2 ^ 53 :=
    (Nat.div_lt_iff_lt_mul hD).mpr hhigh
  have hmag : nearestMagnitude a b =
      (f + 1022).toNat * 2 ^ 52 + roundHalfEven (a * 2 ^ (-q).toNat) (b * 2 ^ q.toNat) := by
    simp only [nearestMagnitude, ha.ne', hb.ne', or_self, if_false, max_eq_left hge, ← hf, ← hq]
    apply Nat.min_eq_left
    omega
  have hX : nearestMagnitude a b < 2047 * 2 ^ 52 := by rw [hmag]; omega
  rw [nearest_false_eq, isFinite_ofBits hX, field_ofBits (by omega), hmag]
  refine ⟨rfl, ?_, ?_⟩ <;> omega

theorem magnitude_pos_of_field {x : Binary64} (h : x.field ≠ 0) : 0 < x.magnitude := by
  simp only [field] at h
  exact Nat.pos_of_ne_zero fun h0 => h (by rw [h0, Nat.zero_div])

theorem exponent_of_field {x : Binary64} (h : x.field ≠ 0) :
    x.exponent = (x.field : Int) - 1075 := by
  simp only [exponent, Nat.max_eq_left (Nat.pos_of_ne_zero h)]

theorem nearest_pos {a b : Nat} (ha : 1 ≤ a) (ha' : a < 2 ^ 1000) (hb : 1 ≤ b)
    (hb' : b < 2 ^ 1000) :
    (nearest false a b).isFinite = true ∧ 0 < (nearest false a b).magnitude := by
  obtain ⟨hlo, hhi⟩ := ratio_bounds ha ha' hb hb'
  have hlo' : (2 : ℚ) ^ (-1022 : Int) ≤ (a : ℚ) / b :=
    le_trans (zpow_le_zpow_right₀ one_le_two (by norm_num)) hlo.le
  obtain ⟨hfin, hf1, -⟩ := field_nearest ha hb hlo'
    (lt_of_lt_of_le hhi (zpow_le_zpow_right₀ one_le_two (by norm_num)))
  have hge : -1022 ≤ floorLog2 a b := by
    have := (zpow_lt_zpow_iff_right₀ one_lt_two).mp
      (lt_of_le_of_lt hlo' (floorLog2_spec ha hb).2)
    omega
  exact ⟨hfin, magnitude_pos_of_field (by omega)⟩

theorem truncate53_bounds {n : Nat} (hn : 1 ≤ n) :
    1 ≤ n / 2 ^ (bitLength n - 53) ∧ n / 2 ^ (bitLength n - 53) < 2 ^ 53 := by
  have hn0 : n ≠ 0 := by omega
  have h1 := Nat.log2_self_le hn0
  have h2 := @Nat.lt_log2_self n
  have hbl : bitLength n = n.log2 + 1 := by simp [bitLength, hn0]
  rw [hbl]
  constructor
  · rw [Nat.le_div_iff_mul_le (Nat.two_pow_pos _), Nat.one_mul]
    exact le_trans (Nat.pow_le_pow_right (by norm_num) (by omega)) h1
  · rw [Nat.div_lt_iff_lt_mul (Nat.two_pow_pos _), ← Nat.pow_add]
    exact lt_of_lt_of_le h2 (Nat.pow_le_pow_right (by norm_num) (by omega))

theorem bitLength_le {n p : Nat} (h : n < 2 ^ p) : bitLength n ≤ p := by
  simp only [bitLength]
  split
  · omega
  · rename_i hn0
    have := (Nat.log2_lt hn0).mpr h
    omega

theorem significand_mul_zpow_bounds {x : Binary64} (hfield : x.field ≠ 0) (t : Int) :
    (2 : ℚ) ^ (t + 52) ≤ (x.significand : ℚ) * 2 ^ t ∧
      (x.significand : ℚ) * 2 ^ t < 2 ^ (t + 53) := by
  have hsig1 : (2 : ℚ) ^ 52 ≤ x.significand := by exact_mod_cast significand_ge hfield
  have hsig2 : (x.significand : ℚ) < 2 ^ 53 := by exact_mod_cast significand_lt x
  refine ⟨?_, ?_⟩
  · rw [zpow_add₀ two_ne_zero, zpow_ofNat, mul_comm ((2 : ℚ) ^ t)]
    exact mul_le_mul_of_nonneg_right hsig1 (by positivity)
  · rw [zpow_add₀ two_ne_zero, zpow_ofNat, mul_comm ((2 : ℚ) ^ t)]
    exact mul_lt_mul_of_pos_right hsig2 (by positivity)

theorem scaleB?_nearest_pos {a b : Nat} (ha : 1 ≤ a) (ha' : a < 2 ^ 53) (hb : 1 ≤ b)
    (hb' : b < 2 ^ 53) {k : Int} (hk : -947 ≤ k) (hk' : k ≤ 947) :
    ∃ r, (nearest false a b).scaleB? k = some r ∧ 0 < r.magnitude := by
  obtain ⟨hlo, hhi⟩ := ratio_bounds ha ha' hb hb'
  obtain ⟨hfin, hf1, hf2⟩ := field_nearest (by omega) (by omega)
    (le_trans (zpow_le_zpow_right₀ one_le_two (by norm_num)) hlo.le)
    (lt_of_lt_of_le hhi (zpow_le_zpow_right₀ one_le_two (by norm_num)))
  obtain ⟨hfl, hfl'⟩ := floorLog2_spec (a := a) (b := b) (by omega) (by omega)
  have hf_lo : -53 ≤ floorLog2 a b := by
    have := (zpow_lt_zpow_iff_right₀ one_lt_two).mp (lt_trans hlo hfl')
    omega
  have hf_hi : floorLog2 a b ≤ 52 := by
    have := (zpow_lt_zpow_iff_right₀ one_lt_two).mp (lt_of_le_of_lt hfl hhi)
    omega
  set x := nearest false a b with hx
  have hfield : x.field ≠ 0 := by omega
  have hzero : x.isZero = false := by
    simp only [isZero, beq_eq_false_iff_ne]
    exact (magnitude_pos_of_field hfield).ne'
  have hexp := exponent_of_field hfield
  obtain ⟨t, ht⟩ : ∃ t : Int, t = x.exponent + k := ⟨_, rfl⟩
  have ht_lo : floorLog2 a b - 52 + k ≤ t := by omega
  have ht_hi : t ≤ 948 := by omega
  have hratio : ((x.significand * 2 ^ t.toNat : Nat) : ℚ) / ((2 ^ (-t).toNat : Nat) : ℚ) =
      (x.significand : ℚ) * 2 ^ t := by
    rw [two_zpow_eq_ratio t]
    push_cast
    ring
  obtain ⟨hsig_lo, hsig_hi⟩ := significand_mul_zpow_bounds hfield t
  have hlow : (2 : ℚ) ^ (-1000 : Int) ≤ (x.significand : ℚ) * 2 ^ t :=
    le_trans (zpow_le_zpow_right₀ one_le_two (by omega)) hsig_lo
  have hhigh : (x.significand : ℚ) * 2 ^ t < 2 ^ (1001 : Int) :=
    lt_of_lt_of_le hsig_hi (zpow_le_zpow_right₀ one_le_two (by omega))
  have hnum : 0 < x.significand * 2 ^ t.toNat :=
    Nat.mul_pos (by have := significand_ge hfield; omega) (Nat.two_pow_pos _)
  obtain ⟨hrfin, hrf1, -⟩ := field_nearest hnum (Nat.two_pow_pos _)
    (by rw [hratio]; exact le_trans (zpow_le_zpow_right₀ one_le_two (by norm_num)) hlow)
    (by rw [hratio]; exact lt_of_lt_of_le hhigh (zpow_le_zpow_right₀ one_le_two (by norm_num)))
  have hrfl : -1000 ≤ floorLog2 (x.significand * 2 ^ t.toNat) (2 ^ (-t).toNat) := by
    have := (zpow_lt_zpow_iff_right₀ one_lt_two).mp
      (lt_of_le_of_lt (hratio ▸ hlow) (floorLog2_spec hnum (Nat.two_pow_pos _)).2)
    omega
  refine ⟨nearest false (x.significand * 2 ^ t.toNat) (2 ^ (-t).toNat), ?_,
    magnitude_pos_of_field (by omega)⟩
  have hsign : x.signBit = false := (NonNeg.nearest a b).signBit_eq
  simp only [Binary64.scaleB?, hzero, hfin, Bool.not_true, Bool.or_false, Bool.false_eq_true,
    if_false, hsign, ← ht, hrfin, if_true]

theorem scaledQuotient?_pos {n d : Nat} (hn : 1 ≤ n) (hn' : n < 2 ^ 1000) (hd : 1 ≤ d)
    (hd' : d < 2 ^ 1000) : ∃ r, scaledQuotient? n d = some r ∧ 0 < r.magnitude := by
  simp only [Binary64.scaledQuotient?]
  split
  · exact ⟨_, rfl, (nearest_pos hn hn' hd hd').2⟩
  · have hg : 0 < Nat.gcd n d := Nat.gcd_pos_of_pos_left _ hn
    have hn1 : 1 ≤ n / Nat.gcd n d := Nat.div_pos (Nat.gcd_le_left _ hn) hg
    have hd1 : 1 ≤ d / Nat.gcd n d := Nat.div_pos (Nat.gcd_le_right _ hd) hg
    have hn2 : n / Nat.gcd n d < 2 ^ 1000 := lt_of_le_of_lt (Nat.div_le_self _ _) hn'
    have hd2 : d / Nat.gcd n d < 2 ^ 1000 := lt_of_le_of_lt (Nat.div_le_self _ _) hd'
    split
    · exact ⟨_, rfl, (nearest_pos hn1 hn2 hd1 hd2).2⟩
    · obtain ⟨ha1, ha2⟩ := truncate53_bounds hn1
      obtain ⟨hb1, hb2⟩ := truncate53_bounds hd1
      have hns := bitLength_le hn2
      have hds := bitLength_le hd2
      exact scaleB?_nearest_pos ha1 ha2 hb1 hb2 (by omega) (by omega)

theorem quotient_magnitude_pos {n d : Nat} (hn : 1 ≤ n) (hn' : n < 2 ^ 1000) (hd : 1 ≤ d)
    (hd' : d < 2 ^ 1000) : 0 < (quotient n d).magnitude := by
  obtain ⟨r, hr, hpos⟩ := scaledQuotient?_pos hn hn' hd hd'
  simp only [Binary64.quotient, hr]
  exact hpos

end Binary64

end Clob
