import Clob.Proofs.Fields
import Clob.Queue.Fill
/-!
# Which events become fills

`fills` keeps the events that are flagged as fills and paid something, in order, and turns each
into a fill. A kept event makes a fill when it moved some base quantity (received by a bid, paid
by an ask) and its quote amount before fees is not negative; that amount takes the fee back out
of what the account received or paid, in one of four ways by side and role
(`Event.beforeFees`). The first kept event that makes no fill refuses the whole list with a
format fault naming it (`Event.fillFault`).

The price of a fill divides the quote amount before fees by the base quantity, both scaled by the
token multipliers. Since the base quantity is checked first, that ratio never has a zero
denominator, and since the amount before fees is checked next, it never has a negative
numerator; the fee and the base quantity are divided by a multiplier, which is never zero.
-/

namespace Clob

namespace Event

def baseQuantity (e : Event) : Nat := if e.isBid then e.released else e.paid

def quoteQuantity (e : Event) : Nat := if e.isBid then e.paid else e.released

/-- The quote amount before fees. A maker's rebate is added back to what a bid paid and taken
off what an ask received; a taker's fee is taken off what a bid paid and added back to what an
ask received. -/
def beforeFees (e : Event) : Int :=
  match e.isBid, e.isMaker with
  | true, true => e.paid + e.fee
  | true, false => e.paid - e.fee
  | false, true => e.released - e.fee
  | false, false => e.released + e.fee

def kept (e : Event) : Bool := e.isFill && decide (0 < e.paid)

def FillOk (e : Event) : Prop := e.baseQuantity ≠ 0 ∧ 0 ≤ e.beforeFees

instance : DecidablePred FillOk := fun _ => inferInstanceAs (Decidable (_ ∧ _))

def fillFault (e : Event) : Fault :=
  if e.baseQuantity = 0 then .fillWithoutBase e.orderId
  else .fillFeeBeyondQuote e.orderId e.fee e.quoteQuantity

def toFill (m : MarketConfig) (e : Event) : Fill where
  side := if e.isBid then .buy else .sell
  price := Binary64.quotient (e.beforeFees.toNat * m.baseMultiplier)
    (m.quoteMultiplier * e.baseQuantity)
  size := m.baseAmount e.baseQuantity
  feeCost := if e.isMaker then (m.quoteAmount e.fee).negate else m.quoteAmount e.fee
  maker := e.isMaker
  orderId := e.orderId
  clientOrderId := e.clientOrderId
  owner := e.owner
  openOrdersSlot := e.openOrdersSlot
  feeTier := e.feeTier
  sequenceNumber := e.sequenceNumber

theorem fillFault_kind (e : Event) : e.fillFault.kind = .format := by
  unfold fillFault
  split <;> rfl

end Event

namespace Fill

theorem ofEvent_eq_checks (m : MarketConfig) (e : Event) :
    ofEvent m e =
      if e.baseQuantity = 0 then .error (.fillWithoutBase e.orderId)
      else if e.beforeFees < 0 then .error (.fillFeeBeyondQuote e.orderId e.fee e.quoteQuantity)
      else .ok (e.toFill m) := by
  unfold ofEvent
  cases hbid : e.isBid <;> cases hmaker : e.isMaker <;>
    simp [Event.baseQuantity, Event.quoteQuantity, Event.beforeFees, Event.toFill, hbid, hmaker]

theorem ofEvent_eq_error_iff {m : MarketConfig} {e : Event} {f : Fault} :
    ofEvent m e = .error f ↔ ¬ e.FillOk ∧ f = e.fillFault := by
  rw [ofEvent_eq_checks]
  by_cases hbase : e.baseQuantity = 0
  · simp [Event.FillOk, Event.fillFault, hbase, eq_comm]
  · by_cases hfee : e.beforeFees < 0
    · simp [Event.FillOk, Event.fillFault, hbase, hfee, eq_comm]
    · simp [Event.FillOk, hbase, hfee]

theorem ofEvent_of_fillOk {m : MarketConfig} {e : Event} (h : e.FillOk) :
    ofEvent m e = .ok (e.toFill m) := by
  rw [ofEvent_eq_checks, if_neg h.1, if_neg (Int.not_lt.mpr h.2)]

theorem ofEvent_isOk {m : MarketConfig} {e : Event} : (∃ f, ofEvent m e = .ok f) ↔ e.FillOk := by
  constructor
  · rintro ⟨f, hf⟩
    by_cases hok : e.FillOk
    · exact hok
    · cases hf.symm.trans (ofEvent_eq_error_iff.mpr ⟨hok, rfl⟩)
  · intro h
    exact ⟨_, ofEvent_of_fillOk h⟩

end Fill

namespace Lots

theorem ratio_of_nonneg {n d : Int} (hn : 0 ≤ n) (hd : 0 < d) :
    ratio n d = checkedQuotient n.toNat d.toNat := by
  rw [ratio, if_neg (by omega), if_neg (by omega)]

theorem scaledQuotient?_zero (d : Nat) (hd : 1 ≤ d) : ∃ r, Binary64.scaledQuotient? 0 d = some r := by
  simp only [Binary64.scaledQuotient?, Nat.gcd_zero_left, Nat.zero_div, Nat.div_self hd]
  split
  · exact ⟨_, rfl⟩
  · rw [if_pos (by decide)]
    exact ⟨_, rfl⟩

theorem checkedQuotient_of_lt {n d : Nat} (hn : n < 2 ^ 1000) (hd : 1 ≤ d) (hd' : d < 2 ^ 1000) :
    checkedQuotient n d = .ok (Binary64.quotient n d) := by
  obtain ⟨r, hr⟩ : ∃ r, Binary64.scaledQuotient? n d = some r := by
    rcases Nat.eq_zero_or_pos n with rfl | hpos
    · exact scaledQuotient?_zero d hd
    · obtain ⟨r, hr, -⟩ := Binary64.scaledQuotient?_pos hpos hn hd hd'
      exact ⟨r, hr⟩
  rw [checkedQuotient_of_scaled hr, Binary64.quotient, hr]

theorem ofAmount_of_lt {measure : Measure} {terms : Nat → Nat × Nat} {v : Int} (hv : 0 ≤ v)
    (hn : (terms v.toNat).1 < 2 ^ 1000) (hd : 1 ≤ (terms v.toNat).2)
    (hd' : (terms v.toNat).2 < 2 ^ 1000) :
    ofAmount measure terms v = .ok (Binary64.quotient (terms v.toNat).1 (terms v.toNat).2) := by
  rw [ofAmount, if_neg (Int.not_lt.mpr hv)]
  exact checkedQuotient_of_lt hn hd hd'

end Lots

theorem mul_lt_two_pow {a b i j : Nat} (ha : a < 2 ^ i) (hb : b < 2 ^ j) :
    a * b < 2 ^ (i + j) := by
  rw [Nat.pow_add]
  exact Nat.mul_lt_mul'' ha hb

/-- The bound under which no quotient reaches the decimal step (`Lots.checkedQuotient_of_lt`). -/
theorem lt_two_pow_thousand {n k : Nat} (hn : n < 2 ^ k) (hk : k < 1000) : n < 2 ^ 1000 := by
  apply Nat.lt_trans hn
  apply Nat.pow_lt_pow_right <;> omega

namespace MarketConfig

variable {m : MarketConfig}

theorem Valid.baseMultiplier_lt (hm : m.Valid) : m.baseMultiplier < 2 ^ 100 :=
  lt_of_le_of_lt (Nat.pow_le_pow_right (by decide) hm.baseDecimals_le) (by decide)

theorem Valid.quoteMultiplier_lt (hm : m.Valid) : m.quoteMultiplier < 2 ^ 100 :=
  lt_of_le_of_lt (Nat.pow_le_pow_right (by decide) hm.quoteDecimals_le) (by decide)

end MarketConfig

namespace Lots

/-- On counts of 64 bits the checked conversions refuse nothing and give what the book's
conversions give. -/
theorem ofAmount_of_word_count (m : MarketConfig) {v : Int} (h0 : 0 ≤ v) (h : v < 2 ^ 64) :
    ofAmount .priceLots m.priceRatio v = .ok (m.price v.toNat) ∧
      ofAmount .sizeLots m.baseSizeRatio v = .ok (m.baseSize v.toNat) ∧
      ofAmount .sizeLots m.quoteSizeRatio v = .ok (m.quoteSize v.toNat) ∧
      ofAmount .nativeBase m.baseAmountRatio v = .ok (m.baseAmount v.toNat) ∧
      ofAmount .nativeQuote m.quoteAmountRatio v = .ok (m.quoteAmount v.toNat) := by
  have hv : v.toNat < 2 ^ 64 := by omega
  have hB := m.valid.baseMultiplier_lt
  have hQ := m.valid.quoteMultiplier_lt
  have hB1 : 1 ≤ m.baseMultiplier := m.baseMultiplier_pos
  have hQ1 : 1 ≤ m.quoteMultiplier := m.quoteMultiplier_pos
  refine ⟨ofAmount_of_lt h0 ?_ ?_ ?_, ofAmount_of_lt h0 ?_ hB1 (lt_two_pow_thousand hB (by decide)),
    ofAmount_of_lt h0 ?_ hQ1 (lt_two_pow_thousand hQ (by decide)),
    ofAmount_of_lt h0 (lt_two_pow_thousand hv (by decide)) hB1 (lt_two_pow_thousand hB (by decide)),
    ofAmount_of_lt h0 (lt_two_pow_thousand hv (by decide)) hQ1 (lt_two_pow_thousand hQ (by decide))⟩
  · exact lt_two_pow_thousand (mul_lt_two_pow (mul_lt_two_pow hv m.quoteLotSize_lt) hB) (by decide)
  · exact Nat.mul_pos m.baseLotSize_pos hQ1
  · exact lt_two_pow_thousand (mul_lt_two_pow m.baseLotSize_lt hQ) (by decide)
  · exact lt_two_pow_thousand (mul_lt_two_pow hv m.baseLotSize_lt) (by decide)
  · exact lt_two_pow_thousand (mul_lt_two_pow hv m.quoteLotSize_lt) (by decide)

end Lots

namespace Event

variable {m : MarketConfig} {e : Event}

theorem ratios_pass_guards (hok : e.FillOk) :
    Lots.ratio (e.beforeFees * m.baseMultiplier) (m.quoteMultiplier * e.baseQuantity) =
        Lots.checkedQuotient (e.beforeFees.toNat * m.baseMultiplier)
          (m.quoteMultiplier * e.baseQuantity) ∧
      Lots.ratio e.fee m.quoteMultiplier = Lots.checkedQuotient e.fee m.quoteMultiplier ∧
      Lots.ratio e.baseQuantity m.baseMultiplier =
        Lots.checkedQuotient e.baseQuantity m.baseMultiplier := by
  have hB := m.baseMultiplier_pos
  have hQ := m.quoteMultiplier_pos
  have hbase : 0 < e.baseQuantity := Nat.pos_of_ne_zero hok.1
  obtain ⟨k, hk⟩ := Int.eq_ofNat_of_zero_le hok.2
  refine ⟨?_, ?_, ?_⟩
  · rw [hk, ← Int.natCast_mul, ← Int.natCast_mul, Lots.ratio_of_nonneg (Int.natCast_nonneg _)
      (by exact_mod_cast Nat.mul_pos hQ hbase), Int.toNat_natCast, Int.toNat_natCast,
      Int.toNat_natCast]
  · rw [Lots.ratio_of_nonneg (Int.natCast_nonneg _) (by exact_mod_cast hQ), Int.toNat_natCast,
      Int.toNat_natCast]
  · rw [Lots.ratio_of_nonneg (Int.natCast_nonneg _) (by exact_mod_cast hB), Int.toNat_natCast,
      Int.toNat_natCast]

theorem beforeFees_toNat_lt (hreleased : e.released < 2 ^ 64) (hpaid : e.paid < 2 ^ 64)
    (hfee : e.fee < 2 ^ 64) : e.beforeFees.toNat < 2 ^ 65 := by
  unfold beforeFees
  cases e.isBid <;> cases e.isMaker <;> simp only <;> omega

theorem baseQuantity_lt (hreleased : e.released < 2 ^ 64) (hpaid : e.paid < 2 ^ 64) :
    e.baseQuantity < 2 ^ 64 := by
  unfold baseQuantity
  split <;> assumption

theorem conversions_of_words (hm : m.Valid) (hok : e.FillOk) (hreleased : e.released < 2 ^ 64)
    (hpaid : e.paid < 2 ^ 64) (hfee : e.fee < 2 ^ 64) :
    Lots.ratio (e.beforeFees * m.baseMultiplier) (m.quoteMultiplier * e.baseQuantity) =
        .ok (e.toFill m).price ∧
      Lots.ofAmount .nativeQuote m.quoteAmountRatio e.fee = .ok (m.quoteAmount e.fee) ∧
      Lots.ofAmount .nativeBase m.baseAmountRatio e.baseQuantity = .ok (e.toFill m).size := by
  have hB := hm.baseMultiplier_lt
  have hQ := hm.quoteMultiplier_lt
  have hQ1 : 1 ≤ m.quoteMultiplier := m.quoteMultiplier_pos
  have hbase := baseQuantity_lt hreleased hpaid
  have hbase1 : 1 ≤ e.baseQuantity := Nat.pos_of_ne_zero hok.1
  have hprice : e.beforeFees.toNat * m.baseMultiplier < 2 ^ 1000 :=
    lt_two_pow_thousand (mul_lt_two_pow (beforeFees_toNat_lt hreleased hpaid hfee) hB) (by decide)
  have hden : m.quoteMultiplier * e.baseQuantity < 2 ^ 1000 :=
    lt_two_pow_thousand (mul_lt_two_pow hQ hbase) (by decide)
  have hfeeCost := (Lots.ofAmount_of_word_count m (Int.natCast_nonneg e.fee) (by omega)).2.2.2.2
  have hsize :=
    (Lots.ofAmount_of_word_count m (Int.natCast_nonneg e.baseQuantity) (by omega)).2.2.2.1
  rw [Int.toNat_natCast] at hfeeCost hsize
  refine ⟨?_, hfeeCost, hsize⟩
  rw [(ratios_pass_guards hok).1,
    Lots.checkedQuotient_of_lt hprice (Nat.mul_le_mul hQ1 hbase1) hden]
  rfl

end Event

theorem fills_eq (m : MarketConfig) (events : List Event) :
    fills m events = (events.filter Event.kept).mapM (Fill.ofEvent m) :=
  rfl

/-- The fills of a list of events under any market. `fills` keeps the events flagged as fills
that paid something, in their order. It reads every one of them, into its fill by the rules of
fills, exactly when each moved base quantity and has a nonnegative quote amount before fees;
otherwise it is refused, as a format fault, for the first kept event that does not. For every
kept event that makes a fill, the three ratios of its fill (the price, the fee and the size)
pass the zero-denominator and negative-operand guards of `Lots.ratio` and go straight to their
quotients; with 64-bit amounts under a valid market they give the fill's price, its fee cost
up to sign, and its size. -/
theorem fills_keep_fill_events (m : MarketConfig) (events : List Event) :
    ((∃ fs, fills m events = .ok fs) ↔ ∀ e ∈ events.filter Event.kept, e.FillOk) ∧
    (∀ fs, fills m events = .ok fs → fs = (events.filter Event.kept).map (Event.toFill m)) ∧
    (∀ f, fills m events = .error f ↔
      ∃ pre e post, events.filter Event.kept = pre ++ e :: post ∧ (∀ x ∈ pre, x.FillOk) ∧
        ¬ e.FillOk ∧ f = e.fillFault) ∧
    (∀ f, fills m events = .error f → f.kind = .format) ∧
    (∀ e ∈ events.filter Event.kept, e.FillOk →
      Lots.ratio (e.beforeFees * m.baseMultiplier) (m.quoteMultiplier * e.baseQuantity) =
          Lots.checkedQuotient (e.beforeFees.toNat * m.baseMultiplier)
            (m.quoteMultiplier * e.baseQuantity) ∧
        Lots.ratio e.fee m.quoteMultiplier = Lots.checkedQuotient e.fee m.quoteMultiplier ∧
        Lots.ratio e.baseQuantity m.baseMultiplier =
          Lots.checkedQuotient e.baseQuantity m.baseMultiplier) ∧
    ∀ e ∈ events.filter Event.kept, e.FillOk → m.Valid →
      e.released < 2 ^ 64 → e.paid < 2 ^ 64 → e.fee < 2 ^ 64 →
      Lots.ratio (e.beforeFees * m.baseMultiplier) (m.quoteMultiplier * e.baseQuantity) =
          .ok (e.toFill m).price ∧
        Lots.ofAmount .nativeQuote m.quoteAmountRatio e.fee = .ok (m.quoteAmount e.fee) ∧
        Lots.ofAmount .nativeBase m.baseAmountRatio e.baseQuantity = .ok (e.toFill m).size := by
  have herror : ∀ f, fills m events = .error f ↔
      ∃ pre e post, events.filter Event.kept = pre ++ e :: post ∧ (∀ x ∈ pre, x.FillOk) ∧
        ¬ e.FillOk ∧ f = e.fillFault := by
    intro f
    rw [fills_eq, Except.mapM_eq_error_iff]
    simp only [Fill.ofEvent_isOk, Fill.ofEvent_eq_error_iff]
  have hall : (∀ e ∈ events.filter Event.kept, e.FillOk) →
      fills m events = .ok ((events.filter Event.kept).map (Event.toFill m)) := fun hall =>
    Except.mapM_eq_map fun e he => Fill.ofEvent_of_fillOk (hall e he)
  have hsome : ∀ fs, fills m events = .ok fs → ∀ e ∈ events.filter Event.kept, e.FillOk :=
    fun fs hfs e he => Fill.ofEvent_isOk.mp (Except.isOk_of_mapM_eq_ok hfs e he)
  refine ⟨⟨fun ⟨fs, hfs⟩ => hsome fs hfs, fun h => ⟨_, hall h⟩⟩, fun fs hfs => ?_, herror,
    fun f hf => ?_, fun e _ hok => Event.ratios_pass_guards hok,
    fun e _ hok hm => Event.conversions_of_words hm hok⟩
  · rw [hall (hsome fs hfs)] at hfs
    exact (Except.ok.inj hfs).symm
  · obtain ⟨-, e, -, -, -, -, rfl⟩ := (herror f).mp hf
    exact e.fillFault_kind

def makerBid : Event := ⟨13, 0, 0, 2, 10, 1, 7, List.replicate 32 0, 0, 5⟩

def outEvent : Event := ⟨2, 0, 0, 0, 3, 0, 8, List.replicate 32 0, 0, 6⟩

def unpaidFill : Event := ⟨1, 0, 0, 4, 0, 0, 9, List.replicate 32 0, 0, 7⟩

theorem makerBid_is_the_only_fill :
    (∀ e ∈ [outEvent, makerBid, unpaidFill].filter Event.kept, e.FillOk) ∧
      fills (.ofSizes 1 1 0 0) [outEvent, makerBid, unpaidFill] =
        .ok [makerBid.toFill (.ofSizes 1 1 0 0)] := by
  obtain ⟨hiff, hmap, -⟩ :=
    fills_keep_fill_events (.ofSizes 1 1 0 0)
      [outEvent, makerBid, unpaidFill]
  have hok : ∀ e ∈ [outEvent, makerBid, unpaidFill].filter Event.kept, e.FillOk := by decide
  have hkept : [outEvent, makerBid, unpaidFill].filter Event.kept = [makerBid] := by decide
  obtain ⟨fs, hfs⟩ := hiff.mpr hok
  refine ⟨hok, ?_⟩
  rw [hfs, hmap fs hfs, hkept]
  rfl

end Clob
