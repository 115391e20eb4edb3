import Clob.Book.Order
import Clob.Market.Config
import Clob.Queue.Fill
import Clob.Proofs.Book.Depth
import Clob.Proofs.Numeric.Quotient
import Clob.Proofs.Queue.Ring
/-!
# Field constraints of the records handed out

The order book and the event queue hand out orders, price levels and fills, and each kind of
record constrains its fields: identifiers and lot counts fit the words they stand for, an owner is
written as 64 lowercase hex digits, slots and fee tiers fit a byte, prices and sizes are not
negative, the size of a fill is positive and its fee cost has the sign of its side of the trade:
no more than zero for the maker, no less for the taker.

Every record built from data that decodes meets them, under every market configuration.
The integers are bounded by the widths of the byte fields they are read from. The numbers are
quotients of naturals, never negative and never a NaN (`Binary64.NonNeg.quotient`); the size of
a fill divides a positive amount by at most `10 ^ 30` and is positive
(`Binary64.quotient_magnitude_pos`). Orders are built only from leaves of the arena, wherever a
walk or a search finds them, also when a walk ends in a fault after some of them.
-/

namespace Clob

namespace LittleEndian

theorem length_of_mem_records {size count : Nat} {bytes r : List UInt8}
    (hlen : size * count ≤ bytes.length) (hr : r ∈ records size count bytes) :
    r.length = size := by
  induction count generalizing bytes with
  | zero => simp [records] at hr
  | succ count ih =>
      rw [Nat.mul_succ] at hlen
      simp only [records, List.mem_cons] at hr
      rcases hr with rfl | hr
      · simp only [List.length_take]
        omega
      · exact ih (by simp only [List.length_drop]; omega) hr

end LittleEndian

namespace Hex

def IsKeyText (s : String) : Prop :=
  s.length = 64 ∧ ∀ c ∈ s.toList, ('0' ≤ c ∧ c ≤ '9') ∨ ('a' ≤ c ∧ c ≤ 'f')

theorem digit_isLowerHex : ∀ n < 16, ('0' ≤ digit n ∧ digit n ≤ '9') ∨
    ('a' ≤ digit n ∧ digit n ≤ 'f') := by
  decide

theorem length_flatMap_byteChars (bs : List UInt8) : (bs.flatMap byteChars).length = 2 * bs.length := by
  induction bs with
  | nil => rfl
  | cons b bs ih =>
      simp only [List.flatMap_cons, List.length_append, ih, List.length_cons, byteChars,
        List.length_nil]
      omega

theorem isKeyText_encode {bs : List UInt8} (h : bs.length = 32) : IsKeyText (encode bs) := by
  refine ⟨by rw [encode, String.length_ofList, length_flatMap_byteChars, h], fun c hc => ?_⟩
  simp only [encode, String.toList_ofList, List.mem_flatMap] at hc
  obtain ⟨b, -, hc⟩ := hc
  have hb := b.toNat_lt
  simp only [byteChars, List.mem_cons, List.not_mem_nil, or_false] at hc
  rcases hc with rfl | rfl
  · exact digit_isLowerHex _ (by omega)
  · exact digit_isLowerHex _ (Nat.mod_lt _ (by norm_num))

end Hex

structure Leaf.InRange (l : Leaf) : Prop where
  ownerSlot_lt : l.ownerSlot < 2 ^ 8
  feeTier_lt : l.feeTier < 2 ^ 8
  key_lt : l.key < 2 ^ 128
  owner_length : l.owner.length = 32
  quantity_lt : l.quantity < 2 ^ 64
  clientOrderId_lt : l.clientOrderId < 2 ^ 64

theorem Leaf.InRange.priceLots_lt {l : Leaf} (h : l.InRange) : l.priceLots < 2 ^ 64 := by
  have := h.key_lt
  simp only [priceLots]
  omega

namespace Slab

def HasLeaf (s : Slab) (l : Leaf) : Prop := ∃ i : Nat, s.nodes[i]? = some (Node.leaf l)

theorem readNode_eq_leaf {index : Nat} {r : List UInt8} {l : Leaf}
    (h : readNode index r = .ok (.leaf l)) :
    l = ⟨index, LittleEndian.field r 4 1, LittleEndian.field r 5 1, LittleEndian.field r 8 16,
      LittleEndian.slice r 24 32, LittleEndian.field r 56 8, LittleEndian.field r 64 8⟩ := by
  simp only [readNode] at h
  split at h
  · cases h
  · split at h <;> cases h
  · cases h
    rfl
  · cases h
  · cases h
  · cases h

theorem inRange_of_readNode {index : Nat} {r : List UInt8} {l : Leaf} (hr : r.length = stride)
    (h : readNode index r = .ok (.leaf l)) : l.InRange := by
  rw [readNode_eq_leaf h]
  simp only [stride] at hr
  exact ⟨LittleEndian.field_lt r 4 1, LittleEndian.field_lt r 5 1, LittleEndian.field_lt r 8 16,
    LittleEndian.length_slice (by omega), LittleEndian.field_lt r 56 8,
    LittleEndian.field_lt r 64 8⟩

theorem mem_readNodes {index : Nat} {rs : List (List UInt8)} {ns : List Node}
    (h : readNodes index rs = .ok ns) {n : Node} (hn : n ∈ ns) :
    ∃ r ∈ rs, ∃ j, readNode j r = .ok n := by
  induction rs generalizing index ns with
  | nil =>
      simp only [readNodes, Except.ok.injEq] at h
      subst h
      simp at hn
  | cons r rest ih =>
      simp only [readNodes, bind, Except.bind, pure, Except.pure] at h
      cases hr : readNode index r with
      | error e => simp [hr] at h
      | ok n' =>
          cases hrest : readNodes (index + 1) rest with
          | error e => simp [hr, hrest] at h
          | ok ns' =>
              simp only [hr, hrest, Except.ok.injEq] at h
              subst h
              rcases List.mem_cons.mp hn with rfl | hn
              · exact ⟨r, List.mem_cons_self, index, hr⟩
              · obtain ⟨r', hr', j, hj⟩ := ih hrest hn
                exact ⟨r', List.mem_cons_of_mem _ hr', j, hj⟩

theorem inRange_of_decode {data : List UInt8} {s : Slab} (h : decode data = .ok s) {l : Leaf}
    (hl : s.HasLeaf l) : l.InRange := by
  obtain ⟨i, hi⟩ := hl
  simp only [decode] at h
  split at h
  · cases h
  split at h
  · cases h
  split at h
  · cases h
  split at h
  · cases h
  cases hns : readNodes 0 (LittleEndian.records stride ((data.length - headerSize) / stride)
      (data.drop headerSize)) with
  | error e => simp [hns, Except.map] at h
  | ok ns =>
      simp only [hns, Except.map, Except.ok.injEq] at h
      subst h
      have hmem : Node.leaf l ∈ ns := by
        simp only [List.getElem?_toArray] at hi
        exact List.mem_of_getElem? hi
      obtain ⟨r, hr, j, hj⟩ := mem_readNodes hns hmem
      have hlen : stride * ((data.length - headerSize) / stride) ≤ (data.drop headerSize).length := by
        rw [List.length_drop]
        exact Nat.mul_div_le _ _
      exact inRange_of_readNode (LittleEndian.length_of_mem_records hlen hr) hj

variable {s : Slab}

theorem hasLeaf_of_mem_walkFrom {descending : Bool} {budget : Nat} {stack : List Nat} {l : Leaf}
    (h : l ∈ (s.walkFrom descending budget stack).leaves) : s.HasLeaf l := by
  induction budget generalizing stack with
  | zero =>
      cases stack <;> simp [walkFrom] at h
  | succ n ih =>
      cases stack with
      | nil => simp [walkFrom] at h
      | cons i rest =>
          simp only [walkFrom] at h
          split at h
          · simp at h
          · rename_i l' hnode
            simp only [Walk.cons, List.mem_cons] at h
            rcases h with rfl | h
            · exact ⟨i, hnode⟩
            · exact ih h
          · exact ih h
          · simp at h

theorem hasLeaf_of_mem_walk {descending : Bool} {l : Leaf} (h : l ∈ (s.walk descending).leaves) :
    s.HasLeaf l := by
  simp only [walk] at h
  split at h
  · simp at h
  · exact hasLeaf_of_mem_walkFrom h

theorem hasLeaf_of_findFrom {key : Int} {steps index : Nat} {l : Leaf}
    (h : s.findFrom key steps index = .ok (some l)) : s.HasLeaf l := by
  induction steps generalizing index with
  | zero => simp [findFrom] at h
  | succ n ih =>
      simp only [findFrom] at h
      split at h
      · cases h
      · rename_i l' hnode
        split_ifs at h with hkey
        · cases h
          exact ⟨index, hnode⟩
        · cases h
      · split_ifs at h
        · cases h
        · exact ih h
        · exact ih h
      · cases h

theorem hasLeaf_of_find {key : Int} {l : Leaf} (h : s.find key = .ok (some l)) : s.HasLeaf l := by
  simp only [find] at h
  split at h
  · cases h
  · exact hasLeaf_of_findFrom h

end Slab

namespace Walk

theorem mem_of_first {w : Walk} {l : Leaf} (h : w.first = .ok (some l)) : l ∈ w.leaves := by
  cases hw : w.leaves with
  | nil => cases hf : w.fault <;> simp [first, hw, hf] at h
  | cons l' rest =>
      simp only [first, hw, Except.ok.injEq, Option.some.injEq] at h
      subst h
      exact List.mem_cons_self

end Walk

namespace Orderbook

theorem decode_slab {data : List UInt8} {m : MarketConfig} {b : Orderbook}
    (h : decode data m = .ok b) : b.market = m ∧ ∃ bytes, Slab.decode bytes = .ok b.slab := by
  simp only [decode, bind, Except.bind, pure, Except.pure, throw, throwThe,
    MonadExceptOf.throw] at h
  split at h
  · cases h
  · split at h
    · cases h
    · split at h
      · cases h
      · split at h
        · cases h
        · split at h
          · cases h
          · rename_i slab hslab
            cases h
            exact ⟨rfl, _, hslab⟩

def LeavesInRange (b : Orderbook) : Prop := ∀ l, b.slab.HasLeaf l → l.InRange

theorem leavesInRange_of_decode {data : List UInt8} {m : MarketConfig} {b : Orderbook}
    (h : decode data m = .ok b) : b.LeavesInRange := by
  obtain ⟨-, bytes, hs⟩ := decode_slab h
  exact fun _ => Slab.inRange_of_decode hs

end Orderbook

structure Order.Valid (o : Order) : Prop where
  orderId_lt : o.orderId < 2 ^ 128
  clientOrderId_lt : o.clientOrderId < 2 ^ 64
  owner_isKeyText : Hex.IsKeyText (Hex.encode o.owner)
  ownerSlot_lt : o.ownerSlot < 2 ^ 8
  feeTier_lt : o.feeTier < 2 ^ 8
  price_nonneg : o.price.atLeast Binary64.zero = true
  priceLots_lt : o.priceLots < 2 ^ 64
  size_nonneg : o.size.atLeast Binary64.zero = true
  sizeLots_lt : o.sizeLots < 2 ^ 64

structure BookLevel.Valid (lv : BookLevel) : Prop where
  price_nonneg : lv.price.atLeast Binary64.zero = true
  size_nonneg : lv.size.atLeast Binary64.zero = true
  priceLots_lt : lv.priceLots < 2 ^ 64

structure Fill.Valid (f : Fill) : Prop where
  price_nonneg : f.price.atLeast Binary64.zero = true
  size_pos : Binary64.zero.below f.size = true
  maker_fee_not_pos : f.maker = true → Binary64.zero.below f.feeCost = false
  taker_fee_not_neg : f.maker = false → f.feeCost.below Binary64.zero = false
  orderId_lt : f.orderId < 2 ^ 128
  clientOrderId_lt : f.clientOrderId < 2 ^ 64
  owner_isKeyText : Hex.IsKeyText (Hex.encode f.owner)
  openOrdersSlot_lt : f.openOrdersSlot < 2 ^ 8
  feeTier_lt : f.feeTier < 2 ^ 8

namespace Orderbook

variable {b : Orderbook}

theorem order_valid {l : Leaf} (hl : l.InRange) : (b.order l).Valid :=
  ⟨hl.key_lt, hl.clientOrderId_lt, Hex.isKeyText_encode hl.owner_length, hl.ownerSlot_lt,
    hl.feeTier_lt, (Binary64.NonNeg.quotient _ _).atLeast_zero, hl.priceLots_lt,
    (Binary64.NonNeg.quotient _ _).atLeast_zero, hl.quantity_lt⟩

theorem exists_leaf_of_map {found : Except Fault (Option Leaf)} {o : Order}
    (h : found.map (Option.map b.order) = .ok (some o)) :
    ∃ l, found = .ok (some l) ∧ b.order l = o := by
  cases found with
  | error e => cases h
  | ok x =>
      simp only [Except.map, Except.ok.injEq] at h
      obtain ⟨l, rfl, rfl⟩ := Option.map_eq_some_iff.mp h
      exact ⟨l, rfl, rfl⟩

section InRange

variable (hb : b.LeavesInRange)
include hb

theorem order_valid_of_walk {descending : Bool} {l : Leaf}
    (hl : l ∈ (b.slab.walk descending).leaves) : (b.order l).Valid :=
  order_valid (hb l (Slab.hasLeaf_of_mem_walk hl))

theorem orders_valid (descending : Bool) : ∀ o ∈ (b.orders descending).orders, o.Valid := by
  simp only [orders, List.mem_map]
  rintro o ⟨l, hl, rfl⟩
  exact order_valid_of_walk hb hl

theorem best_valid {o : Order} (h : b.best = .ok (some o)) : o.Valid := by
  obtain ⟨l, hfirst, rfl⟩ := exists_leaf_of_map h
  exact order_valid_of_walk hb (Walk.mem_of_first hfirst)

theorem find_valid {key : Int} {o : Order} (h : b.find key = .ok (some o)) : o.Valid := by
  obtain ⟨l, hfound, rfl⟩ := exists_leaf_of_map h
  exact order_valid (hb l (Slab.hasLeaf_of_find hfound))

theorem ownedBy_valid {owners : List OwnerRef} {os : List Order} (h : b.ownedBy owners = .ok os) :
    ∀ o ∈ os, o.Valid := by
  simp only [ownedBy, Walk.toExcept] at h
  cases hf : (b.slab.walk false).fault with
  | some f => simp [hf, Except.map] at h
  | none =>
      simp only [hf, Except.map, Except.ok.injEq] at h
      subst h
      simp only [List.mem_map, List.mem_filter]
      rintro o ⟨l, ⟨hl, -⟩, rfl⟩
      exact order_valid_of_walk hb hl

theorem runLevel_valid {r : List Leaf} (hr : r ∈ b.priceRuns) : (b.runLevel r).Valid := by
  cases r with
  | nil => exact absurd hr (List.nil_notMem_splitBy _ _)
  | cons l rest =>
      have hl : l ∈ b.priorityWalk.leaves := by
        rw [← List.flatten_splitBy (samePrice b.market.price) b.priorityWalk.leaves]
        exact List.mem_flatten.mpr ⟨_, hr, List.mem_cons_self⟩
      exact ⟨(Binary64.NonNeg.quotient _ _).atLeast_zero,
        (Binary64.NonNeg.quotient _ _).atLeast_zero,
        (hb l (Slab.hasLeaf_of_mem_walk hl)).priceLots_lt⟩

theorem depth_valid {d : Int} {levels : List BookLevel} (h : b.depth d = .ok levels) :
    ∀ lv ∈ levels, lv.Valid := by
  obtain ⟨-, -, rfl⟩ := (depth_eq_ok_iff b).mp h
  simp only [List.mem_map]
  rintro lv ⟨r, hr, rfl⟩
  exact runLevel_valid hb (List.mem_of_mem_take hr)

end InRange

end Orderbook

structure Event.InRange (e : Event) : Prop where
  openOrdersSlot_lt : e.openOrdersSlot < 2 ^ 8
  feeTier_lt : e.feeTier < 2 ^ 8
  released_lt : e.released < 2 ^ 64
  paid_lt : e.paid < 2 ^ 64
  orderId_lt : e.orderId < 2 ^ 128
  owner_length : e.owner.length = 32
  clientOrderId_lt : e.clientOrderId < 2 ^ 64

namespace Event

theorem inRange_read {r : List UInt8} (hr : r.length = QueueKind.event.stride) (seq : Nat) :
    (read r seq).InRange := by
  simp only [QueueKind.stride] at hr
  exact ⟨LittleEndian.field_lt r 1 1, LittleEndian.field_lt r 2 1, LittleEndian.field_lt r 8 8,
    LittleEndian.field_lt r 16 8, LittleEndian.field_lt r 32 16,
    LittleEndian.length_slice (by omega), LittleEndian.field_lt r 80 8⟩

theorem inRange_of_decodeQueue {data : List UInt8} {history : Option Int} {q : Queue Event}
    (h : decodeQueue data history = .ok q) : ∀ e ∈ q.records, e.InRange := by
  obtain ⟨hr, ps, hps, hrec⟩ := Ring.decode_records h
  rw [hrec]
  simp only [List.mem_map]
  rintro e ⟨p, hp, rfl⟩
  exact inRange_read (Ring.length_slot hr (hps p hp)) p.2

end Event

theorem mem_of_mapM_ok {α β ε : Type} {f : α → Except ε β} {xs : List α} {ys : List β}
    (h : xs.mapM f = .ok ys) {y : β} (hy : y ∈ ys) : ∃ x ∈ xs, f x = .ok y := by
  induction xs generalizing ys with
  | nil =>
      simp only [List.mapM_nil, pure, Except.pure, Except.ok.injEq] at h
      subst h
      simp at hy
  | cons x rest ih =>
      simp only [List.mapM_cons, bind, Except.bind, pure, Except.pure] at h
      cases hx : f x with
      | error e => simp [hx] at h
      | ok y' =>
          cases hrest : rest.mapM f with
          | error e => simp [hx, hrest] at h
          | ok ys' =>
              simp only [hx, hrest, Except.ok.injEq] at h
              subst h
              rcases List.mem_cons.mp hy with rfl | hy
              · exact ⟨x, List.mem_cons_self, hx⟩
              · obtain ⟨x', hx', hfx⟩ := ih hrest hy
                exact ⟨x', List.mem_cons_of_mem _ hx', hfx⟩

namespace MarketConfig

theorem baseAmount_pos {m : MarketConfig} (hm : m.Valid) {n : Nat} (hn : 0 < n)
    (hn' : n < 2 ^ 64) : Binary64.zero.below (m.baseAmount n) = true := by
  have hbig : (2 : Nat) ^ 64 ≤ 2 ^ 1000 := by apply Nat.pow_le_pow_right <;> norm_num
  have hd : m.baseMultiplier < 2 ^ 1000 :=
    Nat.lt_of_le_of_lt (Nat.pow_le_pow_right (by norm_num) hm.baseDecimals_le)
      (Nat.lt_of_lt_of_le (by norm_num : (10 : Nat) ^ 30 < 2 ^ 100)
        (by apply Nat.pow_le_pow_right <;> norm_num))
  have hd1 : 1 ≤ m.baseMultiplier := Nat.one_le_pow _ _ (by norm_num)
  have hpos : 0 < (Binary64.quotient n m.baseMultiplier).magnitude :=
    Binary64.quotient_magnitude_pos hn (Nat.lt_of_lt_of_le hn' hbig) hd1 hd
  exact (Binary64.NonNeg.quotient _ _).zero_below hpos

end MarketConfig

namespace Fill

theorem ofEvent_eq {m : MarketConfig} {e : Event} {f : Fill} (h : ofEvent m e = .ok f) :
    ∃ side n d base, (base = e.paid ∨ base = e.released) ∧ base ≠ 0 ∧
      f = { side, price := Binary64.quotient n d, size := m.baseAmount base,
            feeCost := if e.isMaker then (m.quoteAmount e.fee).negate else m.quoteAmount e.fee,
            maker := e.isMaker, orderId := e.orderId, clientOrderId := e.clientOrderId,
            owner := e.owner, openOrdersSlot := e.openOrdersSlot, feeTier := e.feeTier,
            sequenceNumber := e.sequenceNumber } := by
  unfold ofEvent at h
  have hrecord {α : Type} {c : Prop} [Decidable c] {x : Fault} {y f : α}
      (h : (if c then .error x else .ok y) = Except.ok f) : y = f := by
    split at h <;> cases h
    rfl
  cases hbid : e.isBid <;> simp only [hbid, if_true, if_false, Bool.false_eq_true] at h
  · split at h
    · cases h
    obtain rfl := hrecord h
    exact ⟨_, _, _, _, Or.inl rfl, by assumption, rfl⟩
  · split at h
    · cases h
    obtain rfl := hrecord h
    exact ⟨_, _, _, _, Or.inr rfl, by assumption, rfl⟩

theorem ofEvent_valid {m : MarketConfig} (hm : m.Valid) {e : Event} (he : e.InRange) {f : Fill}
    (h : ofEvent m e = .ok f) : f.Valid := by
  obtain ⟨side, n, d, base, hbase, hzero, rfl⟩ := ofEvent_eq h
  have hlt : base < 2 ^ 64 := by
    rcases hbase with rfl | rfl
    · exact he.paid_lt
    · exact he.released_lt
  have hfee := Binary64.NonNeg.quotient (m.quoteAmountRatio e.fee).1 (m.quoteAmountRatio e.fee).2
  refine ⟨(Binary64.NonNeg.quotient n d).atLeast_zero,
    MarketConfig.baseAmount_pos hm (Nat.pos_of_ne_zero hzero) hlt, fun hmaker => ?_,
    fun htaker => ?_, he.orderId_lt, he.clientOrderId_lt, Hex.isKeyText_encode he.owner_length,
    he.openOrdersSlot_lt, he.feeTier_lt⟩
  · simp only at hmaker
    simp only [hmaker, if_true]
    exact hfee.negate_not_pos
  · simp only at htaker
    simp only [htaker, Bool.false_eq_true, if_false]
    exact hfee.below_zero

end Fill

theorem fills_valid {m : MarketConfig} (hm : m.Valid) {events : List Event}
    (he : ∀ e ∈ events, e.InRange) {fs : List Fill} (h : fills m events = .ok fs) :
    ∀ f ∈ fs, f.Valid := by
  intro f hf
  obtain ⟨e, hmem, hfe⟩ := mem_of_mapM_ok h hf
  exact Fill.ofEvent_valid hm (he e (List.mem_filter.mp hmem).1) hfe

/-- Under a valid market, every order and price level that a decoded book hands out, and every
fill of a decoded event queue, meets the constraints on its fields. Orders are covered in both
key orders (priority order is one of them), as the best order, as found by key and as filtered
by owner. -/
theorem decoded_records_meet_field_constraints (m : MarketConfig) (hm : m.Valid) :
    (∀ data b, Orderbook.decode data m = .ok b →
      (∀ descending, ∀ o ∈ (b.orders descending).orders, o.Valid) ∧
      (∀ o, b.best = .ok (some o) → o.Valid) ∧
      (∀ key o, b.find key = .ok (some o) → o.Valid) ∧
      (∀ owners os, b.ownedBy owners = .ok os → ∀ o ∈ os, o.Valid) ∧
      (∀ d levels, b.depth d = .ok levels → ∀ lv ∈ levels, lv.Valid)) ∧
    (∀ data history q fs, Event.decodeQueue data history = .ok q → fills m q.records = .ok fs →
      ∀ f ∈ fs, f.Valid) := by
  refine ⟨fun data b h => ?_, fun data history q fs hq hfs =>
    fills_valid hm (Event.inRange_of_decodeQueue hq) hfs⟩
  have hb := Orderbook.leavesInRange_of_decode h
  exact ⟨Orderbook.orders_valid hb, fun _ => Orderbook.best_valid hb,
    fun _ _ => Orderbook.find_valid hb, fun _ _ => Orderbook.ownedBy_valid hb,
    fun _ _ => Orderbook.depth_valid hb⟩

theorem unitMarket_records_meet_field_constraints :
    MarketConfig.Valid (.ofSizes 1 1 0 0) ∧
      ∀ data history q fs, Event.decodeQueue data history = .ok q →
        fills (.ofSizes 1 1 0 0) q.records = .ok fs →
        ∀ f ∈ fs, f.Valid := by
  have hm : MarketConfig.Valid (.ofSizes 1 1 0 0) := MarketConfig.valid _
  exact ⟨hm, (decoded_records_meet_field_constraints _ hm).2⟩

end Clob
