import Clob.Book.Order
import Clob.Proofs.Slab.Walk
/-!
# Price-time priority

An order key holds the price in lots in its top 64 bits and the sequence number in the low 64,
complemented on the buy side. Ascending key order is therefore the priority of asks, the lower
price first and then the earlier order, and descending key order the priority of bids, the
higher price first and then the earlier order (`OrderKey.compose_sell_lt_iff`,
`OrderKey.compose_buy_lt_iff`). The walk of a well-formed slab lists its leaves in key order, so
a book lists its orders best first and its best order is the first of them.
-/

namespace Clob

namespace Side

def BetterPrice : Side → Nat → Nat → Prop
  | buy, p, p' => p' < p
  | sell, p, p' => p < p'

/-- Order `o` comes strictly before order `o'` on this side: at a better price, or at the same
price with an earlier sequence number. -/
def Ahead (side : Side) (o o' : Order) : Prop :=
  side.BetterPrice o.priceLots o'.priceLots ∨
    (o.priceLots = o'.priceLots ∧
      OrderKey.sequence side o.orderId < OrderKey.sequence side o'.orderId)

end Side

namespace OrderKey

theorem compose_sell_lt_iff {p s p' s' : Nat} (hs : s < wordBound) (hs' : s' < wordBound) :
    compose .sell p s < compose .sell p' s' ↔ p < p' ∨ p = p' ∧ s < s' := by
  simp only [compose, lowHalf, wordBound] at *
  omega

theorem compose_buy_lt_iff {p s p' s' : Nat} (hs : s < wordBound) (hs' : s' < wordBound) :
    compose .buy p' s' < compose .buy p s ↔ p' < p ∨ p = p' ∧ s < s' := by
  simp only [compose, lowHalf, wordBound] at *
  omega

theorem ahead_of_walk_order (side : Side) {k k' : Nat}
    (h : if side.priorityDescending then k' < k else k < k') :
    side.BetterPrice (k / wordBound) (k' / wordBound) ∨
      (k / wordBound = k' / wordBound ∧ sequence side k < sequence side k') := by
  cases side <;>
    simp only [Side.priorityDescending, Side.BetterPrice, sequence, lowHalf, wordBound,
      if_true, Bool.false_eq_true, if_false] at h ⊢ <;>
    omega

end OrderKey

namespace Orderbook

/-- The orders of a book on a well-formed slab come best first, without a fault, and the best
order is the first of them. This rests on the order that keys embed: among asks a smaller key is
a lower price or the same price and an earlier order, and among bids a larger key is a higher
price or the same price and an earlier order, for any prices and 64-bit sequence numbers. -/
theorem byPriority_best_first (b : Orderbook) (t : CritTree) (hw : b.slab.WellFormed t) :
    (b.byPriority.fault = none ∧ b.byPriority.orders.Pairwise b.side.Ahead ∧
      b.best = .ok b.byPriority.orders.head?) ∧
    ∀ p s p' s', s < OrderKey.wordBound → s' < OrderKey.wordBound →
      (OrderKey.compose .sell p s < OrderKey.compose .sell p' s' ↔ p < p' ∨ p = p' ∧ s < s') ∧
      (OrderKey.compose .buy p s > OrderKey.compose .buy p' s' ↔ p > p' ∨ p = p' ∧ s < s') := by
  refine ⟨?_, fun p s p' s' hs hs' =>
    ⟨OrderKey.compose_sell_lt_iff hs hs', OrderKey.compose_buy_lt_iff hs hs'⟩⟩
  have hwalk := hw.walk_eq b.side.priorityDescending
  have hsorted := hw.critbit.sorted
  have hkeys : (if b.side.priorityDescending then t.leaves.reverse else t.leaves).Pairwise
      (fun x y => if b.side.priorityDescending then y.key < x.key else x.key < y.key) := by
    cases b.side.priorityDescending
    · simpa using hsorted
    · simpa using List.pairwise_reverse.mpr hsorted
  refine ⟨by simp [byPriority, orders, hwalk], ?_, ?_⟩
  · simp only [byPriority, orders, hwalk, List.pairwise_map]
    exact hkeys.imp fun h => OrderKey.ahead_of_walk_order b.side h
  · simp [best, byPriority, orders, hwalk, Walk.first_of_complete, Except.map]

theorem twoLeaf_byPriority :
    Slab.twoLeaf.WellFormed Slab.twoLeafTree ∧
      List.Pairwise Side.sell.Ahead
        (mk Slab.twoLeaf .sell (.ofSizes 1 1 0 0)).byPriority.orders :=
  ⟨Slab.twoLeaf_wellFormed,
    (byPriority_best_first ⟨Slab.twoLeaf, .sell, .ofSizes 1 1 0 0⟩
      Slab.twoLeafTree Slab.twoLeaf_wellFormed).1.2.1⟩

end Orderbook

end Clob
