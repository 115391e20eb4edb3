import Mathlib
import Clob.Proofs.Book.Depth
import Clob.Proofs.Book.Priority
import Clob.Proofs.Numeric.Quotient
/-!
# Order of the depth levels

On a well-formed slab the depth levels come best first by lot price: strictly higher lot prices
for asks, strictly lower for bids (`Side.BetterPrice`), and the converted prices of neighbouring
levels differ.

The converted prices themselves need not be in order, nor all distinct. A price level opens where
the converted price changes from one order to the next, and the conversion of lot prices is not
monotone once the operands pass `2 ^ 53`: `Lots.price` cuts the numerator to 53 bits before it
divides, so a lot price can convert to a number below that of the lot price before it, and the
next lot price can convert back to the first number.
-/

namespace Clob

namespace Side

theorem BetterPrice.trans {side : Side} {p p' p'' : Nat} (h : side.BetterPrice p p')
    (h' : side.BetterPrice p' p'') : side.BetterPrice p p'' := by
  cases side <;> simp only [BetterPrice] at * <;> omega

instance betterPrice_trans (side : Side) :
    Trans side.BetterPrice side.BetterPrice side.BetterPrice where
  trans := BetterPrice.trans

end Side

theorem isChain_of_pairwise {α : Type} {R S T : α → α → Prop} {l : List α}
    (hR : l.IsChain R) (hS : l.Pairwise S) (h : ∀ a ∈ l, ∀ b ∈ l, R a b → S a b → T a b) :
    l.IsChain T := by
  induction l with
  | nil => exact .nil
  | cons a l ih =>
      cases l with
      | nil => exact .singleton a
      | cons b l =>
          rw [List.isChain_cons_cons] at hR ⊢
          have hab : S a b := List.rel_of_pairwise_cons hS List.mem_cons_self
          refine ⟨h a List.mem_cons_self b (List.mem_cons_of_mem _ List.mem_cons_self) hR.1 hab,
            ih hR.2 hS.of_cons fun x hx y hy => h x (List.mem_cons_of_mem _ hx) y
              (List.mem_cons_of_mem _ hy)⟩

namespace Orderbook

variable (b : Orderbook)

theorem samePrice_self (l : Leaf) : samePrice b.market.price l l = true := by
  have hx := Binary64.NonNeg.quotient (b.market.priceRatio l.priceLots).1
    (b.market.priceRatio l.priceLots).2
  simp [samePrice, MarketConfig.price, Binary64.sameValue, hx.isNaN_eq]

theorem priorityWalk_lots_in_order {t : CritTree} (hw : b.slab.WellFormed t) :
    b.priorityWalk.leaves.Pairwise fun x y =>
      b.side.BetterPrice x.priceLots y.priceLots ∨ x.priceLots = y.priceLots := by
  have hwalk := hw.walk_eq b.side.priorityDescending
  have hsorted := hw.critbit.sorted
  have hkeys : b.priorityWalk.leaves.Pairwise
      (fun x y => if b.side.priorityDescending then y.key < x.key else x.key < y.key) := by
    rw [priorityWalk, hwalk]
    cases b.side.priorityDescending
    · simpa using hsorted
    · simpa using List.pairwise_reverse.mpr hsorted
  refine hkeys.imp fun {x y} hxy => ?_
  rcases OrderKey.ahead_of_walk_order b.side hxy with hbetter | ⟨heq, -⟩
  · exact .inl hbetter
  · exact .inr heq

theorem priceRuns_heads_better {t : CritTree} (hw : b.slab.WellFormed t) :
    b.priceRuns.IsChain fun r r' =>
      b.side.BetterPrice (b.runLevel r).priceLots (b.runLevel r').priceLots := by
  obtain ⟨hflat, -, -, hheads⟩ := @splitBy_samePrice b.market.price
    b.priorityWalk.leaves
  have hcross := (List.pairwise_flatten.mp
    (hflat ▸ b.priorityWalk_lots_in_order hw : (b.priceRuns.flatten).Pairwise _)).2
  refine isChain_of_pairwise hheads hcross fun r hr r' hr' hapart hle => ?_
  obtain ⟨a, as, rfl⟩ := List.exists_cons_of_ne_nil (List.ne_nil_of_mem_splitBy hr)
  obtain ⟨a', as', rfl⟩ := List.exists_cons_of_ne_nil (List.ne_nil_of_mem_splitBy hr')
  have hsame : samePrice b.market.price a a' = false := hapart a rfl a' rfl
  rcases hle a List.mem_cons_self a' List.mem_cons_self with hbetter | heq
  · exact hbetter
  · have : samePrice b.market.price a a' = true := by
      rw [← samePrice_self b a]
      simp only [samePrice, heq]
    rw [hsame] at this
    exact absurd this (by decide)

/-- On a well-formed slab the depth levels come strictly best first by lot price, and each
level's converted price differs from the next one's. -/
theorem depth_levels_lots_best_first (t : CritTree) (hw : b.slab.WellFormed t) {d : Int}
    {levels : List BookLevel} (h : b.depth d = .ok levels) :
    (levels.map BookLevel.priceLots).Pairwise b.side.BetterPrice ∧
      levels.IsChain fun x y => x.price.sameValue y.price = false := by
  obtain ⟨-, -, rfl⟩ := (depth_eq_ok_iff b).mp h
  obtain ⟨-, -, -, hheads⟩ := @splitBy_samePrice b.market.price
    b.priorityWalk.leaves
  refine ⟨?_, ?_⟩
  · have hchain := (List.isChain_map (fun r => (b.runLevel r).priceLots)).mpr
      (b.priceRuns_heads_better hw)
    rw [List.map_map, List.map_take]
    exact hchain.pairwise.take
  · rw [List.isChain_map]
    refine (hheads.take d.toNat).imp_of_mem_imp fun r r' hr hr' hapart => ?_
    have hr := List.mem_of_mem_take hr
    have hr' := List.mem_of_mem_take hr'
    obtain ⟨a, as, rfl⟩ := List.exists_cons_of_ne_nil (List.ne_nil_of_mem_splitBy hr)
    obtain ⟨a', as', rfl⟩ := List.exists_cons_of_ne_nil (List.ne_nil_of_mem_splitBy hr')
    exact hapart a rfl a' rfl

/-- One ask at each of the lot prices `2 ^ 62`, `2 ^ 62 + 1` and `2 ^ 62 + 2`, in a market of unit
lots whose quote token has one decimal. The keys first differ at bit 65, then at bit 64. -/
def threeAsks : Orderbook :=
  ⟨⟨⟨5, 0, 0, 0, 3⟩, #[.inner ⟨62, 2 ^ 126 + 1, 1, 4⟩, .inner ⟨63, 2 ^ 126 + 1, 2, 3⟩,
      .leaf ⟨2, 0, 0, 2 ^ 126 + 1, [], 1, 1⟩, .leaf ⟨3, 0, 0, (2 ^ 62 + 1) * 2 ^ 64 + 2, [], 1, 2⟩,
      .leaf ⟨4, 0, 0, (2 ^ 62 + 2) * 2 ^ 64 + 3, [], 1, 3⟩]⟩,
    .sell, .ofSizes 1 1 0 1⟩

def threeAsksTree : CritTree :=
  .branch 0 ⟨62, 2 ^ 126 + 1, 1, 4⟩
    (.branch 1 ⟨63, 2 ^ 126 + 1, 2, 3⟩ (.leaf 2 ⟨2, 0, 0, 2 ^ 126 + 1, [], 1, 1⟩)
      (.leaf 3 ⟨3, 0, 0, (2 ^ 62 + 1) * 2 ^ 64 + 2, [], 1, 2⟩))
    (.leaf 4 ⟨4, 0, 0, (2 ^ 62 + 2) * 2 ^ 64 + 3, [], 1, 3⟩)

theorem threeAsks_wellFormed : threeAsks.slab.WellFormed threeAsksTree :=
  ⟨by decide, .branch rfl (.branch rfl (.leaf rfl) (.leaf rfl)) (.leaf rfl), by decide,
    by decide⟩

theorem threeAsks_levels_lots_best_first :
    (((threeAsks.priceRuns.take 5).map threeAsks.runLevel).map BookLevel.priceLots).Pairwise
        threeAsks.side.BetterPrice ∧
      ((threeAsks.priceRuns.take 5).map threeAsks.runLevel).IsChain
        fun x y => x.price.sameValue y.price = false :=
  threeAsks.depth_levels_lots_best_first threeAsksTree threeAsks_wellFormed
    ((depth_eq_ok_iff threeAsks (d := 5)).mpr
      ⟨by decide, .inl (by simp [priorityWalk, threeAsks_wellFormed.walk_eq]), rfl⟩)

/-- The three asks make three levels, and their converted prices go backwards: the second is
below the first, and the third is the first again. -/
theorem threeAsks_levels_go_backwards :
    threeAsks.slab.WellFormed threeAsksTree ∧
      (threeAsks.depth 5).toOption =
        some [⟨threeAsks.market.price (2 ^ 62), threeAsks.market.baseSize 1, 2 ^ 62, 1⟩,
          ⟨threeAsks.market.price (2 ^ 62 + 1), threeAsks.market.baseSize 1, 2 ^ 62 + 1, 1⟩,
          ⟨threeAsks.market.price (2 ^ 62 + 2), threeAsks.market.baseSize 1, 2 ^ 62 + 2, 1⟩] ∧
      (threeAsks.market.price (2 ^ 62 + 1)).below (threeAsks.market.price (2 ^ 62)) = true ∧
      (threeAsks.market.price (2 ^ 62)).sameValue (threeAsks.market.price (2 ^ 62 + 2)) = true :=
  ⟨threeAsks_wellFormed, by decide +kernel, by decide +kernel, by decide +kernel⟩

end Orderbook

end Clob
