import Clob.Book.Order
import Clob.Proofs.Account.OpenOrders
import Clob.Proofs.Slab.Walk
/-!
# Which orders a list of owners claims

An owner claims owner texts and order keys (`OwnerRef.ClaimsText`, `OwnerRef.ClaimsId`): a key
claims its hex, a text claims itself in lower case, an account with an address claims the hex of
the address, and an account without one claims the keys of its live slots. `Orderbook.claims`
folds a list of owners into the texts and keys any of them claims (`Orderbook.mem_claims_texts`,
`Orderbook.mem_claims_ids`), so the orders of the owners are the leaves of the ascending walk that
some owner claims by owner or by key (`Orderbook.ownedBy_eq`). That depends on the owners as a set
only, not on their order or on repeats.
-/

namespace Clob

namespace OwnerRef

def ClaimsText : OwnerRef → String → Prop
  | .key bs, t => Hex.encode bs = t
  | .text s, t => s.toString?.map String.toLower = some t
  | .account a, t => a.address.map Hex.encode = some t

def ClaimsId : OwnerRef → Nat → Prop
  | .account a, k => a.address = none ∧
      ∃ s < OpenOrders.slotCount, a.freeSlotBits.testBit s = false ∧ a.orders.getD s 0 = k
  | _, _ => False

instance : (o : OwnerRef) → (t : String) → Decidable (o.ClaimsText t)
  | .key bs, t => inferInstanceAs (Decidable (Hex.encode bs = t))
  | .text s, t => inferInstanceAs (Decidable (s.toString?.map String.toLower = some t))
  | .account a, t => inferInstanceAs (Decidable (a.address.map Hex.encode = some t))

instance : (o : OwnerRef) → (k : Nat) → Decidable (o.ClaimsId k)
  | .account a, k => inferInstanceAs (Decidable (a.address = none ∧
      ∃ s < OpenOrders.slotCount, a.freeSlotBits.testBit s = false ∧ a.orders.getD s 0 = k))
  | .key _, _ => inferInstanceAs (Decidable False)
  | .text _, _ => inferInstanceAs (Decidable False)

end OwnerRef

namespace Orderbook

theorem mem_foldl {σ β : Type} (get : σ → List β) (P : OwnerRef → β → Prop)
    {f : σ → OwnerRef → σ} (hf : ∀ acc o x, x ∈ get (f acc o) ↔ x ∈ get acc ∨ P o x)
    (owners : List OwnerRef) (acc : σ) (x : β) :
    x ∈ get (owners.foldl f acc) ↔ x ∈ get acc ∨ ∃ o ∈ owners, P o x := by
  induction owners generalizing acc with
  | nil => simp
  | cons o rest ih =>
    rw [List.foldl_cons, ih, hf]
    simp only [List.mem_cons, exists_eq_or_imp, or_assoc]

theorem mem_claims_texts (owners : List OwnerRef) (t : String) :
    t ∈ (claims owners).1 ↔ ∃ o ∈ owners, o.ClaimsText t := by
  unfold claims
  rw [mem_foldl Prod.fst OwnerRef.ClaimsText ?step]
  · simp
  intro ⟨texts, ids⟩ o x
  cases o with
  | key bs => simp [OwnerRef.ClaimsText, eq_comm, or_comm]
  | text s =>
    rcases Option.eq_none_or_eq_some s.toString? with h | ⟨s', h⟩ <;>
      simp [OwnerRef.ClaimsText, h, eq_comm, or_comm]
  | account a =>
    rcases Option.eq_none_or_eq_some a.address with h | ⟨addr, h⟩ <;>
      simp [OwnerRef.ClaimsText, h, eq_comm, or_comm]

theorem mem_claims_ids (owners : List OwnerRef) (k : Nat) :
    k ∈ (claims owners).2 ↔ ∃ o ∈ owners, o.ClaimsId k := by
  unfold claims
  rw [mem_foldl Prod.snd OwnerRef.ClaimsId ?step]
  · simp
  intro ⟨texts, ids⟩ o x
  cases o with
  | key bs => simp [OwnerRef.ClaimsId]
  | text s =>
    rcases Option.eq_none_or_eq_some s.toString? with h | ⟨s', h⟩ <;>
      simp [OwnerRef.ClaimsId, h]
  | account a =>
    rcases Option.eq_none_or_eq_some a.address with h | ⟨addr, h⟩
    · simp [OwnerRef.ClaimsId, h, OpenOrders.mem_orderIds, or_comm]
    · simp [OwnerRef.ClaimsId, h]

/-- A leaf that some owner claims, by its owner's hex or by its key. -/
def Claimed (owners : List OwnerRef) (l : Leaf) : Prop :=
  ∃ o ∈ owners, o.ClaimsText (Hex.encode l.owner) ∨ o.ClaimsId l.key

instance (owners : List OwnerRef) (l : Leaf) : Decidable (Claimed owners l) :=
  inferInstanceAs (Decidable (∃ o ∈ owners, _))

/-- The orders of the owners are those of the claimed leaves of the ascending walk, in its
order, or the fault that ended the walk. -/
theorem ownedBy_eq (b : Orderbook) (owners : List OwnerRef) :
    b.ownedBy owners = (b.slab.walk false).toExcept.map fun leaves =>
      (leaves.filter fun l => decide (Claimed owners l)).map b.order := by
  simp only [ownedBy]
  congr
  funext leaves
  congr 2
  funext l
  rw [Bool.eq_iff_iff, Bool.or_eq_true, List.contains_iff_mem, List.contains_iff_mem,
    mem_claims_texts, mem_claims_ids, decide_eq_true_iff, Claimed]
  simp only [and_or_left, exists_or]

/-- On a book whose ascending walk completes, the orders of a list of owners are, in ascending
key order, the orders of exactly the leaves that some owner claims: by owner, the hex of a key,
a text in lower case or the hex of an account's address; by key, a live slot's order key of an
account without an address. The result depends on the owners as a set only. The orders of a list
of accounts on two such books are those on the bid book followed by those on the ask book. -/
theorem ownedBy_keeps_claimed_orders (b : Orderbook) (owners : List OwnerRef)
    (hw : (b.slab.walk false).fault = none) :
    b.ownedBy owners =
        .ok (((b.slab.walk false).leaves.filter fun l => decide (Claimed owners l)).map b.order) ∧
      (∀ owners' : List OwnerRef, (∀ o, o ∈ owners' ↔ o ∈ owners) →
        b.ownedBy owners' = b.ownedBy owners) ∧
      ∀ (asks : Orderbook) (accounts : List OpenOrders), (asks.slab.walk false).fault = none →
        ordersOfAccounts b asks accounts =
          .ok (((b.slab.walk false).leaves.filter fun l =>
              decide (Claimed (accounts.map .account) l)).map b.order ++
            ((asks.slab.walk false).leaves.filter fun l =>
              decide (Claimed (accounts.map .account) l)).map asks.order) := by
  have hcomplete : ∀ c : Orderbook, (c.slab.walk false).fault = none →
      ∀ os, c.ownedBy os =
        .ok (((c.slab.walk false).leaves.filter fun l => decide (Claimed os l)).map c.order) := by
    intro c hc os
    rw [ownedBy_eq, Walk.toExcept, hc]
    rfl
  refine ⟨hcomplete b hw owners, fun owners' hsame => ?_, fun asks accounts hasks => ?_⟩
  · have hclaimed : ∀ l, Claimed owners' l ↔ Claimed owners l := fun l =>
      ⟨fun ⟨o, ho, h⟩ => ⟨o, (hsame o).mp ho, h⟩, fun ⟨o, ho, h⟩ => ⟨o, (hsame o).mpr ho, h⟩⟩
    simp only [ownedBy_eq, hclaimed]
  · simp only [ordersOfAccounts, hcomplete b hw, hcomplete asks hasks]
    rfl

def twoOwnerAsks : Orderbook :=
  ⟨⟨⟨3, 0, 0, 0, 2⟩, #[.inner ⟨124, 5, 1, 2⟩, .leaf ⟨1, 0, 0, 5, List.replicate 32 1, 10, 1⟩,
      .leaf ⟨2, 0, 0, 9, List.replicate 32 2, 20, 2⟩]⟩, .sell, .ofSizes 1 1 0 0⟩

theorem twoOwnerAsks_claimed_by_first_key :
    (twoOwnerAsks.slab.walk false).fault = none ∧
      twoOwnerAsks.ownedBy [.key (List.replicate 32 1)] =
        .ok [twoOwnerAsks.order ⟨1, 0, 0, 5, List.replicate 32 1, 10, 1⟩] := by
  have hw : (twoOwnerAsks.slab.walk false).fault = none := by decide +kernel
  have hclaimed : (twoOwnerAsks.slab.walk false).leaves.filter
      (fun l => decide (Claimed [.key (List.replicate 32 1)] l)) =
      [⟨1, 0, 0, 5, List.replicate 32 1, 10, 1⟩] := by
    decide +kernel
  rw [(ownedBy_keeps_claimed_orders twoOwnerAsks _ hw).1, hclaimed]
  exact ⟨hw, rfl⟩

end Orderbook

end Clob
