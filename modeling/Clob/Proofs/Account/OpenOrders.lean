import Clob.Account.OpenOrders
import Clob.Proofs.Book.Account
/-!
# Reading an open-orders account

Reading an open-orders account checks, in order, that its envelope is whole, that its flags mark
an initialized open-orders account and that its body has the size of one of the two layouts
(`OpenOrders.EnvelopeOk`); each failure is a format fault. Only then is a given address checked
to have 32 bytes, a failure being a value fault. The account is then read at the layout's fixed
offsets in the body (`OpenOrders.Layout`), and it is of the second version exactly when its body
has 3208 bytes. `OpenOrders.decode_cases` says all of this once; every later lemma is a case
analysis on it.

The live slots of an account are the slots below 128 whose bit in the free-slot mask is clear, in
increasing order (`OpenOrders.liveSlots_eq`). For a decoded account each carries the order key at
body offset `128 + 16 * s`, the client order id at `2176 + 8 * s` and, as its side, bit `s` of
the bid mask at offset 112 (`OpenOrders.decode_checks_then_reads_live_slots`). The order ids of an
account are the keys of its live slots (`OpenOrders.mem_orderIds`).
-/

namespace Clob

namespace OpenOrders

open Orderbook (flagsOf bodyOf)
open LittleEndian (field slice)

def Marked (data : List UInt8) : Prop :=
  (flagsOf data).has .initialized = true ∧ (flagsOf data).has .openOrders = true

def Sized (data : List UInt8) : Prop :=
  (bodyOf data).length = sizeV1 ∨ (bodyOf data).length = sizeV2

structure EnvelopeOk (data : List UInt8) : Prop where
  whole : Envelope.overhead ≤ data.length
  marked : Marked data
  sized : Sized data

def AddressOk (address : Option (List UInt8)) : Prop := ∀ a, address = some a → a.length = 32

/-- An account read from `body` at the offsets of the layout, with the given address. -/
structure Layout (body : List UInt8) (address : Option (List UInt8)) (o : OpenOrders) : Prop where
  market : o.market = slice body 0 32
  owner : o.owner = slice body 32 32
  baseFree : o.baseFree = field body 64 8
  baseTotal : o.baseTotal = field body 72 8
  quoteFree : o.quoteFree = field body 80 8
  quoteTotal : o.quoteTotal = field body 88 8
  freeSlotBits : o.freeSlotBits = field body 96 16
  isBidBits : o.isBidBits = field body 112 16
  orders : o.orders = (List.range slotCount).map fun i => field body (128 + 16 * i) 16
  clientIds : o.clientIds = (List.range slotCount).map fun i => field body (2176 + 8 * i) 8
  referrerRebates : o.referrerRebates =
    if body.length = sizeV2 then some (field body sizeV1 8) else none
  address : o.address = address

variable {data : List UInt8} {address : Option (List UInt8)} {o : OpenOrders}

theorem decode_cases (data : List UInt8) (address : Option (List UInt8)) :
    (data.length < Envelope.overhead ∧
        decode data address = .error (.envelopeShort .openOrders data.length)) ∨
    (Envelope.overhead ≤ data.length ∧ ¬ Marked data ∧
        decode data address = .error (.openOrdersUnmarked (flagsOf data))) ∨
    (Envelope.overhead ≤ data.length ∧ Marked data ∧ ¬ Sized data ∧
        decode data address = .error (.openOrdersBodySize (bodyOf data).length)) ∨
    (EnvelopeOk data ∧ ∃ a, address = some a ∧ a.length ≠ 32 ∧
        decode data address = .error (.openOrdersAddressSize a.length)) ∨
    (EnvelopeOk data ∧ AddressOk address ∧
        ∃ o, decode data address = .ok o ∧ Layout (bodyOf data) address o) := by
  by_cases hshort : data.length < Envelope.overhead
  · exact .inl ⟨hshort, by simp only [decode, bind, Except.bind, Envelope.split, if_pos hshort]⟩
  have hwhole := Nat.le_of_not_lt hshort
  simp only [decode, bind, Except.bind, pure, Except.pure, throw, throwThe, MonadExceptOf.throw,
    Envelope.split, if_neg hshort, ← Orderbook.flagsOf.eq_1, ← Orderbook.bodyOf.eq_1]
  by_cases hunmarked : ¬ Marked data
  · refine .inr (.inl ⟨hwhole, hunmarked, ?_⟩)
    rw [if_pos]
    revert hunmarked
    unfold Marked
    cases (flagsOf data).has .initialized <;> cases (flagsOf data).has .openOrders <;> simp
  have hmarked : Marked data := Classical.not_not.mp hunmarked
  rw [if_neg (by simp [hmarked.1, hmarked.2])]
  by_cases hunsized : ¬ Sized data
  · refine .inr (.inr (.inl ⟨hwhole, hmarked, hunsized, ?_⟩))
    rw [if_pos (by simpa [Sized, not_or] using hunsized)]
  have hsized : Sized data := Classical.not_not.mp hunsized
  rw [if_neg (by rcases hsized with h | h <;> simp [h])]
  have hok : EnvelopeOk data := ⟨hwhole, hmarked, hsized⟩
  cases address with
  | none => exact .inr (.inr (.inr (.inr ⟨hok, (fun _ h => by cases h), _, rfl, ⟨rfl, rfl, rfl, rfl,
      rfl, rfl, rfl, rfl, rfl, rfl, rfl, rfl⟩⟩)))
  | some a =>
    by_cases hlen : a.length = 32
    · simp only [hlen, ne_eq, not_true_eq_false, if_false]
      exact .inr (.inr (.inr (.inr ⟨hok, fun b hb => by cases hb; exact hlen, _, rfl,
        ⟨rfl, rfl, rfl, rfl, rfl, rfl, rfl, rfl, rfl, rfl, rfl, rfl⟩⟩)))
    · exact .inr (.inr (.inr (.inl ⟨hok, a, rfl, hlen, by simp only [ne_eq, hlen,
        not_false_eq_true, if_true]⟩)))

theorem decode_format_iff :
    (∃ f, decode data address = .error f ∧ f.kind = .format) ↔ ¬ EnvelopeOk data := by
  rcases decode_cases data address with ⟨hs, h⟩ | ⟨-, hm, h⟩ | ⟨-, -, hz, h⟩ | ⟨hok, a, -, -, h⟩ |
    ⟨hok, -, o, h, -⟩
  · exact ⟨fun _ hok => absurd hok.whole (Nat.not_le.mpr hs), fun _ => ⟨_, h, rfl⟩⟩
  · exact ⟨fun _ hok => hm hok.marked, fun _ => ⟨_, h, rfl⟩⟩
  · exact ⟨fun _ hok => hz hok.sized, fun _ => ⟨_, h, rfl⟩⟩
  · simp only [h, Except.error.injEq, exists_eq_left']
    exact ⟨nofun, fun h' => absurd hok h'⟩
  · simp only [h, reduceCtorEq, false_and, exists_false, false_iff, Classical.not_not]
    exact hok

theorem decode_cases_of_envelopeOk (hok : EnvelopeOk data) :
    (∃ a, address = some a ∧ a.length ≠ 32 ∧
        decode data address = .error (.openOrdersAddressSize a.length)) ∨
    (AddressOk address ∧ ∃ o, decode data address = .ok o ∧ Layout (bodyOf data) address o) := by
  rcases decode_cases data address with ⟨hs, -⟩ | ⟨-, hm, -⟩ | ⟨-, -, hz, -⟩ | ⟨-, h⟩ | ⟨-, h⟩
  · exact absurd hok.whole (Nat.not_le.mpr hs)
  · exact absurd hok.marked hm
  · exact absurd hok.sized hz
  · exact .inl h
  · exact .inr h

theorem decode_value_iff (hok : EnvelopeOk data) :
    (∃ f, decode data address = .error f ∧ f.kind = .value) ↔
      ∃ a, address = some a ∧ a.length ≠ 32 := by
  rcases @decode_cases_of_envelopeOk data address hok with ⟨a, ha, hlen, h⟩ |
    ⟨haddr, o, h, -⟩
  · exact ⟨fun _ => ⟨a, ha, hlen⟩, fun _ => ⟨_, h, rfl⟩⟩
  · simp only [h, reduceCtorEq, false_and, exists_false, false_iff, not_exists, not_and]
    exact fun a ha hlen => hlen (haddr a ha)

theorem decode_isOk (hok : EnvelopeOk data) (haddr : AddressOk address) :
    ∃ o, decode data address = .ok o := by
  rcases @decode_cases_of_envelopeOk data address hok with ⟨a, ha, hlen, -⟩ | ⟨-, o, h, -⟩
  · exact absurd (haddr a ha) hlen
  · exact ⟨o, h⟩

theorem layout_of_decode (h : decode data address = .ok o) : Layout (bodyOf data) address o := by
  rcases decode_cases data address with ⟨-, h'⟩ | ⟨-, -, h'⟩ | ⟨-, -, -, h'⟩ | ⟨-, a, -, -, h'⟩ |
    ⟨-, -, o', h', hl⟩
  · cases h.symm.trans h'
  · cases h.symm.trans h'
  · cases h.symm.trans h'
  · cases h.symm.trans h'
  · cases h.symm.trans h'
    exact hl

theorem liveSlots_eq (o : OpenOrders) :
    o.liveSlots = ((List.range slotCount).filter fun s => !o.freeSlotBits.testBit s).map
      fun s => ⟨s, o.orders.getD s 0, o.clientIds.getD s 0, o.isBidBits.testBit s⟩ := by
  rw [liveSlots, ← List.filterMap_eq_map', List.filterMap_filter]
  congr 1
  funext s
  simp only [isSlotFree, Nat.testBit_eq_decide_div_mod_eq]
  by_cases h : o.freeSlotBits / 2 ^ s % 2 = 1 <;> simp [h, Bool.beq_eq_decide_eq]

theorem getD_range_map {f : Nat → Nat} {s : Nat} (hs : s < slotCount) :
    ((List.range slotCount).map f).getD s 0 = f s := by
  simp [List.getD_eq_getElem?_getD, hs]

/-- Reading an account checks its envelope, then its address, and reads the live slots off the
body. A format fault comes exactly when the envelope is short, the flags lack initialized or
open-orders, or the body has neither 3200 nor 3208 bytes; past those checks a value fault comes
exactly when an address is given that does not have 32 bytes, and otherwise the account is read.
A read account is of the second version exactly when its body has 3208 bytes, and its live slots
are, in increasing order, the slots below 128 whose bit in the free-slot mask at offset 96 is
clear, each with the order key at `128 + 16 * s`, the client order id at `2176 + 8 * s` and
bit `s` of the bid mask at offset 112. -/
theorem decode_checks_then_reads_live_slots (data : List UInt8) (address : Option (List UInt8)) :
    ((∃ f, decode data address = .error f ∧ f.kind = .format) ↔ ¬ EnvelopeOk data) ∧
    (EnvelopeOk data → ((∃ f, decode data address = .error f ∧ f.kind = .value) ↔
      ∃ a, address = some a ∧ a.length ≠ 32)) ∧
    (EnvelopeOk data → AddressOk address → ∃ o, decode data address = .ok o) ∧
    ∀ o, decode data address = .ok o →
      (o.version = 2 ↔ (bodyOf data).length = sizeV2) ∧
      o.liveSlots =
        ((List.range slotCount).filter fun s => !(field (bodyOf data) 96 16).testBit s).map
          (fun s => ⟨s, field (bodyOf data) (128 + 16 * s) 16, field (bodyOf data) (2176 + 8 * s) 8,
            (field (bodyOf data) 112 16).testBit s⟩) ∧
      (o.liveSlots.map OpenOrderSlot.slot).Pairwise (· < ·) := by
  refine ⟨decode_format_iff, decode_value_iff, decode_isOk, fun o h => ?_⟩
  have hl := layout_of_decode h
  have hslots := liveSlots_eq o
  have hentries : ∀ s ∈ (List.range slotCount).filter (fun s => !o.freeSlotBits.testBit s),
      (⟨s, o.orders.getD s 0, o.clientIds.getD s 0, o.isBidBits.testBit s⟩ : OpenOrderSlot) =
        ⟨s, field (bodyOf data) (128 + 16 * s) 16, field (bodyOf data) (2176 + 8 * s) 8,
          o.isBidBits.testBit s⟩ := by
    intro s hs
    rw [List.mem_filter, List.mem_range] at hs
    rw [hl.orders, hl.clientIds, getD_range_map hs.1, getD_range_map hs.1]
  rw [List.map_congr_left hentries] at hslots
  refine ⟨?_, by rw [hslots, hl.freeSlotBits, hl.isBidBits], ?_⟩
  · simp only [version, hl.referrerRebates]
    split <;> simp_all
  · rw [hslots, List.map_map]
    exact (List.pairwise_lt_range.filter _).map _ fun _ _ h => h

/-- An account of the first layout with one live slot, the last, on the bid side: order key `1`
and client order id `42`. -/
def lastSlotAccount : List UInt8 :=
  List.replicate 5 0 ++ [5, 0, 0, 0, 0, 0, 0, 0] ++
    List.replicate 96 0 ++ List.replicate 15 255 ++ [127] ++ List.replicate 15 0 ++ [128] ++
    List.replicate 2032 0 ++ [1] ++ List.replicate 15 0 ++
    List.replicate 1016 0 ++ [42] ++ List.replicate 7 0 ++ List.replicate 7 0

theorem lastSlotAccount_reads :
    EnvelopeOk lastSlotAccount ∧ AddressOk none ∧ ∃ o, decode lastSlotAccount none = .ok o := by
  have hlen : lastSlotAccount.length = 3220 := by
    simp only [lastSlotAccount, List.length_append, List.length_replicate, List.length_cons,
      List.length_nil]
  have hok : EnvelopeOk lastSlotAccount :=
    ⟨by rw [hlen]; decide, ⟨by decide, by decide⟩,
      .inl (by rw [Orderbook.length_bodyOf, hlen]; decide)⟩
  have haddr : AddressOk none := fun _ h => nomatch h
  exact ⟨hok, haddr, (decode_checks_then_reads_live_slots lastSlotAccount none).2.2.1 hok haddr⟩

example :
    (decode lastSlotAccount none).toOption.map liveSlots = some [⟨127, 1, 42, true⟩] := by
  decide +kernel

theorem mem_orderIds (o : OpenOrders) (k : Nat) :
    k ∈ o.orderIds ↔ ∃ s < slotCount, o.freeSlotBits.testBit s = false ∧ o.orders.getD s 0 = k := by
  simp only [orderIds, List.mem_eraseDups, List.mem_mergeSort, liveSlots_eq, List.map_map,
    List.mem_map, List.mem_filter, List.mem_range, Function.comp_apply, Bool.not_eq_eq_eq_not,
    Bool.not_true]
  constructor
  · rintro ⟨s, ⟨hs, hfree⟩, rfl⟩
    exact ⟨s, hs, hfree, rfl⟩
  · rintro ⟨s, hs, hfree, rfl⟩
    exact ⟨s, ⟨hs, hfree⟩, rfl⟩

end OpenOrders

end Clob
