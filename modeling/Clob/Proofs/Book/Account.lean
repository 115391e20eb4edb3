import Clob.Book.Order
import Clob.Proofs.Slab.Decode
/-!
# What an order book account reads

An order book account is an envelope around a slab: five marker bytes, a flag word, the body
`B`, and seven marker bytes. Reading it checks the envelope's length, that the flags mark an
initialized account of exactly one side, and that the body holds a slab header
(`Orderbook.EnvelopeOk`); it then reads as a slab the prefix `S` of the body that holds whole
records (`Orderbook.slabBytes`), which leaves fewer than 72 bytes of the body unread. The cut makes the record stride exact, so the slab's
stride check never fails.

So the book depends only on the length of the account, the initialized, bids and asks flags,
and the bytes of `S` (`Orderbook.SameBook`): the marker bytes, the other flag bits and the
remainder of the body after `S` may change without changing the book, or whether there is one.
-/

namespace Clob

namespace Orderbook

def flagsOf (data : List UInt8) : AccountFlags := AccountFlags.ofWord (LittleEndian.field data 5 8)

def bodyOf (data : List UInt8) : List UInt8 :=
  LittleEndian.slice data 13 (data.length - Envelope.overhead)

def slabBytes (data : List UInt8) : List UInt8 :=
  (bodyOf data).take (Slab.headerSize + Slab.stride * Slab.recordCount (bodyOf data).length)

/-- Two accounts that differ at most where an order book does not look: the marker bytes, the
flag bits other than initialized, bids and asks, and the body after its whole records. -/
structure SameBook (data data' : List UInt8) : Prop where
  length_eq : data'.length = data.length
  initialized_eq : (flagsOf data').has .initialized = (flagsOf data).has .initialized
  bids_eq : (flagsOf data').has .bids = (flagsOf data).has .bids
  asks_eq : (flagsOf data').has .asks = (flagsOf data).has .asks
  slab_eq : ∀ i < (slabBytes data).length, data'[13 + i]? = data[13 + i]?

structure EnvelopeOk (data : List UInt8) : Prop where
  whole : Envelope.overhead ≤ data.length
  initialized : (flagsOf data).has .initialized = true
  one_side : (flagsOf data).has .bids ≠ (flagsOf data).has .asks
  slab_header : Slab.headerSize ≤ (bodyOf data).length

def sideOf (data : List UInt8) : Side := if (flagsOf data).has .bids then .buy else .sell

variable {data data' : List UInt8} {m : MarketConfig}

theorem length_bodyOf (data : List UInt8) :
    (bodyOf data).length = data.length - Envelope.overhead := by
  simp only [bodyOf, LittleEndian.slice, List.length_take, List.length_drop, Envelope.overhead]
  omega

theorem sub_slop {size : Nat} (h : Slab.headerSize ≤ size) :
    size - (size - Slab.headerSize) % Slab.stride =
      Slab.headerSize + Slab.stride * Slab.recordCount size := by
  have hdiv := Nat.div_add_mod (size - Slab.headerSize) Slab.stride
  simp only [Slab.recordCount] at *
  omega

theorem decode_eq (data : List UInt8) (m : MarketConfig) :
    decode data m =
      if data.length < Envelope.overhead then .error (.envelopeShort .orderbook data.length)
      else if !(flagsOf data).has .initialized then .error (.bookUninitialized (flagsOf data))
      else if (flagsOf data).has .bids == (flagsOf data).has .asks then
        .error (.bookSideUnclear (flagsOf data))
      else if (bodyOf data).length < Slab.headerSize then
        .error (.bookSlabShort (bodyOf data).length)
      else (Slab.decode (slabBytes data)).map fun s => ⟨s, sideOf data, m⟩ := by
  by_cases hshort : data.length < Envelope.overhead
  · simp only [decode, bind, Except.bind, Envelope.split, if_pos hshort]
  simp only [decode, bind, Except.bind, pure, Except.pure, throw, throwThe, MonadExceptOf.throw,
    Envelope.split, if_neg hshort, ← flagsOf.eq_1, ← bodyOf.eq_1]
  by_cases hinit : (!(flagsOf data).has .initialized) = true
  · simp only [if_pos hinit]
  simp only [if_neg hinit]
  by_cases hside : ((flagsOf data).has .bids == (flagsOf data).has .asks) = true
  · simp only [if_pos hside]
  simp only [if_neg hside]
  by_cases hbody : (bodyOf data).length < Slab.headerSize
  · simp only [if_pos hbody]
  simp only [if_neg hbody, sub_slop (Nat.le_of_not_lt hbody), ← slabBytes.eq_1]
  cases Slab.decode (slabBytes data) <;> rfl

theorem decode_of_envelopeOk (h : EnvelopeOk data) :
    decode data m = (Slab.decode (slabBytes data)).map fun s => ⟨s, sideOf data, m⟩ := by
  rw [decode_eq, if_neg (Nat.not_lt.mpr h.whole), if_neg (by simp [h.initialized]),
    if_neg (by simpa using h.one_side), if_neg (Nat.not_lt.mpr h.slab_header)]

theorem decode_of_not_envelopeOk (h : ¬ EnvelopeOk data) :
    ∃ f, decode data m = .error f ∧ ∀ n, f ≠ .slabBodyStride n := by
  rw [decode_eq]
  split
  · exact ⟨_, rfl, fun _ => nofun⟩
  split
  · exact ⟨_, rfl, fun _ => nofun⟩
  split
  · exact ⟨_, rfl, fun _ => nofun⟩
  split
  · exact ⟨_, rfl, fun _ => nofun⟩
  rename_i hshort hinit hside hheader
  exact absurd ⟨Nat.le_of_not_lt hshort, by simpa using hinit, by simpa using hside,
    Nat.le_of_not_lt hheader⟩ h

theorem sideOf_eq_buy_iff : sideOf data = .buy ↔ (flagsOf data).has .bids = true := by
  unfold sideOf
  cases (flagsOf data).has .bids <;> simp

/-! ## The slab region -/

theorem length_slabBytes (data : List UInt8) :
    (slabBytes data).length =
      min (Slab.headerSize + Slab.stride * Slab.recordCount (data.length - Envelope.overhead))
        (data.length - Envelope.overhead) := by
  simp only [slabBytes, List.length_take, length_bodyOf]

theorem slabBytes_whole (h : Slab.headerSize ≤ (bodyOf data).length) :
    (slabBytes data).length = Slab.headerSize + Slab.stride * Slab.recordCount (bodyOf data).length ∧
      (bodyOf data).length - (slabBytes data).length < Slab.stride := by
  have hdiv := Nat.div_add_mod ((bodyOf data).length - Slab.headerSize) Slab.stride
  have hmod := Nat.mod_lt ((bodyOf data).length - Slab.headerSize) (by decide : 0 < Slab.stride)
  simp only [slabBytes, List.length_take, Slab.recordCount] at *
  omega

theorem getElem?_slabBytes (data : List UInt8) (i : Nat) :
    (slabBytes data)[i]? = if i < (slabBytes data).length then data[13 + i]? else none := by
  split
  · rename_i hi
    have hlen : i < Slab.headerSize + Slab.stride * Slab.recordCount (bodyOf data).length ∧
        i < data.length - Envelope.overhead := by
      simpa only [slabBytes, List.length_take, Nat.lt_min, length_bodyOf] using hi
    rw [slabBytes, List.getElem?_take, if_pos hlen.1, bodyOf, LittleEndian.slice,
      List.getElem?_take, if_pos hlen.2, List.getElem?_drop]
  · rename_i hi
    exact List.getElem?_eq_none (Nat.le_of_not_lt hi)

theorem SameBook.slabBytes_eq (h : SameBook data data') :
    slabBytes data' = slabBytes data := by
  have hlen : (slabBytes data').length = (slabBytes data).length := by
    rw [length_slabBytes, length_slabBytes, h.length_eq]
  apply List.ext_getElem?
  intro i
  rw [getElem?_slabBytes, getElem?_slabBytes, hlen]
  split
  · exact h.slab_eq i ‹_›
  · rfl

theorem SameBook.envelopeOk_iff (h : SameBook data data') : EnvelopeOk data' ↔ EnvelopeOk data := by
  have hbody : (bodyOf data').length = (bodyOf data).length := by
    rw [length_bodyOf, length_bodyOf, h.length_eq]
  constructor
  · rintro ⟨hwhole, hinit, hside, hheader⟩
    rw [h.length_eq] at hwhole
    rw [h.initialized_eq] at hinit
    rw [h.bids_eq, h.asks_eq] at hside
    rw [hbody] at hheader
    exact ⟨hwhole, hinit, hside, hheader⟩
  · rintro ⟨hwhole, hinit, hside, hheader⟩
    refine ⟨?_, ?_, ?_, ?_⟩
    · rwa [h.length_eq]
    · rwa [h.initialized_eq]
    · rwa [h.bids_eq, h.asks_eq]
    · rwa [hbody]

theorem SameBook.sideOf_eq (h : SameBook data data') : sideOf data' = sideOf data := by
  rw [sideOf, sideOf, h.bids_eq]

theorem not_rejects_stride (n : Nat) (h : Slab.headerSize ≤ (bodyOf data).length) :
    ¬ Slab.Rejects (slabBytes data) (.slabBodyStride n) := by
  intro hrej
  generalize hf : Fault.slabBodyStride n = f at hrej
  cases hrej with
  | ragged _ hragged =>
      apply hragged
      rw [(slabBytes_whole h).1, Nat.add_sub_cancel_left, Nat.mul_mod_right]
  | badRecord =>
      unfold Slab.recordFault at hf
      split at hf <;> cases hf
  | _ => cases hf

/-- Reading an order book account. It reads exactly when the envelope is whole, the flags mark
an initialized account of exactly one side, the body holds a slab header and the body's slab
region `S` reads as a slab; the stride of `S` is never refused. The book holds the slab of `S`,
on the buy side exactly when the bids flag is set. Accounts that differ only in the marker
bytes, in flag bits other than initialized, bids and asks, or in the fewer than 72 bytes of the
body after `S`, give the same book, or both none. -/
theorem decode_reads_slab_region (data : List UInt8) (m : MarketConfig) :
    ((∃ b, decode data m = .ok b) ↔ EnvelopeOk data ∧ ∃ s, Slab.decode (slabBytes data) = .ok s) ∧
    (Slab.headerSize ≤ (bodyOf data).length →
      (slabBytes data).length =
        Slab.headerSize + Slab.stride * (((bodyOf data).length - Slab.headerSize) / Slab.stride) ∧
      (bodyOf data).length - (slabBytes data).length < Slab.stride) ∧
    (∀ n, decode data m ≠ .error (.slabBodyStride n)) ∧
    (∀ b, decode data m = .ok b →
      Slab.decode (slabBytes data) = .ok b.slab ∧
        (b.side = .buy ↔ (flagsOf data).has .bids = true) ∧ b.market = m) ∧
    ∀ data', SameBook data data' → (decode data' m).toOption = (decode data m).toOption := by
  by_cases hok : EnvelopeOk data
  · have hdec : decode data m = (Slab.decode (slabBytes data)).map fun s => ⟨s, sideOf data, m⟩ :=
      decode_of_envelopeOk hok
    refine ⟨?_, slabBytes_whole, fun n hn => ?_, fun b hb => ?_, fun data' hsame => ?_⟩
    · rw [hdec]
      constructor
      · rintro ⟨b, hb⟩
        obtain ⟨s, hs, -⟩ := Except.map_eq_ok_iff.mp hb
        exact ⟨hok, s, hs⟩
      · rintro ⟨-, s, hs⟩
        exact ⟨_, by rw [hs]; rfl⟩
    · rw [hdec, Except.map_eq_error_iff, Slab.decode_eq_error_iff] at hn
      exact not_rejects_stride n hok.slab_header hn
    · rw [hdec] at hb
      obtain ⟨s, hs, rfl⟩ := Except.map_eq_ok_iff.mp hb
      exact ⟨hs, sideOf_eq_buy_iff, rfl⟩
    · rw [hdec, decode_of_envelopeOk (hsame.envelopeOk_iff.mpr hok), hsame.slabBytes_eq,
        hsame.sideOf_eq]
  · obtain ⟨f, hf, hstride⟩ := decode_of_not_envelopeOk (m := m) hok
    refine ⟨?_, slabBytes_whole, fun n hn => hstride n (Except.error.inj (hf.symm.trans hn)),
      fun b hb => ?_, fun data' hsame => ?_⟩
    · rw [hf]
      simp [hok]
    · rw [hf] at hb
      cases hb
    · obtain ⟨f', hf', -⟩ := decode_of_not_envelopeOk (m := m) (mt hsame.envelopeOk_iff.mp hok)
      rw [hf, hf']
      rfl

/-- A bids account around the one-leaf slab: flag word `0x121` (initialized, bids, and bit 8,
which is not a flag), and three bytes of body after the slab. -/
def oneBidAccount : List UInt8 :=
  List.replicate 5 0 ++ LittleEndian.encode 8 0x121 ++ Slab.oneLeafBuffer ++ [9, 9, 9] ++
    List.replicate 7 0

def oneBidAccount' : List UInt8 :=
  List.replicate 5 1 ++ LittleEndian.encode 8 0x1A1 ++ Slab.oneLeafBuffer ++ [0, 0, 0] ++
    List.replicate 7 1

set_option maxRecDepth 8000 in
theorem oneBidAccount_reads_one_leaf :
    decode oneBidAccount (.ofSizes 1 1 0 0) =
        .ok ⟨Slab.oneLeafSlab, .buy, .ofSizes 1 1 0 0⟩ ∧
      (decode oneBidAccount' (.ofSizes 1 1 0 0)).toOption =
        some ⟨Slab.oneLeafSlab, .buy, .ofSizes 1 1 0 0⟩ := by
  have hbook : decode oneBidAccount (.ofSizes 1 1 0 0) =
      .ok ⟨Slab.oneLeafSlab, .buy, .ofSizes 1 1 0 0⟩ := by
    rfl
  have hsame : SameBook oneBidAccount oneBidAccount' :=
    ⟨by decide +kernel, by decide +kernel, by decide +kernel, by decide +kernel,
      by decide +kernel⟩
  obtain ⟨-, -, -, -, hframe⟩ :=
    decode_reads_slab_region oneBidAccount (.ofSizes 1 1 0 0)
  rw [hframe _ hsame, hbook]
  exact ⟨rfl, rfl⟩

end Orderbook

end Clob
