import Mathlib.Logic.Equiv.Defs
import Clob.OrderKey
/-!
# Order keys as a code

`OrderKey.encode` checks that the price and the sequence number are 64-bit words, the price
first, and only then reads the side; `OrderKey.decode` checks that the key is a 128-bit word and
then reads the side. On the two sides it knows, encoding is a bijection from pairs of 64-bit
words onto 128-bit words (`OrderKey.keyEquiv`), and decoding is its inverse: the top half of a
key is its price and the low half its sequence number, complemented on the buy side. The
complement is an involution on 64-bit words (`OrderKey.lowHalf_lowHalf`), so every key in range
is the key of what it decodes to, and the price of a key is its top half.
-/

namespace Clob

namespace Side

def json (s : Side) : Json := .str (.plain s.name)

@[simp]
theorem ofJson_json (s : Side) : ofJson s.json = .ok s := by
  cases s <;> rfl

theorem ofJson_eq_error_iff {j : Json} {f : Fault} :
    ofJson j = .error f ↔ (∀ s : Side, j ≠ s.json) ∧ f = .sideUnknown j := by
  unfold ofJson
  split
  case h_1 =>
    simp only [reduceCtorEq, false_iff, not_and]
    intro hne
    exact absurd rfl (hne .buy)
  case h_2 =>
    simp only [reduceCtorEq, false_iff, not_and]
    intro hne
    exact absurd rfl (hne .sell)
  case h_3 hbuy hsell =>
    rw [Except.error.injEq]
    constructor
    · rintro rfl
      refine ⟨fun s => ?_, rfl⟩
      cases s
      · exact hbuy
      · exact hsell
    · rintro ⟨-, rfl⟩
      rfl

theorem ofJson_error_kind {j : Json} {f : Fault} (h : ofJson j = .error f) : f.kind = .value := by
  rw [(ofJson_eq_error_iff.mp h).2]
  rfl

end Side

namespace OrderKey

theorem compose_lt (side : Side) {p s : Nat} (hp : p < wordBound) (hs : s < wordBound) :
    compose side p s < 2 ^ 128 := by
  have hl := lowHalf_lt side s hs
  have hmul : (p + 1) * wordBound ≤ wordBound * wordBound := Nat.mul_le_mul_right _ hp
  simp only [compose, wordBound] at *
  omega

theorem compose_decompose (side : Side) (k : Nat) :
    compose side (k / wordBound) (sequence side k) = k := by
  have hmod : k % wordBound < wordBound := Nat.mod_lt _ (by decide)
  rw [compose, sequence, lowHalf_lowHalf side _ hmod, Nat.mul_comm, Nat.div_add_mod]

theorem sequence_lt (side : Side) (k : Nat) : sequence side k < wordBound :=
  lowHalf_lt side _ (Nat.mod_lt _ (by decide))

theorem price_compose (side : Side) (p : Nat) {s : Nat} (hs : s < wordBound) :
    price (compose side p s : Int) = p := by
  have hdiv := congrArg Prod.fst (decode_compose side p s hs)
  simp only at hdiv
  rw [price, ← Int.natCast_ediv, hdiv]

def keyOf (side : Side) (ps : Fin wordBound × Fin wordBound) : Fin (2 ^ 128) :=
  ⟨compose side ps.1 ps.2, compose_lt side ps.1.isLt ps.2.isLt⟩

def wordsOf (side : Side) (k : Fin (2 ^ 128)) : Fin wordBound × Fin wordBound :=
  (⟨k / wordBound, Nat.div_lt_of_lt_mul (by simp [wordBound])⟩,
    ⟨sequence side k, sequence_lt side k⟩)

def keyEquiv (side : Side) : (Fin wordBound × Fin wordBound) ≃ Fin (2 ^ 128) where
  toFun := keyOf side
  invFun := wordsOf side
  left_inv ps := by
    obtain ⟨⟨p, hp⟩, ⟨s, hs⟩⟩ := ps
    have h := decode_compose side p s hs
    simp only [Prod.mk.injEq] at h
    simp only [keyOf, wordsOf, h.1, h.2]
  right_inv k := Fin.ext (compose_decompose side k)

/-! ## Encoding and decoding -/

section Codec

variable {j : Json} {p q k : Int}

theorem encode_price_out (hp : ¬ (0 ≤ p ∧ p < 2 ^ 64)) :
    encode j p q = .error (.priceOutOfRange p) := by
  rw [encode, if_pos (by simp only [wordBound]; omega)]

theorem encode_sequence_out (hp : 0 ≤ p ∧ p < 2 ^ 64) (hq : ¬ (0 ≤ q ∧ q < 2 ^ 64)) :
    encode j p q = .error (.sequenceOutOfRange q) := by
  rw [encode, if_neg (by simp only [wordBound]; omega), if_pos (by simp only [wordBound]; omega)]

theorem encode_in_range (hp : 0 ≤ p ∧ p < 2 ^ 64) (hq : 0 ≤ q ∧ q < 2 ^ 64) :
    encode j p q = (Side.ofJson j).map fun s => compose s p.toNat q.toNat := by
  rw [encode, if_neg (by simp only [wordBound]; omega), if_neg (by simp only [wordBound]; omega)]

theorem encode_error_kind {f : Fault} (h : encode j p q = .error f) : f.kind = .value := by
  by_cases hp : 0 ≤ p ∧ p < 2 ^ 64
  · by_cases hq : 0 ≤ q ∧ q < 2 ^ 64
    · rw [encode_in_range hp hq] at h
      cases hs : Side.ofJson j with
      | error e =>
          rw [hs] at h
          cases h
          exact Side.ofJson_error_kind hs
      | ok s => simp [hs, Except.map] at h
    · rw [encode_sequence_out hp hq] at h
      cases h
      rfl
  · rw [encode_price_out hp] at h
    cases h
    rfl

theorem decode_in_range (hk : 0 ≤ k ∧ k < 2 ^ 128) :
    decode j k = (Side.ofJson j).map fun s => (k.toNat / wordBound, sequence s k.toNat) := by
  rw [decode, if_neg (by omega)]

theorem decode_eq_error_iff {f : Fault} :
    decode j k = .error f ↔
      (¬ (0 ≤ k ∧ k < 2 ^ 128) ∧ f = .keyOutOfRange k) ∨
        (0 ≤ k ∧ k < 2 ^ 128 ∧ (∀ s : Side, j ≠ s.json) ∧ f = .sideUnknown j) := by
  by_cases hk : 0 ≤ k ∧ k < 2 ^ 128
  · rw [decode_in_range hk]
    cases hs : Side.ofJson j with
    | error e =>
        obtain ⟨hnone, rfl⟩ := Side.ofJson_eq_error_iff.mp hs
        simp only [Except.map, Except.error.injEq]
        constructor
        · rintro rfl
          exact .inr ⟨hk.1, hk.2, hnone, rfl⟩
        · rintro (⟨hout, -⟩ | ⟨-, -, -, rfl⟩)
          · exact absurd hk hout
          · rfl
    | ok s =>
        have hnamed : ¬ ∀ s : Side, j ≠ s.json := by
          intro hnone
          cases Side.ofJson_eq_error_iff.mpr ⟨hnone, rfl⟩ ▸ hs
        simp only [Except.map, reduceCtorEq, false_iff, not_or, not_and]
        exact ⟨fun hout => absurd hk.2 (hout hk.1), fun _ _ hnone => absurd hnone hnamed⟩
  · rw [decode, if_pos (by omega), Except.error.injEq]
    constructor
    · rintro rfl
      exact .inl ⟨hk, rfl⟩
    · rintro (⟨-, rfl⟩ | ⟨h0, h1, -⟩)
      · rfl
      · exact absurd ⟨h0, h1⟩ hk

theorem decode_error_kind {f : Fault} (h : decode j k = .error f) : f.kind = .value := by
  rcases decode_eq_error_iff.mp h with ⟨-, rfl⟩ | ⟨-, -, -, rfl⟩ <;> rfl

end Codec

/-- Encoding and decoding order keys. Whatever the side value, a price outside the 64-bit words
is refused first and then a sequence number outside them, before the side is read, and every
refusal is a value error. On either side, a price and a sequence number in range encode to a
128-bit key that decodes to them and whose price is the price; every 128-bit key is the encoding
of what it decodes to; so encoding is a bijection from pairs of 64-bit words onto 128-bit keys.
Decoding refuses exactly the keys outside the 128-bit words, and then the values that name no
side, always as a value error. -/
theorem encode_decode_inverse_bijection (side : Side) :
    (∀ (j : Json) (p q : Int), ¬ (0 ≤ p ∧ p < 2 ^ 64) →
      encode j p q = .error (.priceOutOfRange p)) ∧
    (∀ (j : Json) (p q : Int), 0 ≤ p ∧ p < 2 ^ 64 → ¬ (0 ≤ q ∧ q < 2 ^ 64) →
      encode j p q = .error (.sequenceOutOfRange q)) ∧
    (∀ (p q : Int), 0 ≤ p ∧ p < 2 ^ 64 → 0 ≤ q ∧ q < 2 ^ 64 →
      ∃ k : Nat, encode side.json p q = .ok k ∧ k < 2 ^ 128 ∧
        decode side.json k = .ok (p.toNat, q.toNat) ∧ price k = p) ∧
    (∀ k : Int, 0 ≤ k ∧ k < 2 ^ 128 →
      ∃ p q : Nat, decode side.json k = .ok (p, q) ∧ encode side.json p q = .ok k.toNat) ∧
    Function.Bijective (keyOf side) ∧
    (∀ (j : Json) (k : Int) (f : Fault), decode j k = .error f ↔
      (¬ (0 ≤ k ∧ k < 2 ^ 128) ∧ f = .keyOutOfRange k) ∨
        (0 ≤ k ∧ k < 2 ^ 128 ∧ (∀ s : Side, j ≠ s.json) ∧ f = .sideUnknown j)) ∧
    (∀ (j : Json) (p q : Int) (f : Fault), encode j p q = .error f → f.kind = .value) ∧
    (∀ (j : Json) (k : Int) (f : Fault), decode j k = .error f → f.kind = .value) := by
  refine ⟨fun _ _ _ => encode_price_out, fun _ _ _ => encode_sequence_out, ?_, ?_,
    (keyEquiv side).bijective, fun _ _ _ => decode_eq_error_iff,
    fun _ _ _ _ => encode_error_kind, fun _ _ _ => decode_error_kind⟩
  · intro p q hp hq
    have hq' : q.toNat < wordBound := by simp only [wordBound]; omega
    have hkey := compose_lt side (p := p.toNat) (by simp only [wordBound]; omega) hq'
    refine ⟨compose side p.toNat q.toNat, by simp [encode_in_range hp hq, Except.map], hkey,
      ?_, ?_⟩
    · rw [decode_in_range (by omega), Side.ofJson_json, Int.toNat_natCast]
      simp only [Except.map, decode_compose side _ _ hq']
    · rw [price_compose side _ hq']
      omega
  · intro k hk
    have hseq : sequence side k.toNat < 2 ^ 64 := sequence_lt side k.toNat
    have htop : k.toNat / wordBound < 2 ^ 64 :=
      Nat.div_lt_of_lt_mul (by simp only [wordBound]; omega)
    refine ⟨k.toNat / wordBound, sequence side k.toNat, ?_, ?_⟩
    · simp [decode_in_range hk, Except.map]
    · have hp : (0 : Int) ≤ (k.toNat / wordBound : Nat) ∧
          ((k.toNat / wordBound : Nat) : Int) < 2 ^ 64 :=
        ⟨Int.natCast_nonneg _, by exact_mod_cast htop⟩
      have hq : (0 : Int) ≤ (sequence side k.toNat : Nat) ∧
          ((sequence side k.toNat : Nat) : Int) < 2 ^ 64 :=
        ⟨Int.natCast_nonneg _, by exact_mod_cast hseq⟩
      rw [encode_in_range hp hq, Side.ofJson_json]
      simp only [Except.map, Int.toNat_natCast, compose_decompose]

theorem bid_key_decodes_back :
    encode Side.buy.json 100 7 = .ok (100 * 2 ^ 64 + (2 ^ 64 - 1 - 7)) ∧
      decode Side.buy.json (100 * 2 ^ 64 + (2 ^ 64 - 1 - 7)) = .ok (100, 7) := by
  obtain ⟨-, -, hround, -⟩ := encode_decode_inverse_bijection .buy
  obtain ⟨k, hk, -, hdec, -⟩ := hround 100 7 ⟨by decide, by decide⟩ ⟨by decide, by decide⟩
  have hkey : encode Side.buy.json 100 7 = .ok (100 * 2 ^ 64 + (2 ^ 64 - 1 - 7)) := by rfl
  rw [hkey, Except.ok.injEq] at hk
  subst hk
  exact ⟨hkey, hdec⟩

end OrderKey

end Clob
