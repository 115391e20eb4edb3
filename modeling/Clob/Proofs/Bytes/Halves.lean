import Clob.Bytes.Layout
/-!
# 128-bit words round trip through their halves

`Word128.pack` and `Word128.read` both work half by half, the low 64-bit half first. By their
spec lemmas they are the 16-byte little-endian encoding and field, so both round trips come from
the two little-endian ones: `LittleEndian.read_encode` takes a word to its bytes and back, and
`LittleEndian.encode_read` takes 16 bytes to their word and back.

Packing refuses exactly the integers outside the 128-bit words, always as a value error. Reading
refuses exactly the offsets whose 16 bytes leave the buffer, and only with the bounds fault, a
layout error that names the field being read.
-/

namespace Clob.Word128

section Pack

variable {v : Int}

theorem pack_of_mem (h0 : 0 ≤ v) (h : v < 2 ^ 128) :
    pack v = .ok (LittleEndian.encode 16 v.toNat) := by
  rw [pack_eq, if_neg (by simp only [mask_cast]; omega)]

theorem pack_of_not_mem (h : v < 0 ∨ 2 ^ 128 ≤ v) : pack v = .error (.wordOutOfRange v) := by
  rw [pack_eq, if_pos (by simp only [mask_cast]; omega)]

theorem pack_error_kind {f : Fault} (h : pack v = .error f) : f.kind = .value := by
  rw [pack_eq] at h
  split at h
  case isTrue =>
    cases h
    rfl
  case isFalse => cases h

end Pack

section Read

variable {data : List UInt8} {offset : Int} {what : String}

theorem read_of_within (h0 : 0 ≤ offset) (h : offset + 16 ≤ data.length) :
    read data offset what = .ok (LittleEndian.field data offset.toNat 16) := by
  rw [read_eq, if_neg (by omega)]

theorem read_of_outside (h : offset < 0 ∨ data.length < offset + 16) :
    read data offset what = .error (.fieldOutOfBounds what 16 offset data.length) := by
  rw [read_eq, if_pos (by omega)]

theorem read_error {f : Fault} (h : read data offset what = .error f) :
    f = .fieldOutOfBounds what 16 offset data.length ∧ f.kind = .format := by
  rw [read_eq] at h
  split at h
  case isTrue =>
    cases h
    exact ⟨rfl, rfl⟩
  case isFalse => cases h

theorem read_eq_error_iff :
    read data offset what = .error (.fieldOutOfBounds what 16 offset data.length) ↔
      offset < 0 ∨ data.length < offset + 16 := by
  constructor
  · intro h
    by_cases hin : 0 ≤ offset ∧ offset + 16 ≤ data.length
    · rw [read_of_within hin.1 hin.2] at h
      cases h
    · omega
  · exact read_of_outside

end Read

theorem pack_then_read {v : Int} (what : String) (h0 : 0 ≤ v) (h : v < 2 ^ 128) :
    ∃ bytes, pack v = .ok bytes ∧ bytes.length = 16 ∧ LittleEndian.read bytes = v.toNat ∧
      read bytes 0 what = .ok v.toNat := by
  have hv : v.toNat < 256 ^ 16 := by
    have hpow : (256 : Nat) ^ 16 = 2 ^ 128 := by decide
    rw [hpow]
    omega
  have hread : LittleEndian.read (LittleEndian.encode 16 v.toNat) = v.toNat := by
    rw [LittleEndian.read_encode, Nat.mod_eq_of_lt hv]
  refine ⟨_, pack_of_mem h0 h, LittleEndian.length_encode 16 _, hread, ?_⟩
  rw [read_of_within (Int.le_refl 0) (by simp)]
  simp only [LittleEndian.field, Int.toNat_zero, List.drop_zero]
  rw [List.take_of_length_le (by simp), hread]

theorem read_then_pack {data : List UInt8} {offset : Int} (what : String) (h0 : 0 ≤ offset)
    (h : offset + 16 ≤ data.length) :
    ∃ v, read data offset what = .ok v ∧
      pack v = .ok (LittleEndian.slice data offset.toNat 16) := by
  refine ⟨_, read_of_within h0 h, ?_⟩
  let bytes := LittleEndian.slice data offset.toNat 16
  have hlen : bytes.length = 16 := LittleEndian.length_slice (by omega)
  have hlt : LittleEndian.read bytes < 256 ^ bytes.length := LittleEndian.read_lt bytes
  have hpow : (256 : Nat) ^ 16 = 2 ^ 128 := by decide
  rw [hlen, hpow] at hlt
  change pack (LittleEndian.read bytes : Int) = .ok bytes
  rw [pack_of_mem (Int.natCast_nonneg _) (by omega), Int.toNat_natCast, ← hlen,
    LittleEndian.encode_read]

/-- Packing refuses exactly the integers outside the 128-bit words, always as a value error, and
writes each word as the 16 bytes that hold it little-endian, low half first, which read back at
offset zero as the word. Reading at an offset whose 16 bytes lie inside the buffer gives a word
that packs back to exactly those bytes; every other offset is refused, and reading fails only
with the bounds fault, a layout error naming the field. -/
theorem words_round_trip_through_halves (what : String) :
    (∀ v : Int, v < 0 ∨ 2 ^ 128 ≤ v → pack v = .error (.wordOutOfRange v)) ∧
    (∀ (v : Int) (f : Fault), pack v = .error f → f.kind = .value) ∧
    (∀ v : Int, 0 ≤ v → v < 2 ^ 128 →
      ∃ bytes, pack v = .ok bytes ∧ bytes.length = 16 ∧ LittleEndian.read bytes = v.toNat ∧
        read bytes 0 what = .ok v.toNat) ∧
    (∀ (data : List UInt8) (offset : Int), 0 ≤ offset → offset + 16 ≤ data.length →
      ∃ v, read data offset what = .ok v ∧
        pack v = .ok (LittleEndian.slice data offset.toNat 16)) ∧
    (∀ (data : List UInt8) (offset : Int),
      read data offset what = .error (.fieldOutOfBounds what 16 offset data.length) ↔
        offset < 0 ∨ data.length < offset + 16) ∧
    (∀ (data : List UInt8) (offset : Int) (f : Fault), read data offset what = .error f →
      f = .fieldOutOfBounds what 16 offset data.length ∧ f.kind = .format) :=
  ⟨fun _ => pack_of_not_mem, fun _ _ => pack_error_kind, fun _ => pack_then_read what,
    fun _ _ => read_then_pack what, fun _ _ => read_eq_error_iff, fun _ _ _ => read_error⟩

theorem bothHalves_round_trip :
    pack (3 * 2 ^ 64 + 5) = .ok [5, 0, 0, 0, 0, 0, 0, 0, 3, 0, 0, 0, 0, 0, 0, 0] ∧
      read [5, 0, 0, 0, 0, 0, 0, 0, 3, 0, 0, 0, 0, 0, 0, 0] 0 "leaf key" =
        .ok (3 * 2 ^ 64 + 5) ∧
      read [5, 0, 0, 0, 0, 0, 0, 0, 3, 0, 0, 0, 0, 0, 0, 0] 1 "leaf key" =
        .error (.fieldOutOfBounds "leaf key" 16 1 16) := by
  obtain ⟨-, -, hpack, -, hbounds, -⟩ := words_round_trip_through_halves "leaf key"
  obtain ⟨bytes, hb, -, -, hread⟩ := hpack (3 * 2 ^ 64 + 5) (by decide) (by decide)
  have hbytes : pack (3 * 2 ^ 64 + 5) = .ok [5, 0, 0, 0, 0, 0, 0, 0, 3, 0, 0, 0, 0, 0, 0, 0] := by
    rfl
  rw [hbytes, Except.ok.injEq] at hb
  subst hb
  exact ⟨hbytes, hread, (hbounds _ 1).mpr (Or.inr (by decide))⟩

end Clob.Word128
