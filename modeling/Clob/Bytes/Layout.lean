import Clob.Bytes.LittleEndian
import Clob.Fault
/-!
# Fixed layouts

Accounts are read field by field at fixed offsets. Every fixed-width read first checks that its
bytes lie inside the buffer (`LittleEndian.require`), or fails naming the field it was for.

A 128-bit word is stored as two 64-bit halves, the low half first, each least significant byte
first. `Word128.pack` writes a word and refuses an integer outside `0 ≤ v < 2 ^ 128`;
`Word128.read` reads one back at an offset. Both work half by half. Their spec lemmas `pack_eq`
and `read_eq` say that the halves, in this order, are the word's 16-byte little-endian encoding;
reading the 16 bytes back gives the word (`read_pack`).

Account data is wrapped in an envelope: five marker bytes, a 64-bit flag word, the body, and
seven marker bytes at the end. The markers are not checked. An account shorter than the
envelope's 20 bytes is refused, naming the kind of account being read.
-/

namespace Clob

namespace LittleEndian

/-- The check in front of every fixed-width read: the `size` bytes at `offset` lie inside the
buffer, or the read fails naming the field it was for. -/
def require (data : List UInt8) (offset : Int) (size : Nat) (what : String) :
    Except Fault Unit :=
  if offset < 0 ∨ offset + size > data.length then
    .error (.fieldOutOfBounds what size offset data.length)
  else pure ()

end LittleEndian

namespace Word128

def bound : Nat := 2 ^ 128

def mask : Nat := bound - 1

def halfMask : Nat := 2 ^ 64 - 1

def pack (v : Int) : Except Fault (List UInt8) :=
  if v < 0 ∨ v > (mask : Int) then .error (.wordOutOfRange v)
  else
    let n := v.toNat
    .ok (LittleEndian.encode 8 (n &&& halfMask) ++ LittleEndian.encode 8 (n >>> 64))

def read (data : List UInt8) (offset : Int) (what : String := "u128") : Except Fault Nat := do
  LittleEndian.require data offset 16 what
  let lo := LittleEndian.field data offset.toNat 8
  let hi := LittleEndian.field data (offset.toNat + 8) 8
  pure (hi <<< 64 ||| lo)

@[simp]
theorem mask_cast : (mask : Int) = 2 ^ 128 - 1 := by
  decide

theorem encode_halves (n : Nat) :
    LittleEndian.encode 8 (n &&& halfMask) ++ LittleEndian.encode 8 (n >>> 64) =
      LittleEndian.encode 16 n := by
  have h : (2 : Nat) ^ 64 = 256 ^ 8 := by decide
  rw [halfMask, Nat.and_two_pow_sub_one_eq_mod, Nat.shiftRight_eq_div_pow, h,
    LittleEndian.encode_mod, ← LittleEndian.encode_add]

theorem field_halves (data : List UInt8) (offset : Nat) :
    LittleEndian.field data (offset + 8) 8 <<< 64 ||| LittleEndian.field data offset 8 =
      LittleEndian.field data offset 16 := by
  have hlo : LittleEndian.field data offset 8 < 2 ^ 64 := LittleEndian.field_lt data offset 8
  have h : (256 : Nat) ^ 8 = 2 ^ 64 := by decide
  rw [← Nat.shiftLeft_add_eq_or_of_lt hlo, Nat.shiftLeft_eq, LittleEndian.field_add data offset 8 8,
    h, Nat.add_comm, Nat.mul_comm]

theorem pack_eq (v : Int) :
    pack v = if v < 0 ∨ v > (mask : Int) then .error (.wordOutOfRange v)
      else .ok (LittleEndian.encode 16 v.toNat) := by
  simp only [pack, encode_halves]

theorem read_eq (data : List UInt8) (offset : Int) (what : String) :
    read data offset what =
      if offset < 0 ∨ offset + 16 > data.length then
        .error (.fieldOutOfBounds what 16 offset data.length)
      else .ok (LittleEndian.field data offset.toNat 16) := by
  simp only [read, LittleEndian.require, field_halves]
  have hsize : ((16 : Nat) : Int) = 16 := rfl
  by_cases h : offset < 0 ∨ offset + 16 > data.length
  · simp only [hsize, h, if_true]
    rfl
  · simp only [hsize, h, if_false]
    rfl

theorem read_pack (v : Nat) (h : v < bound) :
    (pack v).map LittleEndian.read = .ok v := by
  have hv : ¬ ((v : Int) < 0 ∨ (v : Int) > (mask : Int)) := by
    simp only [mask_cast]
    simp only [bound] at h
    omega
  simp only [pack_eq, hv, if_false, Except.map, Int.toNat_natCast, LittleEndian.read_encode]
  rw [Nat.mod_eq_of_lt (by simpa [bound] using h)]

end Word128

structure Envelope where
  flags : AccountFlags
  body : List UInt8

namespace Envelope

def overhead : Nat := 20

def split (account : AccountKind) (data : List UInt8) : Except Fault Envelope :=
  if data.length < overhead then .error (.envelopeShort account data.length)
  else .ok ⟨AccountFlags.ofWord (LittleEndian.field data 5 8),
    LittleEndian.slice data 13 (data.length - overhead)⟩

end Envelope

end Clob
