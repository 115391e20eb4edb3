import Clob.Prelude
/-!
# Little-endian fields

Account data stores every unsigned integer little-endian: the first byte is the least
significant. `read` gives the value of a byte string read that way, `field` reads a fixed
number of bytes at an offset, and `encode` writes a natural number into a fixed number of bytes.

The main statements are `read_encode` (writing `n` into `w` bytes and reading it back gives
`n % 256 ^ w`), its converse `encode_read` (a byte string is the encoding of its value at its
own length), and `field_add` and `encode_add`, which split a field into two consecutive ones.
-/

namespace Clob.LittleEndian

/-- The value of a byte string read least significant byte first. -/
def read : List UInt8 → Nat
  | [] => 0
  | b :: bs => b.toNat + 256 * read bs

def field (data : List UInt8) (offset width : Nat) : Nat :=
  read ((data.drop offset).take width)

def encode : (width : Nat) → Nat → List UInt8
  | 0, _ => []
  | width + 1, n => UInt8.ofNat (n % 256) :: encode width (n / 256)

def slice (data : List UInt8) (offset width : Nat) : List UInt8 :=
  (data.drop offset).take width

def records (size : Nat) : (count : Nat) → List UInt8 → List (List UInt8)
  | 0, _ => []
  | count + 1, bytes => bytes.take size :: records size count (bytes.drop size)

def chunks (size : Nat) (bytes : List UInt8) : List (List UInt8) :=
  records size (bytes.length / size) bytes

@[simp]
theorem read_nil : read [] = 0 := rfl

@[simp]
theorem read_cons (b : UInt8) (bs : List UInt8) : read (b :: bs) = b.toNat + 256 * read bs := rfl

@[simp]
theorem length_encode (width n : Nat) : (encode width n).length = width := by
  induction width generalizing n with
  | zero => rfl
  | succ w ih => simp [encode, ih]

theorem read_lt (bs : List UInt8) : read bs < 256 ^ bs.length := by
  induction bs with
  | nil => simp
  | cons b bs ih =>
    have hb := b.toNat_lt
    simp only [read_cons, List.length_cons, Nat.pow_succ]
    omega

theorem read_encode (width n : Nat) : read (encode width n) = n % 256 ^ width := by
  induction width generalizing n with
  | zero => simp [encode, Nat.mod_one]
  | succ w ih =>
    have h : n % 256 ^ (w + 1) = n % 256 + 256 * (n / 256 % 256 ^ w) := by
      rw [Nat.pow_succ, Nat.mul_comm (256 ^ w) 256, Nat.mod_mul]
    rw [encode, read_cons, ih, UInt8.toNat_ofNat', h]
    simp

theorem encode_read (bs : List UInt8) : encode bs.length (read bs) = bs := by
  induction bs with
  | nil => rfl
  | cons b bs ih =>
    have hb := b.toNat_lt
    have hlow : (b.toNat + 256 * read bs) % 256 = b.toNat := by omega
    have hhigh : (b.toNat + 256 * read bs) / 256 = read bs := by omega
    rw [List.length_cons, read_cons, encode, hlow, hhigh, ih, UInt8.ofNat_toNat]

theorem encode_mod (width n : Nat) : encode width (n % 256 ^ width) = encode width n := by
  calc encode width (n % 256 ^ width)
      = encode (encode width n).length (read (encode width n)) := by
        rw [length_encode, read_encode]
    _ = encode width n := encode_read _

theorem encode_add (a b n : Nat) : encode (a + b) n = encode a n ++ encode b (n / 256 ^ a) := by
  induction a generalizing n with
  | zero => simp [encode]
  | succ a ih =>
    rw [Nat.add_right_comm, encode, encode, ih, List.cons_append, Nat.div_div_eq_div_mul,
      ← Nat.pow_succ']

theorem read_append (xs ys : List UInt8) :
    read (xs ++ ys) = read xs + 256 ^ xs.length * read ys := by
  induction xs with
  | nil => simp
  | cons x xs ih =>
    rw [List.cons_append, read_cons, read_cons, ih, List.length_cons, Nat.pow_succ']
    simp only [Nat.mul_add, Nat.mul_assoc, Nat.add_assoc]

theorem field_lt (data : List UInt8) (offset width : Nat) :
    field data offset width < 256 ^ width :=
  calc field data offset width < 256 ^ ((data.drop offset).take width).length := read_lt _
    _ ≤ 256 ^ width := Nat.pow_le_pow_right (by decide) (List.length_take_le _ _)

theorem length_slice {data : List UInt8} {offset width : Nat}
    (h : offset + width ≤ data.length) : (slice data offset width).length = width := by
  simp only [slice, List.length_take, List.length_drop]
  omega

theorem field_add (data : List UInt8) (offset a b : Nat) :
    field data offset (a + b) = field data offset a + 256 ^ a * field data (offset + a) b := by
  rw [field, List.take_add, read_append, List.drop_drop]
  by_cases h : offset + a ≤ data.length
  · rw [List.length_take, List.length_drop, Nat.min_eq_left (by omega)]
    rfl
  · have hnil : data.drop (offset + a) = [] := List.drop_eq_nil_of_le (by omega)
    simp [field, hnil]

end Clob.LittleEndian
