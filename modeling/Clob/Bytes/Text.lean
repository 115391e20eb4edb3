import Clob.Prelude
/-!
# Bytes as text

Bytes are written in hex as two lowercase hex digits each, most significant digit first. Reading
hex takes digits of either case and refuses text of odd length or with any other character.

`Base64.decode` reads standard base64 text strictly, symbol by symbol:

* only the 64 symbols `A-Z a-z 0-9 + /` and the pad `=` may occur, and the text may not start
  with a pad;
* every four symbols give three bytes; a group of two or three symbols followed by enough pads
  to make four ends the text, and nothing may follow those pads;
* a pad that completes no group is passed over, but once a pad has been seen no symbol may
  follow;
* the text must end between groups.
-/

namespace Clob.Hex

def digit (n : Nat) : Char :=
  if n < 10 then Char.ofNat ('0'.toNat + n) else Char.ofNat ('a'.toNat + n - 10)

def byteChars (b : UInt8) : List Char := [digit (b.toNat / 16), digit (b.toNat % 16)]

def encode (bs : List UInt8) : String := String.ofList (bs.flatMap byteChars)

def digitValue? (c : Char) : Option Nat :=
  if '0' ≤ c ∧ c ≤ '9' then some (c.toNat - '0'.toNat)
  else if 'a' ≤ c ∧ c ≤ 'f' then some (c.toNat - 'a'.toNat + 10)
  else if 'A' ≤ c ∧ c ≤ 'F' then some (c.toNat - 'A'.toNat + 10)
  else none

def decodeChars (acc : List UInt8) : List Char → Option (List UInt8)
  | [] => some acc.reverse
  | hi :: lo :: rest =>
    match digitValue? hi, digitValue? lo with
    | some h, some l => decodeChars (UInt8.ofNat (16 * h + l) :: acc) rest
    | _, _ => none
  | [_] => none

def decode (s : String) : Option (List UInt8) := decodeChars [] s.toList

end Clob.Hex

namespace Clob.Base64

def symbolValue? (c : Char) : Option Nat :=
  if 'A' ≤ c ∧ c ≤ 'Z' then some (c.toNat - 'A'.toNat)
  else if 'a' ≤ c ∧ c ≤ 'z' then some (c.toNat - 'a'.toNat + 26)
  else if '0' ≤ c ∧ c ≤ '9' then some (c.toNat - '0'.toNat + 52)
  else if c = '+' then some 62
  else if c = '/' then some 63
  else none

structure Reader where
  position : Nat
  carry : Nat
  pads : Nat
  padded : Bool
  bytes : List UInt8

def Reader.push (r : Reader) (v : Nat) : Reader :=
  match r.position with
  | 0 => ⟨1, v, 0, r.padded, r.bytes⟩
  | 1 => ⟨2, v % 16, 0, r.padded, UInt8.ofNat (r.carry * 4 + v / 16) :: r.bytes⟩
  | 2 => ⟨3, v % 4, 0, r.padded, UInt8.ofNat (r.carry * 16 + v / 4) :: r.bytes⟩
  | _ => ⟨0, 0, 0, r.padded, UInt8.ofNat (r.carry * 64 + v) :: r.bytes⟩

def decodeFrom : List Char → Reader → Option (List UInt8)
  | [], r => if r.position = 0 then some r.bytes.reverse else none
  | '=' :: rest, r =>
    if r.position ≥ 2 then
      if r.position + r.pads + 1 ≥ 4 then
        if rest.isEmpty then some r.bytes.reverse else none
      else decodeFrom rest ⟨r.position, r.carry, r.pads + 1, true, r.bytes⟩
    else decodeFrom rest ⟨r.position, r.carry, r.pads, true, r.bytes⟩
  | c :: rest, r =>
    match symbolValue? c with
    | none => none
    | some v => if r.padded then none else decodeFrom rest (r.push v)

def decode (s : String) : Option (List UInt8) :=
  match s.toList with
  | '=' :: _ => none
  | cs => decodeFrom cs ⟨0, 0, 0, false, []⟩

end Clob.Base64
