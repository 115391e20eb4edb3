import Clob.Numeric.Nearest
/-!
# Reading numeric text

Number arguments arrive as text. Both readers ignore white space (`Text.isWhiteSpace`) at the
ends, take an optional sign, accept any decimal digit (`Text.digitValue?`), and accept single
underscores between two digits.

* `readInteger` reads a decimal integer, telling apart a text of more than 4300 digits.
* `readDecimal` reads the plain form only: an optional minus, then digits, nothing else; it too
  tells apart a text of more than 4300 digits.
* `Binary64.read?` reads a decimal number with an optional fraction and exponent, or one of
  `inf`, `infinity`, `nan` in any case, and rounds it to the nearest binary64 value.

The characters that numeric text may use as digits: those of the Unicode general category `Nd`.
They come in runs of ten, zero to nine, and `digitZeros` lists the first character of each run
(Unicode 14). Numeric text read from a command line or a number argument accepts any of them;
JSON text accepts only the ASCII digits.

Two classes of characters that trimming removes from the ends of text: those of the Unicode
`White_Space` property, which surround numbers, and the blanks, which surround encoded account
text and add the four information separators `U+001C` to `U+001F` that the Unicode tables
class as segment and paragraph separators.

Every character that core's `Char.isWhitespace` accepts is blank (`isBlank_of_isWhitespace`).
-/

namespace Clob.Text

/-- The code points of the zero of each run of ten decimal digits. -/
def digitZeros : List Nat :=
  [0x30, 0x660, 0x6F0, 0x7C0, 0x966, 0x9E6, 0xA66, 0xAE6,
   0xB66, 0xBE6, 0xC66, 0xCE6, 0xD66, 0xDE6, 0xE50, 0xED0,
   0xF20, 0x1040, 0x1090, 0x17E0, 0x1810, 0x1946, 0x19D0, 0x1A80,
   0x1A90, 0x1B50, 0x1BB0, 0x1C40, 0x1C50, 0xA620, 0xA8D0, 0xA900,
   0xA9D0, 0xA9F0, 0xAA50, 0xABF0, 0xFF10, 0x104A0, 0x10D30, 0x11066,
   0x110F0, 0x11136, 0x111D0, 0x112F0, 0x11450, 0x114D0, 0x11650, 0x116C0,
   0x11730, 0x118E0, 0x11950, 0x11C50, 0x11D50, 0x11DA0, 0x16A60, 0x16AC0,
   0x16B50, 0x1D7CE, 0x1D7D8, 0x1D7E2, 0x1D7EC, 0x1D7F6, 0x1E140, 0x1E2F0,
   0x1E950, 0x1FBF0]

def digitValue? (c : Char) : Option Nat :=
  let n := c.toNat
  if 48 ≤ n ∧ n ≤ 57 then some (n - 48)
  else (digitZeros.find? fun z => z ≤ n ∧ n < z + 10).map fun z => n - z

def isDecimalDigit (c : Char) : Bool := (digitValue? c).isSome

theorem digitValue_ascii (k : Nat) (h : k < 10) : digitValue? (Char.ofNat (48 + k)) = some k := by
  have : k = 0 ∨ k = 1 ∨ k = 2 ∨ k = 3 ∨ k = 4 ∨ k = 5 ∨ k = 6 ∨ k = 7 ∨ k = 8 ∨ k = 9 := by
    omega
  rcases this with rfl | rfl | rfl | rfl | rfl | rfl | rfl | rfl | rfl | rfl <;> decide

def isWhiteSpace (c : Char) : Bool :=
  let n := c.toNat
  (9 ≤ n && n ≤ 13) || n == 32 || n == 0x85 || n == 0xA0 || n == 0x1680 ||
    (0x2000 ≤ n && n ≤ 0x200A) || n == 0x2028 || n == 0x2029 || n == 0x202F ||
    n == 0x205F || n == 0x3000

def isBlank (c : Char) : Bool :=
  isWhiteSpace c || (28 ≤ c.toNat && c.toNat ≤ 31)

def trimBy (p : Char → Bool) (s : String) : List Char :=
  ((s.toList.dropWhile p).reverse.dropWhile p).reverse

def trimBlank (s : String) : List Char := trimBy isBlank s

theorem isBlank_of_isWhitespace (c : Char) (h : c.isWhitespace = true) : isBlank c = true := by
  simp only [Char.isWhitespace, Bool.or_eq_true, decide_eq_true_eq] at h
  simp only [isBlank, isWhiteSpace, Char.toNat, Bool.or_eq_true, Bool.and_eq_true,
    decide_eq_true_eq, beq_iff_eq]
  rcases h with ((h | h) | h) | h <;> subst h <;> decide

end Clob.Text

namespace Clob.Numeric

def isAsciiDigit (c : Char) : Bool := '0' ≤ c && c ≤ '9'

def digitsValue (ds : List Char) : Nat :=
  ds.foldl (fun acc c => 10 * acc + (Text.digitValue? c).getD 0) 0

def digitRun (cs : List Char) : List Char × List Char :=
  match cs with
  | c :: '_' :: d :: more =>
    if Text.isDecimalDigit c && Text.isDecimalDigit d then
      let (ds, r) := digitRun (d :: more)
      (c :: ds, r)
    else if Text.isDecimalDigit c then ([c], '_' :: d :: more)
    else ([], cs)
  | c :: rest =>
    if Text.isDecimalDigit c then
      let (ds, r) := digitRun rest
      (c :: ds, r)
    else ([], cs)
  | [] => ([], [])
termination_by cs.length

def sign : List Char → Bool × List Char
  | '-' :: rest => (true, rest)
  | '+' :: rest => (false, rest)
  | cs => (false, cs)

def maxIntegerDigits : Nat := 4300

/-- A decimal integer text: white space at the ends, an optional sign, digits with single
underscores between them. A run of digits that is not cut short by a misplaced underscore is
counted before anything after it is looked at: `some (.error n)` when its `n` digits are more
than `maxIntegerDigits`. -/
def readInteger (s : String) : Option (Except Nat Int) :=
  let (neg, rest) := sign (Text.trimBy Text.isWhiteSpace s)
  let (ds, tail) := digitRun rest
  if ds.isEmpty || tail.head? == some '_' then none
  else if ds.length > maxIntegerDigits then some (.error ds.length)
  else if !tail.isEmpty then none
  else
    let v : Int := digitsValue ds
    some (.ok (if neg then -v else v))

def decimalBody (cs : List Char) : Option (List Char × Int) :=
  let (whole, afterWhole) := digitRun cs
  let (frac, afterFrac) :=
    match afterWhole with
    | '.' :: more => digitRun more
    | _ => ([], afterWhole)
  if whole.isEmpty && frac.isEmpty then none
  else
    let exp : Option Int :=
      match afterFrac with
      | [] => some 0
      | e :: more =>
        if e == 'e' || e == 'E' then
          let (neg, r) := sign more
          let (ds, tail) := digitRun r
          if ds.isEmpty || !tail.isEmpty then none
          else
            let v : Int := digitsValue ds
            some (if neg then -v else v)
        else none
    exp.map fun x => (whole ++ frac, x - frac.length)

def readDecimal (s : String) : Option (Except Nat Int) :=
  let (neg, body) := match s.toList with
    | '-' :: rest => (true, rest)
    | cs => (false, cs)
  if body.isEmpty || !body.all Text.isDecimalDigit then none
  else if body.length > maxIntegerDigits then some (.error body.length)
  else
    let v : Int := digitsValue body
    some (.ok (if neg then -v else v))

end Clob.Numeric

namespace Clob.Binary64

def nan : Binary64 := ofBits 0x7FF8000000000000

def ofDecimal (neg : Bool) (digits : Nat) (exponent : Int) : Binary64 :=
  let len : Int := (Nat.log2 digits : Int) * 30103 / 100000 + 1
  if digits = 0 then nearest neg 0 1
  else if len + exponent > 311 then (if neg then infinity.negate else infinity)
  else if len + exponent < -326 then nearest neg 0 1
  else nearest neg (digits * 10 ^ exponent.toNat) (10 ^ (-exponent).toNat)

/-- The binary64 value that a number text denotes, or `none` when it is not a number. -/
def read? (s : String) : Option Binary64 :=
  let (neg, rest) := Numeric.sign (Text.trimBy Text.isWhiteSpace s)
  let word := String.ofList (rest.map Char.toLower)
  if word == "inf" || word == "infinity" then
    some (if neg then infinity.negate else infinity)
  else if word == "nan" then
    some (if neg then nan.negate else nan)
  else
    (Numeric.decimalBody rest).map fun (ds, e) => ofDecimal neg (Numeric.digitsValue ds) e

end Clob.Binary64
