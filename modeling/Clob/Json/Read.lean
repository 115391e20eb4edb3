import Clob.Json.Value
import Clob.Numeric.Read
/-!
# Reading JSON

`Json.parse` reads a JSON text: blanks are space, tab, line feed and carriage return; a number
without fraction or exponent is an integer of at most 4300 digits, any other number is rounded
to the nearest binary64 value; `NaN`, `Infinity` and `-Infinity` are numbers too; a string may
not hold a raw control character, and a `\u` escape of a high surrogate followed by one of a low
surrogate denotes one character, while any other surrogate stands alone in the text
(`CodeText`). An object is built by `Json.object`, so a repeated key keeps its
first place and its last value. Any text after the value other than blanks is refused.

`Json.read` bounds how deep arrays and objects may nest: reading left to right, the first
container that opens beyond the bound ends the reading with `ReadError.tooDeep`, unless the text
before it already broke the grammar.
-/

namespace Clob.Json

inductive Container where
  | array
  | object
  deriving DecidableEq, Repr

inductive ReadError where
  | malformed
  | tooDeep (container : Container)
  deriving DecidableEq, Repr

def isSpace (c : Char) : Bool := c == ' ' || c == '\t' || c == '\n' || c == '\r'

def skipSpace (cs : List Char) : List Char := cs.dropWhile isSpace

def hexDigit? (c : Char) : Option Nat :=
  if '0' ≤ c ∧ c ≤ '9' then some (c.toNat - '0'.toNat)
  else if 'a' ≤ c ∧ c ≤ 'f' then some (c.toNat - 'a'.toNat + 10)
  else if 'A' ≤ c ∧ c ≤ 'F' then some (c.toNat - 'A'.toNat + 10)
  else none

def hexUnit? (a b c d : Char) : Option Nat := do
  let a ← hexDigit? a
  let b ← hexDigit? b
  let c ← hexDigit? c
  let d ← hexDigit? d
  pure (((a * 16 + b) * 16 + c) * 16 + d)

def shortEscape? (c : Char) : Option Char :=
  match c with
  | '"' => some '"'
  | '\\' => some '\\'
  | '/' => some '/'
  | 'b' => some '\x08'
  | 'f' => some '\x0c'
  | 'n' => some '\n'
  | 'r' => some '\r'
  | 't' => some '\t'
  | _ => none

def readString (acc : List Nat) (cs : List Char) : Option (CodeText × List Char) :=
  match cs with
  | '"' :: rest => some (CodeText.ofPoints acc.reverse, rest)
  | '\\' :: 'u' :: a :: b :: c :: d :: rest =>
    match hexUnit? a b c d with
    | none => none
    | some hi =>
      if 0xD800 ≤ hi ∧ hi < 0xDC00 then
        match _hr : rest with
        | '\\' :: 'u' :: e :: f :: g :: h :: more =>
          match hexUnit? e f g h with
          | some lo =>
            if 0xDC00 ≤ lo ∧ lo < 0xE000 then
              readString ((0x10000 + (hi - 0xD800) * 1024 + (lo - 0xDC00)) :: acc) more
            else readString (hi :: acc) rest
          | none => none
        | _ => readString (hi :: acc) rest
      else readString (hi :: acc) rest
  | '\\' :: e :: rest =>
    match shortEscape? e with
    | some c => readString (c.toNat :: acc) rest
    | none => none
  | c :: rest => if c.toNat < 0x20 then none else readString (c.toNat :: acc) rest
  | [] => none
termination_by cs.length

def digitsAndRest (cs : List Char) : List Char × List Char :=
  (cs.takeWhile Numeric.isAsciiDigit, cs.dropWhile Numeric.isAsciiDigit)

def readNumber (cs : List Char) : Option (Json × List Char) :=
  let (neg, afterSign) := match cs with
    | '-' :: r => (true, r)
    | r => (false, r)
  let whole : Option (List Char × List Char) := match afterSign with
    | '0' :: r => some (['0'], r)
    | c :: r =>
      if '1' ≤ c ∧ c ≤ '9' then
        let (ds, r') := digitsAndRest r
        some (c :: ds, r')
      else none
    | [] => none
  match whole with
  | none => none
  | some (ip, afterWhole) =>
    let (frac, afterFrac) : Option (List Char) × List Char := match afterWhole with
      | '.' :: d :: r =>
        if Numeric.isAsciiDigit d then
          let (ds, r') := digitsAndRest r
          (some (d :: ds), r')
        else (none, afterWhole)
      | _ => (none, afterWhole)
    let (exp, afterExp) : Option Int × List Char := match afterFrac with
      | e :: r =>
        if e == 'e' || e == 'E' then
          let (eneg, r') := match r with
            | '-' :: r'' => (true, r'')
            | '+' :: r'' => (false, r'')
            | r'' => (false, r'')
          let (ds, r'') := digitsAndRest r'
          if ds.isEmpty then (none, afterFrac)
          else
            let v : Int := Numeric.digitsValue ds
            (some (if eneg then -v else v), r'')
        else (none, afterFrac)
      | [] => (none, afterFrac)
    match frac, exp with
    | none, none =>
      if ip.length > Numeric.maxIntegerDigits then none
      else
        let v : Int := Numeric.digitsValue ip
        some (.int (if neg then -v else v), afterExp)
    | _, _ =>
      let fs := frac.getD []
      some (.float (Binary64.ofDecimal neg (Numeric.digitsValue (ip ++ fs))
        (exp.getD 0 - fs.length)), afterExp)

mutual

def readValue : Nat → Nat → List Char → Except ReadError (Json × List Char)
  | 0, _, _ => .error .malformed
  | fuel + 1, room, cs =>
    match cs with
    | '"' :: rest =>
      match readString [] rest with
      | some (s, r) => .ok (.str s, r)
      | none => .error .malformed
    | '{' :: rest =>
      match room with
      | 0 => .error (.tooDeep .object)
      | room + 1 => readObject fuel room (skipSpace rest)
    | '[' :: rest =>
      match room with
      | 0 => .error (.tooDeep .array)
      | room + 1 => readArray fuel room (skipSpace rest)
    | 'n' :: 'u' :: 'l' :: 'l' :: rest => .ok (.null, rest)
    | 't' :: 'r' :: 'u' :: 'e' :: rest => .ok (.bool true, rest)
    | 'f' :: 'a' :: 'l' :: 's' :: 'e' :: rest => .ok (.bool false, rest)
    | 'N' :: 'a' :: 'N' :: rest => .ok (.float Binary64.nan, rest)
    | 'I' :: 'n' :: 'f' :: 'i' :: 'n' :: 'i' :: 't' :: 'y' :: rest =>
      .ok (.float Binary64.infinity, rest)
    | '-' :: 'I' :: 'n' :: 'f' :: 'i' :: 'n' :: 'i' :: 't' :: 'y' :: rest =>
      .ok (.float Binary64.infinity.negate, rest)
    | _ =>
      match readNumber cs with
      | some r => .ok r
      | none => .error .malformed
termination_by structural fuel _ _ => fuel

def readArray : Nat → Nat → List Char → Except ReadError (Json × List Char)
  | 0, _, _ => .error .malformed
  | _ + 1, _, ']' :: rest => .ok (.arr [], rest)
  | fuel + 1, room, cs => readItems fuel room cs []
termination_by structural fuel _ _ => fuel

def readItems : Nat → Nat → List Char → List Json → Except ReadError (Json × List Char)
  | 0, _, _, _ => .error .malformed
  | fuel + 1, room, cs, acc =>
    match readValue fuel room cs with
    | .error e => .error e
    | .ok (v, r) =>
      match skipSpace r with
      | ',' :: r' => readItems fuel room (skipSpace r') (v :: acc)
      | ']' :: r' => .ok (.arr (v :: acc).reverse, r')
      | _ => .error .malformed
termination_by structural fuel _ _ _ => fuel

def readObject : Nat → Nat → List Char → Except ReadError (Json × List Char)
  | 0, _, _ => .error .malformed
  | _ + 1, _, '}' :: rest => .ok (.obj [], rest)
  | fuel + 1, room, cs => readMembers fuel room cs []
termination_by structural fuel _ _ => fuel

def readMembers : Nat → Nat → List Char → List (CodeText × Json) →
    Except ReadError (Json × List Char)
  | 0, _, _, _ => .error .malformed
  | fuel + 1, room, cs, acc =>
    match cs with
    | '"' :: rest =>
      match readString [] rest with
      | none => .error .malformed
      | some (k, r) =>
        match skipSpace r with
        | ':' :: r' =>
          match readValue fuel room (skipSpace r') with
          | .error e => .error e
          | .ok (v, r'') =>
            match skipSpace r'' with
            | ',' :: r3 => readMembers fuel room (skipSpace r3) ((k, v) :: acc)
            | '}' :: r3 => .ok (object ((k, v) :: acc).reverse, r3)
            | _ => .error .malformed
        | _ => .error .malformed
    | _ => .error .malformed
termination_by structural fuel _ _ _ => fuel
end

def read (room : Nat) (s : String) : Except ReadError Json :=
  let cs := skipSpace s.toList
  match readValue (3 * cs.length + 3) room cs with
  | .ok (v, rest) => if (skipSpace rest).isEmpty then .ok v else .error .malformed
  | .error e => .error e

def parse (s : String) : Option Json :=
  (read s.length s).toOption

end Clob.Json
